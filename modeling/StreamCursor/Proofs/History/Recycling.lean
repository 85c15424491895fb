import StreamCursor.Proofs.Cursor.Recycling
import StreamCursor.Proofs.History.Growth

/-! What a caller gains who reports everything consumed before the buffer is exchanged. Main
statement: then the pool is idle, every exchange that keeps the capacity is done in place, and the
blocks that the others leave behind take up no more than two thirds of the buffer in use. -/

namespace StreamCursor

open Cursor (Faithful Peeked Recycled Tidy)

variable {σ : Type} [Source σ]

/-- Wherever one of the operations exchanges the buffer, all that was committed by then was reported
consumed. An operation that may exchange the buffer itself neither commits nor reports anything. -/
def History.Prompt (h : History σ) : List Operation → Prop
  | [] => True
  | op :: ops => ∀ next, h.step op = .ok next →
      (h.cursor.Swapped next.cursor → h.freed = h.cursor.tokenOffset) ∧ next.Prompt ops

theorem History.prompt_cons_iff {h next : History σ} {op : Operation} {ops : List Operation}
    (hstep : h.step op = .ok next) :
    h.Prompt (op :: ops) ↔
      (h.cursor.Swapped next.cursor → h.freed = h.cursor.tokenOffset) ∧ next.Prompt ops := by
  constructor
  · intro hprompt
    exact hprompt next hstep
  · rintro hprompt next' hnext
    cases hstep.symm.trans hnext
    exact hprompt

/-- Whether a caller was prompt is found out by running the operations. -/
instance History.Prompt.decidable : (h : History σ) → (ops : List Operation) →
    Decidable (h.Prompt ops)
  | _, [] => isTrue trivial
  | h, op :: ops =>
    match hstep : h.step op with
    | .error _ => isTrue fun _ hnext => absurd (hstep.symm.trans hnext) nofun
    | .ok next =>
      have : Decidable (next.Prompt ops) := decidable next ops
      have : Decidable (h.cursor.Swapped next.cursor) := Nat.decLt _ _
      decidable_of_iff' _ (prompt_cons_iff hstep)

/-- The exchanges under watch were done without need of the pool, which has a block for every one
that made the buffer grow. -/
structure Recycling (w : Watched σ) : Prop where
  tidy : w.cursor.Tidy
  recycled : ∀ g ∈ w.glances, g.before.Swapped g.after → g.before.Recycled g.after
  size_blocks : w.cursor.pool.blocks.size =
    w.glances.countP fun g => g.before.capacity < g.after.capacity

namespace Recycling

omit [Source σ] in
theorem lasting (glances : List (Glance σ)) :
    Lasting fun c => Recycling { cursor := c, glances } where
  reposition _ _ _ h _ := ⟨h.tidy.congr rfl rfl rfl, h.recycled, h.size_blocks⟩
  consume _ n h := ⟨h.tidy.consume n, h.recycled, (Pool.size_blocks_reclaimFrom ..).trans h.size_blocks⟩

variable {stream : Bytes} {freed k : Nat} {later : Cursor σ} {w : Watched σ}

theorem peeked (h : Recycling w) (hw : w.cursor.Faithful (.any σ) stream freed)
    (hpeeked : Peeked k w.cursor later)
    (hprompt : w.cursor.Swapped later → freed = w.cursor.tokenOffset) (b : UInt8) :
    Recycling { cursor := later, glances := w.glances ++ [⟨w.cursor, k, b, later⟩] } := by
  by_cases hgrows : w.cursor.Outgrows k
  · have hswapped := (hpeeked.swapped_iff hw.toSound).2 hgrows
    obtain ⟨htidy, hrecycled⟩ := hpeeked.recycles hw h.tidy hgrows (hprompt hswapped)
    refine ⟨htidy, ?_, ?_⟩
    · simp only [List.forall_mem_append, List.forall_mem_singleton]
      exact ⟨h.recycled, fun _ => hrecycled⟩
    · have hsize := h.size_blocks
      by_cases hlarger : w.cursor.capacity < later.capacity
      · simp [hrecycled.outgrown hlarger, hsize, hlarger]
      · simp [(hrecycled.reused hlarger).1, hsize, hlarger]
  · obtain ⟨htidy, hblocks, hcapacity⟩ := hpeeked.tidy_of_not_outgrows h.tidy hgrows
    refine ⟨htidy, ?_, ?_⟩
    · simp only [List.forall_mem_append, List.forall_mem_singleton]
      exact ⟨h.recycled, fun hswapped => absurd ((hpeeked.swapped_iff hw.toSound).1 hswapped) hgrows⟩
    · simp [hblocks, hcapacity, h.size_blocks]

/-- The watch over one operation, from a cursor `c` on. All peeks of the operation stand at the same
token, and if one of them exchanges the buffer, then so does the operation. -/
def Within (c : Cursor σ) (freed : Nat) (w : Watched σ) : Prop :=
  (∃ stream, w.cursor.Faithful (.any σ) stream freed) ∧ w.cursor.tokenOffset = c.tokenOffset ∧
    exchanges c.journal ≤ exchanges w.cursor.journal ∧
    ((c.Swapped w.cursor → freed = c.tokenOffset) → Recycling w)

theorem keptByPeeks (c : Cursor σ) (freed : Nat) : KeptByPeeks (Within c freed) := by
  rintro k w ⟨⟨stream, hw⟩, hoffset, hle, hrecycling⟩
  obtain ⟨later, part, hpeek, hlater, -⟩ := hw.peek k
  have hpeeked := hw.toSound.peeked_of_peek hpeek
  have hmore := hpeeked.exchanges_le hw.toSound
  refine ⟨_, later, hpeek, ⟨_, hlater.faithful⟩, hlater.samePlace.tokenOffset.trans hoffset,
    Nat.le_trans hle hmore, fun hprompt => ?_⟩
  apply (hrecycling fun hswapped => hprompt (Nat.lt_of_lt_of_le hswapped hmore)).peeked hw hpeeked
  intro hswapped
  rw [hoffset]
  exact hprompt (Nat.lt_of_le_of_lt hle hswapped)

theorem perform {op : Operation} {answer : Answer} (h : Recycling w)
    (hw : w.cursor.Faithful (.any σ) stream freed)
    (hperform : op.perform w.cursor = .ok (answer, later))
    (hprompt : w.cursor.Swapped later → freed = w.cursor.tokenOffset) :
    ∃ glances, op.watch w = .ok (answer, { cursor := later, glances }) ∧
      Recycling { cursor := later, glances } := by
  cases hlooks : op.looks with
  | false =>
    obtain ⟨answer', later', hperform', hlater⟩ :=
      Operation.perform_meets_of_not_looks (lasting w.glances) hlooks w.cursor h
    cases hperform.symm.trans hperform'
    exact ⟨w.glances, Operation.watch_of_perform hlooks hperform, hlater⟩
  | true =>
    obtain ⟨answer', next, later', hwatch, hperform', hcursor, -, -, -, hnext⟩ :=
      Operation.watch_inStep_of_looks (keptByPeeks w.cursor freed) hlooks w w.cursor
        ⟨rfl, ⟨stream, hw⟩, rfl, Nat.le_refl _, fun _ => h⟩
    cases hperform.symm.trans hperform'
    obtain ⟨cursor, glances⟩ := next
    obtain rfl : cursor = later := hcursor
    exact ⟨glances, hwatch, hnext hprompt⟩

end Recycling

theorem Watched.ofSource_recycling {source : σ} {options : Options} {opened : Cursor σ}
    (hopen : Cursor.ofSource source options = .ok opened)
    (hadopts : Cursor.adopts source options = false) :
    ∃ first stream, ofSource source options = .ok first ∧ first.cursor = opened ∧
      opened.Faithful (.any σ) stream 0 ∧ Recycling first := by
  obtain ⟨hmax, rest, b, hrest, hpeek⟩ := Cursor.opening_of_not_adopts hopen hadopts
  have hunread : (Cursor.unread rest (max options.bufferSize 1)).Faithful (.any σ) [] 0 :=
    Cursor.faithful_unread trivial (by omega) hmax
  have hstart : Recycling { cursor := Cursor.unread rest (max options.bufferSize 1) } := by
    refine ⟨⟨rfl, ?_, ?_⟩, List.forall_mem_nil _, rfl⟩
    · simp [Cursor.unread, Pool.capacities]
    · simp [Cursor.unread, Pool.occupancy]
  obtain ⟨later, part, hpeek', hlater, -⟩ := hunread.peek 0
  cases hpeek.symm.trans hpeek'
  have hpeeked := hunread.toSound.peeked_of_peek hpeek
  exact ⟨_, _, ofSource_of_read hrest hmax hpeek, rfl, hlater.faithful,
    hstart.peeked hunread hpeeked (fun _ => rfl) _⟩

namespace History

theorem run_recycling {h : History σ} {w : Watched σ} {stream : Bytes} {ops : List Operation}
    (hw : w.cursor = h.cursor) (hh : h.cursor.Faithful (.any σ) stream h.freed)
    (hrecycling : Recycling w) (hprompt : h.Prompt ops) :
    ∃ answers later last, h.run ops = .ok last ∧
      ops.mapM Operation.watch w = .ok (answers, later) ∧ last.answers = h.answers ++ answers ∧
      later.cursor = last.cursor ∧ Recycling later := by
  have hstep : ∀ op ops (h : History σ) (w : Watched σ),
      ((∃ stream, h.cursor.Faithful (.any σ) stream h.freed) ∧ h.Prompt (op :: ops) ∧ Recycling w) →
      w.cursor = h.cursor → ∃ answer next, op.watch w = .ok (answer, next) ∧
        op.perform h.cursor = .ok (answer, next.cursor) ∧
        (∃ stream, next.cursor.Faithful (.any σ) stream (h.freed + op.freed h.cursor)) ∧
        (h.extend op answer next.cursor).Prompt ops ∧ Recycling next := by
    rintro op ops h w ⟨⟨stream, hh⟩, hprompt, hw⟩ hcursor
    obtain ⟨answer, later, part, hperform, houtcome⟩ := Operation.perform_outcome hh op
    obtain ⟨hreleased, hrest⟩ := hprompt _ (step_of_perform hperform)
    rw [← hcursor] at hh hreleased
    obtain ⟨glances, hwatch, hlater⟩ := hw.perform hh (hcursor ▸ hperform) hreleased
    exact ⟨answer, _, hwatch, hperform, ⟨_, houtcome.faithful⟩, hrest, hlater⟩
  obtain ⟨answers, later, last, hrun, hwatch, hanswers, hcursor, -, -, hlast⟩ :=
    run_watched_of_steps (J := fun ops h w =>
      (∃ stream, h.cursor.Faithful (.any σ) stream h.freed) ∧ h.Prompt ops ∧ Recycling w)
      hstep ops hw ⟨⟨stream, hh⟩, hprompt, hrecycling⟩
  exact ⟨answers, later, last, hrun, hwatch, hanswers, hcursor, hlast⟩

/-- Whatever the source does, if a cursor that adopts nothing has all that it committed reported
consumed whenever it exchanges its buffer, then nothing is ever in flight, an exchange that does not
make the buffer grow reuses it in place and leaves the blocks of the pool alone, the others add one
block each, and all blocks together have no more than two thirds of the capacity in use, unless that
is the greatest there is. While the buffer does not grow, the pool stays empty. -/
theorem run_recycles {source : σ} {options : Options} {opened : Cursor σ}
    (hopen : Cursor.ofSource source options = .ok opened)
    (hadopts : Cursor.adopts source options = false) (ops : List Operation)
    (hprompt : Prompt { cursor := opened } ops) :
    ∃ (first last : Watched σ) (h : History σ),
      Watched.ofSource source options = .ok first ∧ first.cursor = opened ∧
      run { cursor := opened } ops = .ok h ∧
      ops.mapM Operation.watch first = .ok (h.answers, last) ∧ last.cursor = h.cursor ∧
      h.cursor.pool.occupancy.inFlight = 0 ∧
      (∀ g ∈ last.glances, g.before.Swapped g.after →
        g.after.pool.occupancy.inFlight = 0 ∧
        (¬g.before.capacity < g.after.capacity → g.after.pool.blocks = g.before.pool.blocks ∧
          ∃ events, g.after.journal = events ++ g.before.journal ∧ .reusedInPlace ∈ events)) ∧
      h.cursor.pool.blocks.size =
        last.glances.countP (fun g => g.before.capacity < g.after.capacity) ∧
      (h.cursor.capacity < maxCapacity →
        3 * h.cursor.pool.occupancy.retained ≤ 2 * h.cursor.capacity) ∧
      ((∀ g ∈ last.glances, ¬g.before.capacity < g.after.capacity) →
        h.cursor.pool.blocks = #[]) := by
  obtain ⟨first, stream, hfirst, rfl, hfaithful, hstart⟩ :=
    Watched.ofSource_recycling hopen hadopts
  obtain ⟨answers, last, h, hrun, hwatch, hanswers, hcursor, hlast⟩ :=
    run_recycling (h := { cursor := first.cursor }) rfl hfaithful hstart hprompt
  have htidy := hlast.tidy
  have hsize := hlast.size_blocks
  rw [hcursor] at htidy hsize
  refine ⟨first, last, h, hfirst, rfl, hrun, ?_, hcursor, htidy.inFlight_eq, ?_, hsize,
    htidy.retained_le, ?_⟩
  · rw [hwatch, hanswers]
    rfl
  · intro g hg hswapped
    have hrecycled := hlast.recycled g hg hswapped
    exact ⟨hrecycled.inFlight_eq, hrecycled.reused⟩
  · intro hkept
    rw [← Array.size_eq_zero_iff, hsize, List.countP_eq_zero]
    simpa using hkept

/-- Everything is released before the first exchange, which is done in place, and before the second,
which makes the buffer grow. -/
theorem run_recycles_released :
    ∃ (opened : Cursor Bytes) (last : Watched Bytes) (h : History Bytes),
      Cursor.ofSource ([1, 2, 3, 4, 5, 6, 7, 8] : Bytes) { bufferSize := 2, adopt := false } =
        .ok opened ∧
      Prompt { cursor := opened }
        [.move 2, .commit, .release, .peek 0, .move 2, .take, .release, .peek 5] ∧
      run { cursor := opened }
        [.move 2, .commit, .release, .peek 0, .move 2, .take, .release, .peek 5] = .ok h ∧
      exchanges h.cursor.journal = 2 ∧ h.cursor.capacity = 9 ∧
      h.cursor.pool.occupancy.inFlight = 0 ∧ h.cursor.pool.blocks.size = 1 ∧
      last.glances.countP (fun g => g.before.capacity < g.after.capacity) = 1 ∧
      3 * h.cursor.pool.occupancy.retained ≤ 2 * h.cursor.capacity := by
  have hopen : Cursor.ofSource ([1, 2, 3, 4, 5, 6, 7, 8] : Bytes)
    { bufferSize := 2, adopt := false } = .ok _ := rfl
  obtain ⟨first, last, h, -, -, hrun, -, -, hidle, -, hblocks, hretained, -⟩ :=
    run_recycles hopen rfl
      [.move 2, .commit, .release, .peek 0, .move 2, .take, .release, .peek 5]
      (by decide +kernel)
  cases hrun
  exact ⟨_, last, _, rfl, by decide +kernel, rfl, rfl, rfl, hidle, rfl, hblocks.symm, hretained (by decide)⟩

end History
end StreamCursor
