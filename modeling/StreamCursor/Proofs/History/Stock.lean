import StreamCursor.Proofs.Cursor.Stock
import StreamCursor.Proofs.Watch
import StreamCursor.Source.InMemory

/-! How many blocks a history leaves in the pool. Main statement: of the capacity in use there are
never more blocks than were in flight at some moment since the cursor came to that capacity, so that
a caller who reports what was consumed keeps the pool small. -/

namespace StreamCursor

open Cursor (Healthy Peeked)

variable {σ : Type} [Source σ]

namespace Cursor

theorem ofSource_stock {source : σ} {options : Options} {opened : Cursor σ}
    (hopen : ofSource source options = .ok opened) :
    opened.Healthy ∧ opened.stock ≤ opened.inFlight := by
  have hempty : ∀ capacity, Pool.stock {} capacity = 0 := by simp [Pool.stock, Pool.capacities]
  refine ofSource_keeps (P := fun c => c.Healthy ∧ c.stock ≤ c.inFlight) ?_ ?_ ?_ hopen
  · intro source buffer
    exact ⟨⟨_, _, faithful_adopting trivial⟩, Nat.le_of_eq (hempty _)⟩
  · intro source capacity hpos hmax
    exact ⟨⟨_, _, faithful_unread trivial hpos hmax⟩, Nat.le_of_eq (hempty _)⟩
  · rintro k c ⟨hc, hstock⟩
    obtain ⟨b, later, hpeek, hlater, hpeeked⟩ := hc.peek k
    refine ⟨b, later, hpeek, hlater, ?_⟩
    rcases hpeeked.stock_le hc with hle | ⟨-, hle, hflight⟩
    · exact hle
    · exact Nat.le_trans hle (Nat.le_trans hstock hflight)

end Cursor

namespace Operation

/-- An operation that looks ahead may exchange the buffer, several times even. -/
theorem perform_stock_of_looks {c : Cursor σ} (h : c.Healthy) {op : Operation}
    (hlooks : op.looks = true) :
    ∃ answer later, op.perform c = .ok (answer, later) ∧ later.Healthy ∧
      (later.stock ≤ later.inFlight ∨
        later.capacity = c.capacity ∧ later.stock ≤ c.stock) := by
  refine perform_meets_of_looks (P := fun d => d.Healthy ∧ (d.stock ≤ d.inFlight ∨
    d.capacity = c.capacity ∧ d.stock ≤ c.stock)) ?_ hlooks c ⟨h, .inr ⟨rfl, Nat.le_refl _⟩⟩
  rintro k d ⟨hd, hstock⟩
  obtain ⟨b, later, hpeek, hlater, hpeeked⟩ := hd.peek k
  refine ⟨b, later, hpeek, hlater, ?_⟩
  rcases hpeeked.stock_le hd with hle | ⟨hcapacity, hle, hflight⟩
  · exact .inl hle
  · rcases hstock with hstock | ⟨hsame, hstock⟩
    · exact .inl (Nat.le_trans hle (Nat.le_trans hstock hflight))
    · exact .inr ⟨hcapacity.trans hsame, Nat.le_trans hle hstock⟩

/-- The others leave the blocks as they are. -/
theorem perform_stock_of_not_looks {c : Cursor σ} (h : c.Healthy) {op : Operation}
    (hlooks : op.looks = false) :
    ∃ answer later, op.perform c = .ok (answer, later) ∧ later.Healthy ∧
      later.capacity = c.capacity ∧ later.stock = c.stock := by
  refine perform_meets_of_not_looks (P := fun d => d.Healthy ∧ d.capacity = c.capacity ∧
    d.stock = c.stock) ⟨?_, ?_⟩ hlooks c ⟨h, rfl, rfl⟩
  · rintro d window pending ⟨hd, hcapacity, hstock⟩ hbytes
    exact ⟨hd.reposition hbytes pending, hcapacity, hstock⟩
  · rintro d n ⟨hd, hcapacity, hstock⟩
    refine ⟨hd.consume n, hcapacity, ?_⟩
    rw [← hstock, Cursor.stock, Pool.stock, Cursor.consume, Pool.capacities_consume]
    rfl

end Operation

namespace History

/-- At some moment of the history, since which the capacity is the same, there were as many blocks
in flight as there are blocks of that capacity now. -/
def Peaked (opened : Cursor σ) (ops : List Operation) (h : History σ) : Prop :=
  ∃ earlier since past, ops = earlier ++ since ∧ run { cursor := opened } earlier = .ok past ∧
    h.cursor.stock ≤ past.cursor.inFlight ∧
    ∀ part rest, since = part ++ rest → ∃ between,
      run { cursor := opened } (earlier ++ part) = .ok between ∧
      between.cursor.capacity = h.cursor.capacity

variable {opened : Cursor σ} {ops : List Operation} {op : Operation} {h next : History σ}

theorem peaked_now (hrun : run { cursor := opened } ops = .ok h)
    (hstock : h.cursor.stock ≤ h.cursor.inFlight) : Peaked opened ops h := by
  refine ⟨ops, [], h, (List.append_nil _).symm, hrun, hstock, ?_⟩
  intro part rest hsplit
  obtain ⟨rfl, -⟩ := List.append_eq_nil_iff.1 hsplit.symm
  exact ⟨h, by rwa [List.append_nil], rfl⟩

theorem Peaked.concat (hpeaked : Peaked opened ops h)
    (hrun : run { cursor := opened } (ops ++ [op]) = .ok next)
    (hcapacity : next.cursor.capacity = h.cursor.capacity)
    (hstock : next.cursor.stock ≤ h.cursor.stock) : Peaked opened (ops ++ [op]) next := by
  obtain ⟨earlier, since, past, rfl, hpast, hpeak, hbetween⟩ := hpeaked
  refine ⟨earlier, since ++ [op], past, List.append_assoc .., hpast, Nat.le_trans hstock hpeak, ?_⟩
  intro part rest hsplit
  rcases List.eq_nil_or_concat rest with rfl | ⟨rest, last, rfl⟩
  · rw [List.append_nil] at hsplit
    rw [← hsplit, ← List.append_assoc]
    exact ⟨next, hrun, rfl⟩
  · rw [List.concat_eq_append, ← List.append_assoc] at hsplit
    obtain ⟨between, hpart, hsame⟩ := hbetween part rest (List.append_inj_left' hsplit rfl)
    exact ⟨between, hpart, hsame.trans hcapacity.symm⟩

theorem Peaked.step (hpeaked : Peaked opened ops h) (hrun : run { cursor := opened } ops = .ok h)
    (hhealthy : h.cursor.Healthy) (op : Operation) :
    ∃ next, h.step op = .ok next ∧ run { cursor := opened } (ops ++ [op]) = .ok next ∧
      next.cursor.Healthy ∧ Peaked opened (ops ++ [op]) next := by
  have hmore : ∀ {answer later}, op.perform h.cursor = .ok (answer, later) →
      run { cursor := opened } (ops ++ [op]) = .ok (h.extend op answer later) := by
    intro answer later hperform
    rw [run_append, hrun]
    show run h [op] = _
    rw [run_cons, step_of_perform hperform]
    rfl
  cases hlooks : op.looks with
  | false =>
    obtain ⟨answer, later, hperform, hlater, hcapacity, hstock⟩ :=
      Operation.perform_stock_of_not_looks hhealthy hlooks
    exact ⟨_, step_of_perform hperform, hmore hperform, hlater,
      hpeaked.concat (hmore hperform) hcapacity (Nat.le_of_eq hstock)⟩
  | true =>
    obtain ⟨answer, later, hperform, hlater, hstock⟩ :=
      Operation.perform_stock_of_looks hhealthy hlooks
    refine ⟨_, step_of_perform hperform, hmore hperform, hlater, ?_⟩
    rcases hstock with hstock | ⟨hcapacity, hstock⟩
    · exact peaked_now (hmore hperform) hstock
    · exact hpeaked.concat (hmore hperform) hcapacity hstock

theorem Peaked.run (hpeaked : Peaked opened ops h) (hrun : run { cursor := opened } ops = .ok h)
    (hhealthy : h.cursor.Healthy) (more : List Operation) :
    ∃ last, h.run more = .ok last ∧ last.cursor.Healthy ∧ Peaked opened (ops ++ more) last := by
  induction more generalizing h ops with
  | nil => exact ⟨h, rfl, hhealthy, by rwa [List.append_nil]⟩
  | cons op more ih =>
    obtain ⟨next, hstep, hnext, hlater, hpeak⟩ := hpeaked.step hrun hhealthy op
    obtain ⟨last, hlast, hlasting, hfinal⟩ := ih hpeak hnext hlater
    refine ⟨last, ?_, hlasting, ?_⟩
    · rw [run_cons, hstep]
      exact hlast
    · rwa [List.append_assoc] at hfinal

end History

/-- Peeks that keep the capacity have added blocks only where all of that capacity were in
flight. -/
structure Stocking (w : Watched σ) : Prop where
  healthy : w.cursor.Healthy
  active_of_added : ∀ g ∈ w.glances, g.after.capacity = g.before.capacity →
    g.before.pool.blocks.size < g.after.pool.blocks.size →
    ∀ block ∈ g.before.pool.blocks, block.buffer.capacity = g.before.capacity →
      block.active = true

namespace Stocking

theorem keptByPeeks : KeptByPeeks (Stocking : Watched σ → Prop) := by
  rintro k w ⟨hw, hglances⟩
  obtain ⟨b, later, hpeek, hlater, hpeeked⟩ := hw.peek k
  refine ⟨b, later, hpeek, hlater, ?_⟩
  intro g hg hsame hadded block hblock hcapacity
  simp only [List.mem_append, List.mem_singleton] at hg
  rcases hg with hg | rfl
  · exact hglances g hg hsame hadded block hblock hcapacity
  · obtain ⟨slot, hslot, rfl⟩ := Array.mem_iff_getElem.1 hblock
    have hactive := hpeeked.active_of_added hsame hadded hslot (by simpa [Pool.bufferAt, hslot])
    simpa [Pool.activeAt, hslot] using hactive

theorem lasting (glances : List (Glance σ)) :
    Lasting fun c => Stocking { cursor := c, glances } where
  reposition _ _ pending h hbytes := ⟨h.healthy.reposition hbytes pending, h.active_of_added⟩
  consume _ n h := ⟨h.healthy.consume n, h.active_of_added⟩

theorem start {c : Cursor σ} (h : c.Healthy) : Stocking { cursor := c } := by
  refine ⟨h, ?_⟩
  intro g hg
  cases hg

end Stocking

/-- Whatever the source does and whatever is reported, the pool has no more blocks of the capacity
in use than were in flight at some moment since the cursor came to that capacity, an exchange that
keeps the capacity adds a block only if all of that capacity are in flight, and no block is larger.
-/
theorem History.run_stocks_in_flight {source : σ} {options : Options} {opened : Cursor σ}
    (hopen : Cursor.ofSource source options = .ok opened) (ops : List Operation) :
    ∃ (first last : Watched σ) (h : History σ),
      Watched.ofSource source options = .ok first ∧ first.cursor = opened ∧
      run { cursor := opened } ops = .ok h ∧
      ops.mapM Operation.watch first = .ok (h.answers, last) ∧ last.cursor = h.cursor ∧
      (∃ earlier since past, ops = earlier ++ since ∧
        run { cursor := opened } earlier = .ok past ∧
        h.cursor.pool.stock h.cursor.capacity ≤ past.cursor.pool.occupancy.inFlight ∧
        ∀ part rest, since = part ++ rest → ∃ between,
          run { cursor := opened } (earlier ++ part) = .ok between ∧
          between.cursor.capacity = h.cursor.capacity) ∧
      (∀ g ∈ last.glances, g.after.capacity = g.before.capacity →
        g.before.pool.blocks.size < g.after.pool.blocks.size →
        ∀ block ∈ g.before.pool.blocks, block.buffer.capacity = g.before.capacity →
          block.active = true) ∧
      ∀ block ∈ h.cursor.pool.blocks, block.buffer.capacity ≤ h.cursor.capacity := by
  obtain ⟨hhealthy, hstock⟩ := Cursor.ofSource_stock hopen
  have hstart : Peaked opened [] { cursor := opened } := peaked_now rfl hstock
  obtain ⟨h, hrun, hlater, hpeaked⟩ := hstart.run rfl hhealthy ops
  obtain ⟨first, hfirst, rfl, hfront⟩ := Watched.ofSource_accompanies Stocking.keptByPeeks
    (fun buffer rest _ _ => .start ⟨_, _, Cursor.faithful_adopting trivial⟩)
    (fun rest capacity _ hpos hmax => .start ⟨_, _, Cursor.faithful_unread trivial hpos hmax⟩) hopen
  obtain ⟨answers, last, h', hrun', hwatch, hanswers, hcursor, hstocking⟩ :=
    run_watched Stocking.keptByPeeks Stocking.lasting ops (h := { cursor := first.cursor })
      ⟨rfl, hfront⟩
  cases hrun.symm.trans hrun'
  refine ⟨first, last, h, hfirst, rfl, hrun, ?_, hcursor, hpeaked, hstocking.active_of_added, ?_⟩
  · rw [hwatch, hanswers]
    rfl
  · intro block hblock
    obtain ⟨slot, hslot, rfl⟩ := Array.mem_iff_getElem.1 hblock
    simpa [Pool.bufferAt, hslot] using hlater.sound.blocks_le slot

/-- Two buffers retired one after the other take one block, as the first one was consumed before. -/
theorem History.run_stocks_in_flight_released :
    ∃ (opened : Cursor Bytes) (h past : History Bytes) (earlier since : List Operation),
      Cursor.ofSource ([1, 2, 3, 4, 5, 6, 7, 8] : Bytes) { bufferSize := 2, adopt := false } =
        .ok opened ∧
      run { cursor := opened } [.move 2, .commit, .peek 1, .release, .move 2, .take, .peek 0] =
        .ok h ∧
      [.move 2, .commit, .peek 1, .release, .move 2, .take, .peek 0] = earlier ++ since ∧
      run { cursor := opened } earlier = .ok past ∧
      h.cursor.capacity = 2 ∧ h.cursor.pool.stock 2 = 1 ∧
      1 ≤ past.cursor.pool.occupancy.inFlight := by
  have hopen : Cursor.ofSource ([1, 2, 3, 4, 5, 6, 7, 8] : Bytes)
    { bufferSize := 2, adopt := false } = .ok _ := rfl
  obtain ⟨first, last, h, -, -, hrun, -, -, ⟨earlier, since, past, hsplit, hpast, hstock, -⟩, -⟩ :=
    run_stocks_in_flight hopen [.move 2, .commit, .peek 1, .release, .move 2, .take, .peek 0]
  cases hrun
  exact ⟨_, _, past, earlier, since, hopen, rfl, hsplit, hpast, rfl, rfl, hstock⟩

end StreamCursor
