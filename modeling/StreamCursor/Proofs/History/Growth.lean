import StreamCursor.Proofs.Cursor.Growth
import StreamCursor.Proofs.History.Ending
import StreamCursor.Proofs.Watch
import StreamCursor.Source.InMemory

/-! How the capacity of a buffer changes. Main statement: it changes at exchanges only, these are
made by peeks that look for a missing byte behind the buffer, and the capacity after each follows
from the one before it and the distance looked ahead. -/

namespace StreamCursor

open Cursor (Peeked)

variable {σ : Type}

/-- How far from the start of the token was looked. -/
def Glance.reach (g : Glance σ) : Nat := g.before.window.mark + g.distance

/-- What changes only where a buffer is exchanged or read into. -/
def Cursor.account (c : Cursor σ) : Nat × List Event := (c.capacity, c.journal)

variable [Source σ]

/-- Each peek found buffer and journal as the one before it had left them, and the first one found a
buffer of the given capacity. The buffer keeps that until a peek looks past half of it. -/
structure Growing (capacity : Nat) (w : Watched σ) : Prop where
  sound : w.cursor.Sound
  peeked : ∀ g ∈ w.glances, g.before.Sound ∧ Peeked g.distance g.before g.after
  linked : (capacity, []) :: w.glances.map (·.after.account) =
    w.glances.map (·.before.account) ++ [w.cursor.account]
  kept : (∀ g ∈ w.glances, 2 * g.reach ≤ g.before.capacity) → w.cursor.capacity = capacity

namespace Growing

variable {capacity : Nat}

theorem keptByPeeks : KeptByPeeks (Growing (σ := σ) capacity) := by
  intro k w hw
  obtain ⟨b, later, hpeek, hpeeked⟩ := hw.sound.peeked k
  refine ⟨b, later, hpeek, hpeeked.sound hw.sound, ?_, ?_, ?_⟩
  · simp only [List.forall_mem_append, List.forall_mem_singleton]
    exact ⟨hw.peeked, hw.sound, hpeeked⟩
  · have hlinked := congrArg (· ++ [later.account]) hw.linked
    simpa using hlinked
  · simp only [List.forall_mem_append, List.forall_mem_singleton]
    rintro ⟨hbefore, hhalf⟩
    rw [← hw.kept hbefore]
    exact hpeeked.capacity_eq hw.sound hhalf

theorem lasting (glances : List (Glance σ)) :
    Lasting fun c => Growing capacity { cursor := c, glances } where
  reposition _ _ pending h hbytes :=
    ⟨h.sound.reposition hbytes pending, h.peeked, h.linked, h.kept⟩
  consume _ n h := ⟨h.sound.consume n, h.peeked, h.linked, h.kept⟩

theorem start (source : σ) (hpos : 0 < capacity) (hmax : capacity ≤ maxCapacity) :
    Growing capacity { cursor := .unread source capacity } := by
  have hfaithful : (Cursor.unread source capacity).Faithful (.any σ) [] 0 :=
    Cursor.faithful_unread trivial hpos hmax
  exact ⟨hfaithful.toSound, List.forall_mem_nil _, rfl, fun _ => rfl⟩

end Growing

namespace Cursor

omit [Source σ] in
theorem lasting_le_capacity (bound : Nat) :
    Lasting fun c : Cursor σ => c.Sound ∧ bound ≤ c.capacity where
  reposition _ _ pending h hbytes := ⟨h.1.reposition hbytes pending, h.2⟩
  consume _ n h := ⟨h.1.consume n, h.2⟩

theorem peek_le_capacity (bound k : Nat) :
    Scan.Meets (fun c : Cursor σ => c.Sound ∧ bound ≤ c.capacity) (Scan.peek k)
      fun _ c => c.Sound ∧ bound ≤ c.capacity := by
  rintro c ⟨hsound, hle⟩
  obtain ⟨b, later, hpeek, hpeeked⟩ := hsound.peeked k
  exact ⟨b, later, hpeek, hpeeked.sound hsound, Nat.le_trans hle (hpeeked.le_capacity hsound)⟩

end Cursor

theorem Watched.ofSource_growing {source : σ} {options : Options} {opened : Cursor σ}
    (hopen : Cursor.ofSource source options = .ok opened)
    (hadopts : Cursor.adopts source options = false) :
    ∃ first, ofSource source options = .ok first ∧ first.cursor = opened ∧
      Growing (max options.bufferSize 1) first ∧ opened.capacity = max options.bufferSize 1 := by
  obtain ⟨hmax, rest, b, hrest, hpeek⟩ := Cursor.opening_of_not_adopts hopen hadopts
  have hfront := Growing.start rest (by omega) hmax
  obtain ⟨b', later, hpeeked, hfirst⟩ := Growing.keptByPeeks 0 _ hfront
  cases hpeek.symm.trans hpeeked
  exact ⟨_, ofSource_of_read hrest hmax hpeek, rfl, hfirst,
    hfirst.kept (List.forall_mem_singleton.2 (Nat.zero_le _))⟩

/-- A cursor that adopts nothing starts with a buffer of the size asked for. Whatever the source
does and whichever blocks the pool has, a peek exchanges the buffer just where the byte is missing,
the stream has not ended and the byte would lie behind the buffer. It does so once. The next buffer
is as large if it is at least twice the distance looked from the start of the token, and otherwise
it is larger by its own capacity and that distance, up to the greatest there is. Between the peeks
neither capacity nor journal changes. -/
theorem History.run_grows_exactly {source : σ} {options : Options} {opened : Cursor σ}
    (hopen : Cursor.ofSource source options = .ok opened)
    (hadopts : Cursor.adopts source options = false) (ops : List Operation) :
    ∃ (first last : Watched σ) (h : History σ),
      Watched.ofSource source options = .ok first ∧ first.cursor = opened ∧
      run { cursor := opened } ops = .ok h ∧
      ops.mapM Operation.watch first = .ok (h.answers, last) ∧ last.cursor = h.cursor ∧
      opened.capacity = max options.bufferSize 1 ∧
      (max options.bufferSize 1, []) ::
          last.glances.map (fun g => (g.after.capacity, g.after.journal)) =
        last.glances.map (fun g => (g.before.capacity, g.before.journal)) ++
          [(h.cursor.capacity, h.cursor.journal)] ∧
      (∀ g ∈ last.glances,
        (g.before.Outgrows g.distance →
          (∃ events, g.after.journal = events ++ g.before.journal ∧ exchanges events = 1) ∧
          g.reach < g.after.capacity ∧
          (2 * g.reach ≤ g.before.capacity → g.after.capacity = g.before.capacity) ∧
          (g.before.capacity < 2 * g.reach →
            g.after.capacity = min (2 * g.before.capacity + g.reach) maxCapacity ∧
            g.before.capacity < g.after.capacity)) ∧
        (¬g.before.Outgrows g.distance →
          (∃ events, g.after.journal = events ++ g.before.journal ∧ exchanges events = 0) ∧
          g.after.capacity = g.before.capacity)) ∧
      (∀ more, ∃ later, h.run more = .ok later ∧ h.cursor.capacity ≤ later.cursor.capacity) ∧
      ((∀ g ∈ last.glances, 2 * g.reach ≤ g.before.capacity) →
        h.cursor.capacity = max options.bufferSize 1) := by
  obtain ⟨first, hfirst, rfl, hgrowing, hcapacity⟩ := Watched.ofSource_growing hopen hadopts
  obtain ⟨answers, last, h, hrun, hwatch, hanswers, hcursor, hlast⟩ :=
    run_watched Growing.keptByPeeks Growing.lasting ops (h := { cursor := first.cursor })
      ⟨rfl, hgrowing⟩
  have hlinked := hlast.linked
  have hkept := hlast.kept
  have hsound := hlast.sound
  rw [hcursor] at hlinked hkept hsound
  refine ⟨first, last, h, hfirst, rfl, hrun, ?_, hcursor, hcapacity, hlinked, ?_, ?_, hkept⟩
  · rw [hwatch, hanswers]
    rfl
  · intro g hg
    obtain ⟨hbefore, hpeeked⟩ := hlast.peeked g hg
    exact ⟨hpeeked.growth hbefore, hpeeked.no_growth⟩
  · intro more
    obtain ⟨later, hmore, -, hle⟩ := run_keeps (Cursor.lasting_le_capacity h.cursor.capacity)
      (Cursor.peek_le_capacity h.cursor.capacity) more ⟨hsound, Nat.le_refl _⟩
    exact ⟨later, hmore, hle⟩

/-- The second peek exchanges the buffer for one as large, and the third, five bytes from the start
of the token, for one of `2 * 2 + 5` bytes. -/
theorem History.run_grows_exactly_far :
    ∃ (opened : Cursor Bytes) (last : Watched Bytes) (h : History Bytes) (g : Glance Bytes),
      Cursor.ofSource ([1, 2, 3, 4, 5, 6, 7, 8] : Bytes) { bufferSize := 2, adopt := false } =
        .ok opened ∧
      run { cursor := opened } [.move 2, .commit, .peek 0, .peek 5] = .ok h ∧
      opened.capacity = 2 ∧ h.cursor.capacity = 9 ∧ exchanges h.cursor.journal = 2 ∧
      last.glances.map (fun g => (g.before.capacity, g.reach, g.after.capacity)) =
        [(2, 0, 2), (2, 0, 2), (2, 5, 9)] ∧
      g ∈ last.glances ∧ g.before.Outgrows g.distance ∧
      g.after.capacity = min (2 * 2 + 5) maxCapacity := by
  have hopen : Cursor.ofSource ([1, 2, 3, 4, 5, 6, 7, 8] : Bytes)
    { bufferSize := 2, adopt := false } = .ok _ := rfl
  obtain ⟨first, last, h, hfirst, -, hrun, hwatch, -, hcapacity, -, hlaw, -⟩ :=
    run_grows_exactly hopen rfl [.move 2, .commit, .peek 0, .peek 5]
  cases hrun
  have hglances : ((Watched.ofSource ([1, 2, 3, 4, 5, 6, 7, 8] : Bytes)
      { bufferSize := 2, adopt := false }).bind fun first =>
        ([Operation.move 2, .commit, .peek 0, .peek 5].mapM Operation.watch first).map fun p =>
          p.2.glances.map fun g => (g.before.capacity, g.reach, g.after.capacity)).toOption =
      some [(2, 0, 2), (2, 0, 2), (2, 5, 9)] := by decide +kernel
  simp only [hfirst, hwatch, Except.bind, Except.map, Except.toOption, Option.some.injEq]
    at hglances
  have hfar : (2, 5, 9) ∈ last.glances.map fun g =>
      (g.before.capacity, g.reach, g.after.capacity) := by
    rw [hglances]
    decide
  obtain ⟨g, hg, hplace⟩ := List.mem_map.1 hfar
  simp only [Prod.mk.injEq] at hplace
  obtain ⟨hbefore, hreach, hafter⟩ := hplace
  obtain ⟨hgrows, hstays⟩ := hlaw g hg
  have houtgrown : g.before.Outgrows g.distance := by
    by_cases h : g.before.Outgrows g.distance
    · exact h
    · have hsame := (hstays h).2
      omega
  have hnext := ((hgrows houtgrown).2.2.2 (by omega)).1
  rw [hbefore, hreach] at hnext
  exact ⟨_, last, _, g, rfl, rfl, hcapacity, rfl, rfl, hglances, hg, houtgrown, hnext⟩

end StreamCursor
