import StreamCursor.Proofs.Cursor.Ending
import StreamCursor.Proofs.Cursor.Peek
import StreamCursor.Proofs.Source.Recorder

/-! Scans that consume a stream, whatever its source does. Main statements: a scan that reads on,
moves within its token, commits and releases never goes back and loses no account of what was
committed; and a walk goes over delivered bytes that satisfy its condition, and then knows what is
behind them. -/

namespace StreamCursor

namespace Cursor

variable {σ : Type}

/-- The cursor can tell the byte `k` positions after it, or that it cannot be told, without its
source. -/
def Answers (c : Cursor σ) (k : Nat) : Prop :=
  k < c.window.ahead.size ∨ maxCapacity ≤ c.window.position + k ∨ c.isExhausted

theorem Answers.commit {c : Cursor σ} {k : Nat} (h : c.Answers k) : c.commit.Answers k := by
  have hposition : c.commit.window.position = c.window.position :=
    (congrArg (· + 0) (Window.start_commit c.window)).trans (Nat.add_zero _)
  rw [Answers, hposition]
  exact h

namespace Peeked

variable [Source σ] {c later : Cursor σ} {k : Nat}

theorem answers (h : Peeked k c later) : later.Answers k := by
  cases h with
  | unchanged h => exact h
  | toppedUp _ _ _ _ hdone => exact hdone.elim (.inr ∘ .inr) .inl
  | exchanged _ _ _ _ _ _ hdone => exact hdone.elim (.inr ∘ .inr) .inl

/-- Nothing is done for an answer that is known. -/
theorem eq_of_answers (h : Peeked k c later) (hsound : c.Sound) (hanswers : c.Answers k) :
    later = c := by
  have hgoing : c.ended = none → ¬c.isExhausted := by
    intro hopen
    simp [isExhausted, hopen]
  cases h with
  | unchanged => rfl
  | toppedUp hopen hmissing hfits =>
    have hcapacity := hsound.capacity_le hopen
    rcases hanswers with hsize | hmax | hended
    · omega
    · omega
    · exact absurd hended (hgoing hopen)
  | exchanged hopen hmissing _ hreach =>
    rcases hanswers with hsize | hmax | hended
    · omega
    · omega
    · exact absurd hended (hgoing hopen)

end Peeked

variable [Source σ] {c d later : Cursor (Recorder σ)} {k n : Nat}

/-- Every byte that was committed was given back, or is still to be reported. -/
def Balanced (c : Cursor (Recorder σ)) : Prop :=
  ∃ freed, c.Faithful (Recorder.feed σ) c.source.stream freed ∧ freed + c.pending = c.tokenOffset

/-- The cursor has come to `later` without losing account, and without going back behind the start
of its token. -/
structure Onward (c later : Cursor (Recorder σ)) : Prop where
  balanced : later.Balanced
  isPrefix : c.source.stream <+: later.source.stream
  tokenOffset_le : c.tokenOffset ≤ later.tokenOffset

theorem Onward.trans (h : c.Onward d) (h' : d.Onward later) : c.Onward later :=
  ⟨h'.balanced, h.isPrefix.trans h'.isPrefix, Nat.le_trans h.tokenOffset_le h'.tokenOffset_le⟩

/-- What follows an offset in the stream still does when more has arrived. -/
theorem Onward.isPrefix_drop (h : c.Onward later) (n : Nat) :
    c.source.stream.drop n <+: later.source.stream.drop n := by
  obtain ⟨more, hmore⟩ := h.isPrefix
  rw [← hmore, List.drop_append]
  exact List.prefix_append ..

namespace Balanced

theorem start {stream : Bytes} (h : c.Faithful (Recorder.feed σ) stream 0) (hfront : c.AtFront) :
    c.Balanced := by
  have hstream : c.source.stream = stream := h.fed
  exact ⟨0, by rwa [hstream], by rw [hfront.pending, hfront.tokenOffset]⟩

theorem onward_refl (h : c.Balanced) : c.Onward c := ⟨h, List.prefix_rfl, Nat.le_refl _⟩

theorem peek (h : c.Balanced) {b : UInt8} (hpeek : c.peek k = .ok (b, later)) :
    c.Onward later ∧ c.SamePlace later ∧ later.Answers k ∧
      (b ≠ 0 → later.source.stream[c.offset + k]? = some b) := by
  obtain ⟨freed, hc, hfreed⟩ := h
  have hpeeked := hc.toSound.peeked_of_peek hpeek
  obtain ⟨later', part, hpeek', hlater, -⟩ := hc.peek k
  cases hpeek.symm.trans hpeek'
  have hstream : later.source.stream = c.source.stream ++ part := hlater.faithful.fed
  have hplace := hlater.samePlace
  refine ⟨⟨⟨freed, ?_, ?_⟩, ?_, ?_⟩, hplace, hpeeked.answers, fun hne => ?_⟩
  · rw [hstream]
    exact hlater.faithful
  · rw [hplace.pending, hplace.tokenOffset, hfreed]
  · rw [hstream]
    exact List.prefix_append ..
  · exact Nat.le_of_eq hplace.tokenOffset.symm
  · rw [hstream]
    cases hbyte : (c.source.stream ++ part)[c.offset + k]? with
    | none =>
      rw [hbyte] at hne
      exact absurd rfl hne
    | some b => rfl

theorem move (h : c.Balanced) (n : Int) : c.Onward (c.move n) := by
  obtain ⟨freed, hc, hfreed⟩ := h
  have htoken := Faithful.tokenOffset_move c n
  exact ⟨⟨freed, hc.move n, htoken ▸ hfreed⟩, List.prefix_rfl, Nat.le_of_eq htoken.symm⟩

theorem offset_move_one (h : c.Balanced) (hlt : c.offset < c.source.stream.length) :
    (c.move 1).offset = c.offset + 1 := by
  obtain ⟨freed, hc, -⟩ := h
  have hmove := hc.offset_move 1
  have htoken := Faithful.tokenOffset_le c
  omega

theorem commit (h : c.Balanced) : c.Onward c.commit := by
  obtain ⟨freed, hc, hfreed⟩ := h
  have hoffset := offset_eq c
  refine ⟨⟨freed, hc.reposition (Window.bytes_commit _) _, ?_⟩, List.prefix_rfl, ?_⟩
  · rw [Faithful.tokenOffset_commit, hoffset, ← hfreed]
    exact (Nat.add_assoc ..).symm
  · rw [Faithful.tokenOffset_commit]
    exact Faithful.tokenOffset_le c

theorem release (h : c.Balanced) : c.Onward c.release := by
  obtain ⟨freed, hc, hfreed⟩ := h
  exact ⟨⟨freed + c.pending, (hc.reposition rfl 0).consume c.pending, hfreed⟩, List.prefix_rfl,
    Nat.le_refl _⟩

end Balanced

namespace Onward

theorem moved (h : c.Onward d) (n : Int) : c.Onward (d.move n) := h.trans (h.balanced.move n)

theorem committed (h : c.Onward d) : c.Onward d.commit := h.trans h.balanced.commit

theorem released (h : c.Onward d) : c.Onward d.release := h.trans h.balanced.release

end Onward

/-- While what is pending is in the active buffer still, the pool has nothing left to be
consumed. -/
theorem Balanced.drained (h : c.Balanced) (hle : c.base + c.pending ≤ c.tokenOffset) :
    c.pool.occupancy.inFlight = 0 ∧ c.pool.occupancy.unconsumed = 0 := by
  obtain ⟨freed, hc, hfreed⟩ := h
  obtain ⟨portions, hportions, haccounts⟩ := hc.accounts
  have hlength : portions.flatten.length ≤ freed := by
    rw [hportions, List.length_take]
    omega
  obtain ⟨hchain, -⟩ := haccounts.idle hlength
  refine ⟨by rw [Pool.occupancy, hchain]; rfl, ?_⟩
  rw [haccounts.unconsumed_eq, Nat.sub_eq_zero_of_le hlength]

/-- What a walk over `bytes` makes of a cursor. -/
structure Walked (go : UInt8 → Bool) (c : Cursor (Recorder σ)) (bytes : Bytes)
    (later : Cursor (Recorder σ)) : Prop where
  onward : c.Onward later
  all : ∀ b ∈ bytes, go b
  isPrefix : bytes <+: later.source.stream.drop c.offset
  tokenOffset_eq : later.tokenOffset = c.tokenOffset
  pending_eq : later.pending = c.pending
  offset_eq : later.offset = c.offset + bytes.length
  answers : later.Answers 0

namespace Walked

variable {go : UInt8 → Bool} {b : UInt8} {bytes : Bytes}

theorem nil (h : c.Balanced) (hpeek : c.peek 0 = .ok (b, later)) : Walked go c [] later := by
  obtain ⟨honward, hplace, hanswers, -⟩ := h.peek hpeek
  exact ⟨honward, List.forall_mem_nil _, List.nil_prefix, hplace.tokenOffset, hplace.pending,
    hplace.offset, hanswers⟩

/-- A walk that goes on behind a byte that was delivered. -/
theorem cons (h : c.Onward d) (hplace : c.SamePlace d) (hb : d.source.stream[c.offset]? = some b)
    (hgo : go b) (hwalked : Walked go (d.move 1) bytes later) :
    Walked go c (b :: bytes) later := by
  rw [← hplace.offset] at hb
  obtain ⟨hlt, -⟩ := List.getElem?_eq_some_iff.1 hb
  have hmoved := h.balanced.offset_move_one hlt
  have honward := hwalked.onward
  have hoffset := hwalked.offset_eq
  have hbyte : later.source.stream[c.offset]? = some b := by
    obtain ⟨more, hmore⟩ := honward.isPrefix
    rw [← hmore, ← hplace.offset]
    exact (List.getElem?_append_left hlt).trans hb
  rw [hmoved, hplace.offset] at hoffset
  refine ⟨(h.moved 1).trans honward, List.forall_mem_cons.2 ⟨hgo, hwalked.all⟩,
    ?_, ?_, hwalked.pending_eq.trans hplace.pending, ?_, hwalked.answers⟩
  · have hrest := hwalked.isPrefix
    obtain ⟨hlt', hget⟩ := List.getElem?_eq_some_iff.1 hbyte
    rw [hmoved, hplace.offset] at hrest
    rw [List.drop_eq_getElem_cons hlt', hget]
    exact List.cons_prefix_cons.2 ⟨rfl, hrest⟩
  · rw [hwalked.tokenOffset_eq, Faithful.tokenOffset_move, hplace.tokenOffset]
  · rw [hoffset, List.length_cons]
    omega

end Walked

end Cursor

namespace Scan

variable {σ ε α β : Type}

theorem bind_eq_ok {s : StateT (Cursor σ) (Except ε) α} {f : α → StateT (Cursor σ) (Except ε) β}
    {c later : Cursor σ} {b : β} (h : (s >>= f) c = .ok (b, later)) :
    ∃ a next, s c = .ok (a, next) ∧ f a next = .ok (b, later) := by
  change (s c >>= fun p => f p.1 p.2) = _ at h
  cases hs : s c with
  | error e =>
    rw [hs] at h
    cases h
  | ok p =>
    rw [hs] at h
    exact ⟨p.1, p.2, rfl, h⟩

section Walk

variable [Source σ] {go : UInt8 → Bool} {limit n : Nat}

/-- The two ways in which a walk goes on from the byte that it looks at. -/
theorem walk_succ_eq_ok {c later : Cursor σ} (h : walk go (limit + 1) c = .ok (n, later)) :
    ∃ b next, c.peek 0 = .ok (b, next) ∧
      ((n = 0 ∧ later = next ∧ (next.visibleEnd.isSome ∨ go b = false)) ∨
        (go b = true ∧ ∃ m, n = m + 1 ∧ walk go limit (next.move 1) = .ok (m, later))) := by
  obtain ⟨b, next, hpeek, hrest⟩ := bind_eq_ok h
  refine ⟨b, next, hpeek, ?_⟩
  change (if next.visibleEnd.isSome || !go b then return 0 else do
    Scan.move 1
    return (← walk go limit) + 1 : Scan σ Nat) next = _ at hrest
  split at hrest
  next hstop =>
    cases hrest
    exact .inl ⟨rfl, rfl, by simpa using hstop⟩
  next hgoes =>
    obtain ⟨_, moved, hmove, hrest⟩ := bind_eq_ok hrest
    cases hmove
    obtain ⟨m, last, hwalk, hcount⟩ := bind_eq_ok hrest
    cases hcount
    exact .inr ⟨by simp_all, m, rfl, hwalk⟩

open Cursor (Walked Balanced)

variable {c later : Cursor (Recorder σ)} {b : UInt8}

/-- A zero byte stops the walk, so that every byte that it goes over was delivered. -/
theorem walked_of_walk (hzero : go 0 = false) (h : c.Balanced)
    (hrun : walk go limit c = .ok (n, later)) :
    ∃ bytes, bytes.length = n ∧ Walked go c bytes later := by
  induction limit generalizing c n with
  | zero =>
    obtain ⟨b, next, hpeek, hcount⟩ := bind_eq_ok hrun
    cases hcount
    exact ⟨[], rfl, .nil h hpeek⟩
  | succ limit ih =>
    obtain ⟨b, next, hpeek, hcases⟩ := walk_succ_eq_ok hrun
    rcases hcases with ⟨rfl, rfl, -⟩ | ⟨hgo, m, rfl, hwalk⟩
    · exact ⟨[], rfl, .nil h hpeek⟩
    · obtain ⟨honward, hplace, -, hbyte⟩ := h.peek hpeek
      have hne : b ≠ 0 := by
        rintro rfl
        rw [hzero] at hgo
        cases hgo
      obtain ⟨bytes, hlength, hwalked⟩ := ih (honward.moved 1).balanced hwalk
      exact ⟨b :: bytes, congrArg (· + 1) hlength, .cons honward hplace (hbyte hne) hgo hwalked⟩

/-- From a byte that satisfies the condition, the walk goes on. -/
theorem walk_pos (h : c.Balanced) (hb : c.source.stream[c.offset]? = some b) (hgo : go b)
    (hrun : walk go (limit + 1) c = .ok (n, later)) : 0 < n := by
  obtain ⟨freed, hc, -⟩ := h
  obtain ⟨hlt, -⟩ := List.getElem?_eq_some_iff.1 hb
  obtain ⟨b', next, hpeek, hcases⟩ := walk_succ_eq_ok hrun
  cases (hc.peek_of_getElem? (k := 0) hb).symm.trans hpeek
  rcases hcases with ⟨-, -, hend | hstop⟩ | ⟨-, m, rfl, -⟩
  · rw [hc.visibleEnd_eq_none hlt] at hend
    cases hend
  · rw [hgo] at hstop
    cases hstop
  · exact Nat.succ_pos m

end Walk

end Scan
end StreamCursor
