import StreamCursor.Proofs.InStep
import StreamCursor.Proofs.Scan

/-! Cursors that differ at most in their pools and in what they still have to report. Main
statement: peeking shows the same through both and asks the source for the same, since neither the
capacity nor the content of the next buffer depends on where its storage comes from. -/

namespace StreamCursor
namespace Cursor

variable {σ : Type} [Source σ] {c d c' d' : Cursor σ} {k reach : Nat}

omit [Source σ] in
/-- The cursor without its pool, and without the reports and the journal that go with it. -/
def bare (c : Cursor σ) : Cursor σ := { c with pool := {}, pending := 0, journal := [] }

/-- The cursor is in order, whatever its source may have delivered. -/
def Healthy (c : Cursor σ) : Prop := ∃ stream freed, c.Faithful (.any σ) stream freed

/-- Both cursors are in order, and all that their pools do not determine is the same. -/
structure Alike (c d : Cursor σ) : Prop where
  left : c.Healthy
  right : d.Healthy
  bare_eq : c.bare = d.bare

omit [Source σ] in
theorem bare_eq_iff : c.bare = d.bare ↔
    c.source = d.source ∧ c.ended = d.ended ∧ c.window = d.window ∧ c.spare = d.spare ∧
      c.capacity = d.capacity ∧ c.base = d.base := by
  simp [bare]

omit [Source σ] in
theorem bare_carriedOver (c : Cursor σ) (reach : Nat) (pool : Pool) (events : List Event) :
    (c.carriedOver reach pool events).bare = (c.bare.carriedOver reach {} []).bare := rfl

/-- A read takes no notice of the pool. -/
theorem bare_read (c : Cursor σ) : c.read.bare = c.bare.read.bare := by
  unfold read bare
  dsimp only
  rcases Source.read c.source c.spare with ⟨⟨written, cause | count⟩, source⟩
  · rfl
  · dsimp only
    split <;> rfl

theorem read_bare_eq (h : c.bare = d.bare) : c.read.bare = d.read.bare := by
  rw [bare_read c, bare_read d, h]

omit [Source σ] in
/-- An exchange takes no notice of the pool either, wherever the pool finds the storage. -/
theorem Sound.exchange_bare_eq (hc : c.Sound) (hd : d.Sound) (h : c.bare = d.bare)
    (hopen : c.ended = none) (hreach : reach < maxCapacity) :
    ∃ c' d', c.exchange reach = .ok c' ∧ d.exchange reach = .ok d' ∧ c'.bare = d'.bare := by
  have hopen' : d.ended = none := (bare_eq_iff.1 h).2.1.symm.trans hopen
  obtain ⟨events, pool, -, hleft⟩ := hc.exchange_eq hopen hreach
  obtain ⟨events', pool', -, hright⟩ := hd.exchange_eq hopen' hreach
  refine ⟨_, _, hleft, hright, ?_⟩
  rw [bare_carriedOver c, bare_carriedOver d, h]

theorem Sound.refill_bare_eq (hc : c.Sound) (hd : d.Sound) (h : c.bare = d.bare)
    (hopen : c.ended = none) (hreach : c.window.position + k < maxCapacity) :
    ∃ c' d', c.refill k = .ok c' ∧ d.refill k = .ok d' ∧ c'.bare = d'.bare := by
  obtain ⟨-, -, hwindow, -, hcapacity, -⟩ := bare_eq_iff.1 h
  by_cases hfits : c.window.position + k < c.capacity
  · have hfits' : d.window.position + k < d.capacity := by rwa [← hwindow, ← hcapacity]
    exact ⟨_, _, if_pos hfits, if_pos hfits', read_bare_eq h⟩
  · have hfits' : ¬d.window.position + k < d.capacity := by rwa [← hwindow, ← hcapacity]
    have hmark : c.window.mark + k < maxCapacity := by
      simp only [Window.position] at hreach
      omega
    obtain ⟨c', d', hleft, hright, hbare⟩ := hc.exchange_bare_eq hd h hopen hmark
    refine ⟨c'.read, d'.read, ?_, ?_, read_bare_eq hbare⟩
    · rw [refill, if_neg hfits, hleft]
      rfl
    · rw [refill, if_neg hfits', ← hwindow, hright]
      rfl

namespace Healthy

theorem sound (h : c.Healthy) : c.Sound := by
  obtain ⟨stream, freed, hfaithful⟩ := h
  exact hfaithful.toSound

theorem accounts (h : c.Healthy) : ∃ portions freed, c.pool.Accounts portions freed := by
  obtain ⟨stream, freed, hfaithful⟩ := h
  obtain ⟨portions, -, haccounts⟩ := hfaithful.accounts
  exact ⟨portions, freed, haccounts⟩

theorem refill (h : c.Healthy) (hopen : c.ended = none) (hmissing : c.window.ahead.size ≤ k)
    (hreach : c.window.position + k < maxCapacity) (hrefill : c.refill k = .ok c') :
    c'.Healthy ∧ c'.window.position ≤ c.window.position := by
  obtain ⟨stream, freed, hfaithful⟩ := h
  obtain ⟨later, part, hok, hlater, -⟩ := hfaithful.refill hopen hmissing hreach
  cases hrefill.symm.trans hok
  exact ⟨⟨_, _, hlater.faithful⟩, hlater.samePlace.position_le⟩

theorem reposition (h : c.Healthy) {window : Window} (hbytes : window.bytes = c.window.bytes)
    (pending : Nat) : Healthy { c with window, pending } := by
  obtain ⟨stream, freed, hfaithful⟩ := h
  exact ⟨stream, freed, hfaithful.reposition hbytes pending⟩

theorem consume (h : c.Healthy) (n : Nat) : (c.consume n).Healthy := by
  obtain ⟨stream, freed, hfaithful⟩ := h
  exact ⟨stream, freed + n, hfaithful.consume n⟩

end Healthy

namespace Alike

theorem symm (h : c.Alike d) : d.Alike c := ⟨h.right, h.left, h.bare_eq.symm⟩

theorem trans {e : Cursor σ} (h : c.Alike d) (h' : d.Alike e) : c.Alike e :=
  ⟨h.left, h'.right, h.bare_eq.trans h'.bare_eq⟩

/-- The same change to both windows that keeps their bytes, whatever is then left to report. -/
theorem reposition (h : c.Alike d) {f : Window → Window} (hf : ∀ w, (f w).bytes = w.bytes)
    (pending pending' : Nat) :
    Alike { c with window := f c.window, pending }
      { d with window := f d.window, pending := pending' } := by
  obtain ⟨hsource, hended, hwindow, hspare, hcapacity, hbase⟩ := bare_eq_iff.1 h.bare_eq
  refine ⟨h.left.reposition (hf _) _, h.right.reposition (hf _) _, bare_eq_iff.2 ?_⟩
  exact ⟨hsource, hended, congrArg f hwindow, hspare, hcapacity, hbase⟩

theorem fill (h : c.Alike d) (refills : Nat) (hreach : c.window.position + k < maxCapacity) :
    ∃ c' d', c.fill k refills = .ok c' ∧ d.fill k refills = .ok d' ∧ c'.Alike d' := by
  induction refills generalizing c d with
  | zero => exact ⟨c, d, rfl, rfl, h⟩
  | succ refills ih =>
    obtain ⟨-, hended, hwindow, -⟩ := bare_eq_iff.1 h.bare_eq
    by_cases hdone : c.isExhausted ∨ k < c.window.ahead.size
    · have hdone' : d.isExhausted ∨ k < d.window.ahead.size := by
        rwa [isExhausted, ← hended, ← hwindow]
      exact ⟨c, d, Faithful.fill_of_done hdone, Faithful.fill_of_done hdone', h⟩
    · have hdone' : ¬(d.isExhausted ∨ k < d.window.ahead.size) := by
        rwa [isExhausted, ← hended, ← hwindow]
      obtain ⟨hexhausted, hmissing⟩ := not_or.1 hdone
      have hopen : c.ended = none := by simpa [isExhausted] using hexhausted
      have hopen' : d.ended = none := hended.symm.trans hopen
      have hreach' : d.window.position + k < maxCapacity := hwindow ▸ hreach
      obtain ⟨c', d', hleft, hright, hbare⟩ :=
        h.left.sound.refill_bare_eq h.right.sound h.bare_eq hopen hreach
      obtain ⟨hc', hposition⟩ :=
        h.left.refill hopen (Nat.le_of_not_lt hmissing) hreach hleft
      obtain ⟨hd', -⟩ := h.right.refill hopen' (hwindow ▸ Nat.le_of_not_lt hmissing) hreach' hright
      rw [Faithful.fill_succ hdone hleft, Faithful.fill_succ hdone' hright]
      exact ih ⟨hc', hd', hbare⟩ (by omega)

theorem peek (h : c.Alike d) (k : Nat) :
    ∃ b c' d', c.peek k = .ok (b, c') ∧ d.peek k = .ok (b, d') ∧ c'.Alike d' := by
  obtain ⟨-, -, hwindow, -⟩ := bare_eq_iff.1 h.bare_eq
  unfold Cursor.peek
  rw [← hwindow]
  cases c.window.ahead.get? k with
  | some b => exact ⟨b, c, d, rfl, rfl, h⟩
  | none =>
    by_cases hmax : maxCapacity ≤ c.window.position + k
    · exact ⟨0, c, d, if_pos hmax, if_pos hmax, h⟩
    · obtain ⟨c', d', hleft, hright, halike⟩ :=
        h.fill (k + 1 - c.window.ahead.size) (Nat.lt_of_not_le hmax)
      obtain ⟨-, -, hwindow', -⟩ := bare_eq_iff.1 halike.bare_eq
      refine ⟨(c'.window.ahead.get? k).getD 0, c', d', ?_, ?_, halike⟩
      · simp only [if_neg hmax, hleft, Except.map]
      · simp only [if_neg hmax, hright, Except.map, hwindow']

end Alike
end Cursor

namespace Scan

variable {σ : Type} [Source σ]

theorem peek_inStep (k : Nat) : InStep (Cursor.Alike (σ := σ)) (peek k) (peek k) :=
  fun _ _ h => h.peek k

theorem peekCodePoint_inStep (k : Nat) :
    InStep (Cursor.Alike (σ := σ)) (peekCodePoint k) (peekCodePoint k) :=
  .decode fun i => peek_inStep (k + i)

end Scan
end StreamCursor
