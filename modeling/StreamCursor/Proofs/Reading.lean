import StreamCursor.Proofs.Cursor.Standing

/-! Rules for programs that read a fixed byte string: what they yield, and where they leave the
cursor. Main statement: a walk goes over just the bytes that satisfy its condition and looks at the
byte after them, wherever the string is cut into buffers. -/

namespace StreamCursor

section Rules

variable {σ ε α β : Type} {P Q R : Cursor σ → Prop} {s : StateT (Cursor σ) (Except ε) α}
  {f : α → StateT (Cursor σ) (Except ε) β} {a : α} {b : β} {e : ε}

/-- From every cursor of which `P` holds, the program yields `a` and leaves one of which `Q`
holds. -/
def Yields (P : Cursor σ → Prop) (s : StateT (Cursor σ) (Except ε) α) (a : α)
    (Q : Cursor σ → Prop) : Prop :=
  ∀ c, P c → ∃ later, s c = .ok (a, later) ∧ Q later

/-- From every cursor of which `P` holds, the program fails with `e`. -/
def FailsWith (P : Cursor σ → Prop) (s : StateT (Cursor σ) (Except ε) α) (e : ε) : Prop :=
  ∀ c, P c → s c = .error e

/-- From every cursor of which `P` holds, the program fails as `r` does, or yields the result in `r`
and leaves a cursor that `Q` describes by what else is in `r`. -/
def ComesTo {ρ : Type} (P : Cursor σ → Prop) (s : StateT (Cursor σ) (Except ε) α)
    (r : Except ε (α × ρ)) (Q : ρ → Cursor σ → Prop) : Prop :=
  match r with
  | .ok (a, rest) => Yields P s a (Q rest)
  | .error e => FailsWith P s e

theorem Yields.pure (h : ∀ c, P c → Q c) :
    Yields P (Pure.pure a : StateT (Cursor σ) (Except ε) α) a Q :=
  fun c hc => ⟨c, rfl, h c hc⟩

theorem Yields.bind (hs : Yields P s a Q) (hf : Yields Q (f a) b R) : Yields P (s >>= f) b R := by
  intro c hc
  obtain ⟨next, hrun, hnext⟩ := hs c hc
  obtain ⟨later, hrest, hlater⟩ := hf next hnext
  refine ⟨later, ?_, hlater⟩
  change (s c >>= fun p => f p.1 p.2) = _
  rw [hrun]
  exact hrest

theorem Yields.weaken (hs : Yields P s a Q) (h : ∀ c, Q c → R c) : Yields P s a R := by
  intro c hc
  obtain ⟨later, hrun, hlater⟩ := hs c hc
  exact ⟨later, hrun, h later hlater⟩

/-- What comes after is left to itself, and only its result is added to. -/
theorem Yields.map (hs : Yields P s a Q) (g : α → β) : Yields P (do return g (← s)) (g a) Q :=
  hs.bind (.pure fun _ hc => hc)

theorem FailsWith.bind (hs : Yields P s a Q) (hf : FailsWith Q (f a) e) :
    FailsWith P (s >>= f) e := by
  intro c hc
  obtain ⟨next, hrun, hnext⟩ := hs c hc
  change (s c >>= fun p => f p.1 p.2) = _
  rw [hrun]
  exact hf next hnext

theorem FailsWith.first (hs : FailsWith P s e) : FailsWith P (s >>= f) e := by
  intro c hc
  change (s c >>= fun p => f p.1 p.2) = _
  rw [hs c hc]
  rfl

theorem ComesTo.bind {ρ : Type} {r : Except ε (β × ρ)} {R : ρ → Cursor σ → Prop}
    (hs : Yields P s a Q) (hf : ComesTo Q (f a) r R) : ComesTo P (s >>= f) r R := by
  cases r with
  | ok b => exact Yields.bind hs hf
  | error e => exact FailsWith.bind hs hf

/-- One result for each number, from a statement that each step carries on to the next number. -/
theorem Yields.mapM_range {P : Nat → Cursor σ → Prop} {f : Nat → StateT (Cursor σ) (Except ε) α}
    {v : Nat → α} {n : Nat} (h : ∀ i < n, Yields (P i) (f i) (v i) (P (i + 1))) :
    Yields (P 0) ((List.range n).mapM f) ((List.range n).map v) (P n) := by
  induction n with
  | zero =>
    rw [List.range_zero, List.mapM_nil]
    exact .pure fun _ hc => hc
  | succ n ih =>
    have hinit := ih fun i hi => h i (Nat.lt_succ_of_lt hi)
    rw [List.range_succ, List.mapM_append, List.map_append, List.mapM_cons, List.mapM_nil]
    apply Yields.bind hinit
    exact .bind (.bind (h n (Nat.lt_succ_self n)) (.pure fun _ hc => hc)) (.pure fun _ hc => hc)

end Rules

namespace Scan

open Delivery (Stands)

variable {σ : Type} [Source σ] {d : Delivery σ} {token rest : Bytes} {offset seen k n : Nat}

theorem peek_yields (hk : k ≤ rest.length) :
    Yields (d.Stands offset token rest seen) (peek k) (rest[k]?.getD 0)
      (d.Stands offset token rest (max seen (k + 1))) :=
  fun _ hc => hc.peek hk

/-- The next byte, which is zero at the end. -/
theorem peek_zero_yields :
    Yields (d.Stands offset token rest seen) (peek 0) (rest.headD 0)
      (d.Stands offset token rest (max seen 1)) := by
  have hhead : rest[0]?.getD 0 = rest.headD 0 := by cases rest <;> rfl
  rw [← hhead]
  exact peek_yields (Nat.zero_le _)

theorem visibleEnd_yields (hseen : 0 < seen) :
    Yields (d.Stands offset token rest seen) visibleEnd
      (if rest = [] then some d.cause else none) (d.Stands offset token rest seen) :=
  fun c hc => ⟨c, by rw [← hc.visibleEnd_eq hseen]; rfl, hc⟩

theorem move_yields (hn : n ≤ seen) :
    Yields (d.Stands offset token rest seen) (move n) ()
      (d.Stands offset (token ++ rest.take n) (rest.drop n) (seen - n)) :=
  fun c hc => ⟨c.move n, rfl, hc.move hn⟩

theorem commit_yields :
    Yields (d.Stands offset token rest seen) commit () (d.Fresh rest seen) :=
  fun c hc => ⟨c.commit, rfl, hc.commit⟩

theorem take_yields :
    Yields (d.Stands offset token rest seen) take token (d.Fresh rest seen) := by
  intro c hc
  refine ⟨c.commit, ?_, hc.commit⟩
  rw [← hc.token_eq]
  rfl

theorem release_yields :
    Yields (d.Stands offset token rest seen) release () (d.Stands offset token rest seen) :=
  fun c hc => ⟨c.release, rfl, hc.release⟩

theorem tokenOffset_yields :
    Yields (d.Stands offset token rest seen) tokenOffset offset
      (d.Stands offset token rest seen) := by
  intro c hc
  refine ⟨c, ?_, hc⟩
  rw [← hc.tokenOffset_eq]
  rfl

/-- No limit that the rest keeps below has a part in where the walk stops. -/
theorem walk_yields (go : UInt8 → Bool) {limit : Nat} (hlimit : rest.length ≤ limit) :
    Yields (d.Stands offset token rest seen) (walk go limit) (rest.takeWhile go).length
      (d.Stands offset (token ++ rest.takeWhile go) (rest.dropWhile go) 1) := by
  induction limit generalizing token rest seen with
  | zero =>
    rw [List.length_eq_zero_iff.1 (Nat.le_zero.1 hlimit), List.takeWhile_nil, List.append_nil]
    exact .bind peek_zero_yields (.pure fun _ hc => hc.mono (Nat.le_max_right ..))
  | succ limit ih =>
    refine .bind peek_zero_yields (.bind (visibleEnd_yields (by omega)) ?_)
    -- The peek has found either the end or a byte, which may well be zero.
    cases rest with
    | nil =>
      rw [List.takeWhile_nil, List.append_nil]
      exact .pure fun _ hc => hc.mono (Nat.le_max_right ..)
    | cons b rest =>
      rw [List.length_cons, Nat.add_le_add_iff_right] at hlimit
      cases hgo : go b with
      | false =>
        simp only [List.headD_cons, hgo, List.takeWhile_cons, List.dropWhile_cons]
        simp only [Bool.not_false, Bool.or_true, if_true, Bool.false_eq_true, if_false,
          List.append_nil]
        exact .pure fun _ hc => hc.mono (Nat.le_max_right ..)
      | true =>
        simp only [List.headD_cons, hgo, List.takeWhile_cons, List.dropWhile_cons]
        simp only [reduceCtorEq, if_false, Option.isSome_none, Bool.not_true, Bool.or_self,
          Bool.false_eq_true, if_true]
        refine .bind (move_yields (n := 1) (by omega)) ?_
        rw [List.append_cons]
        exact (ih hlimit).map (· + 1)

/-- A walk over all bytes that satisfy the condition. -/
theorem walkWhile_yields (go : UInt8 → Bool) :
    Yields (d.Stands offset token rest seen) (walkWhile go) (rest.takeWhile go).length
      (d.Stands offset (token ++ rest.takeWhile go) (rest.dropWhile go) 1) := by
  intro c hc
  have hdata := hc.length_data
  have hshort := hc.short
  exact walk_yields go (by omega) c hc

end Scan
end StreamCursor
