import StreamCursor.CodePoint

/-! Two programs side by side, each over states of its own. Main statements: programs that are built
alike of steps that agree agree themselves, the decoding of a code point among them. -/

namespace StreamCursor

variable {S T E F α β ι : Type} {R : S → T → Prop}

/-- From any two states that belong together both programs succeed, with the same result, and leave
states that belong together. -/
def InStep (R : S → T → Prop) (s : StateT S (Except E) α) (t : StateT T (Except F) α) : Prop :=
  ∀ x y, R x y → ∃ a x' y', s x = .ok (a, x') ∧ t y = .ok (a, y') ∧ R x' y'

namespace InStep

theorem pure (a : α) :
    InStep R (Pure.pure a : StateT S (Except E) α) (Pure.pure a : StateT T (Except F) α) :=
  fun x y h => ⟨a, x, y, rfl, rfl, h⟩

theorem bind {s : StateT S (Except E) α} {t : StateT T (Except F) α}
    {f : α → StateT S (Except E) β} {g : α → StateT T (Except F) β} (h : InStep R s t)
    (h' : ∀ a, InStep R (f a) (g a)) : InStep R (s >>= f) (t >>= g) := by
  intro x y hxy
  obtain ⟨a, x', y', hs, ht, hnext⟩ := h x y hxy
  obtain ⟨b, x'', y'', hf, hg, hlast⟩ := h' a x' y' hnext
  refine ⟨b, x'', y'', ?_, ?_, hlast⟩
  · change (s x >>= fun p => f p.1 p.2) = _
    rw [hs]
    exact hf
  · change (t y >>= fun p => g p.1 p.2) = _
    rw [ht]
    exact hg

theorem mapM {s : ι → StateT S (Except E) α} {t : ι → StateT T (Except F) α}
    (h : ∀ i, InStep R (s i) (t i)) (xs : List ι) : InStep R (xs.mapM s) (xs.mapM t) := by
  induction xs with
  | nil => exact .pure []
  | cons i xs ih =>
    rw [List.mapM_cons, List.mapM_cons]
    exact .bind (h i) fun a => .bind ih fun as => .pure (a :: as)

/-- Decoders that are given the same bytes find the same code point. -/
theorem decode {s : Nat → StateT S (Except E) UInt8} {t : Nat → StateT T (Except F) UInt8}
    (h : ∀ i, InStep R (s i) (t i)) : InStep R (CodePoint.decode s) (CodePoint.decode t) := by
  unfold CodePoint.decode
  exact .bind (h 0) fun first => .bind (.mapM (fun i => h (i + 1)) _) fun rest => .pure _

end InStep
end StreamCursor
