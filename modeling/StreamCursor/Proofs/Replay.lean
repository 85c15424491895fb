import StreamCursor.Replay

/-! Rules for runs of checks that pass. Main statement: if each action leads from a replay that is
as expected to one that is as expected next, so does a list of actions. -/

namespace StreamCursor
namespace Replay

variable {σ α β : Type} {replay next later : Replay σ} {a : α} {b : β}

/-- Run on `replay`, the check passes with the result `a` and leaves `later`. -/
def Reaches (check : Check σ α) (replay : Replay σ) (a : α) (later : Replay σ) : Prop :=
  check.run.run replay = (.ok a, later)

namespace Reaches

theorem pure : Reaches (Pure.pure a) replay a replay := rfl

theorem bind {check : Check σ α} {f : α → Check σ β} (hcheck : Reaches check replay a next)
    (hf : Reaches (f a) next b later) : Reaches (check >>= f) replay b later := by
  have hrun : check.run.run replay = (.ok a, next) := hcheck
  rw [Reaches, ExceptT.run_bind, StateT.run_bind, hrun]
  exact hf

theorem get : Reaches MonadState.get replay replay replay := rfl

theorem changeFlat {f : Flat → Flat} :
    Reaches (changeFlat f) replay () { replay with flat := f replay.flat } := rfl

theorem scan {s : Scan σ α} {c : Cursor σ} (h : s replay.cursor = .ok (a, c)) :
    Reaches (scan s) replay a { replay with cursor := c } := by
  unfold Replay.scan
  apply Reaches.bind .get
  rw [h]
  rfl

theorem expectBytes {found expected : Bytes} (h : found = expected) :
    Reaches (expectBytes found expected) replay () replay := by
  rw [Replay.expectBytes, if_pos h]
  exact pure

theorem expectNumber {found expected : Nat} (h : found = expected) :
    Reaches (expectNumber found expected) replay () replay := by
  rw [Replay.expectNumber, if_pos h]
  exact pure

theorem guard {refused : Prop} [Decidable refused] {discrepancy : Discrepancy} (h : ¬refused) :
    Reaches (if refused then throw discrepancy else Pure.pure ()) replay () replay := by
  rw [if_neg h]
  exact pure

theorem flatToken {data bytes : Bytes}
    (h : data.slice? replay.flat.start replay.flat.position = some bytes) :
    Reaches (flatToken data) replay bytes replay := by
  unfold Replay.flatToken
  apply Reaches.bind .get
  dsimp only
  rw [h]
  rfl

/-- With `I s` the expectation before an action and `I (step s x)` the one after it, a list of
actions can be followed step by step. -/
theorem forM {ι τ : Type} {f : ι → Check σ Unit} {step : τ → ι → τ} {I : τ → Replay σ → Prop}
    (hf : ∀ s x replay, I s replay → ∃ next, Reaches (f x) replay () next ∧ I (step s x) next)
    (xs : List ι) {s : τ} (hs : I s replay) :
    ∃ last, Reaches (xs.forM f) replay () last ∧ I (xs.foldl step s) last := by
  induction xs generalizing replay s with
  | nil => exact ⟨replay, pure, hs⟩
  | cons x xs ih =>
    obtain ⟨next, hstep, hnext⟩ := hf s x replay hs
    obtain ⟨last, hrest, hlast⟩ := ih hnext
    exact ⟨last, bind hstep hrest, hlast⟩

end Reaches
end Replay
end StreamCursor
