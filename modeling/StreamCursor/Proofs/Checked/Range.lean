import StreamCursor.Bytes
import StreamCursor.Fault

/-! Arithmetic and access as a machine with words and byte buffers has them: whatever is out of
range stops it. Main statements: within its range, each operation gives the plain result. -/

namespace StreamCursor

/-- What stops a machine that checks every step. -/
inductive Breach where
  /-- A part is to be taken that does not lie in the buffer. -/
  | slice
  /-- A place is to be read that does not lie in the buffer. -/
  | index
  /-- More is to be subtracted than there is. -/
  | difference
  /-- A sum is greater than any word. -/
  | sum
  /-- A range begins behind its end. -/
  | bounds
  /-- An operation on buffers is impossible. -/
  | fault (fault : Fault)
  /-- A loop goes on for longer than it may. -/
  | endless
  deriving DecidableEq

abbrev Checked := Except Breach

namespace Checked

/-- The greatest word. -/
def maxWord : Nat := 18446744073709551615

def require (p : Prop) [Decidable p] (breach : Breach) : Checked Unit :=
  if p then .ok () else .error breach

def sub (a b : Nat) : Checked Nat := if b ≤ a then .ok (a - b) else .error .difference

def add (a b : Nat) : Checked Nat := if a + b ≤ maxWord then .ok (a + b) else .error .sum

def get (bytes : Bytes) (i : Nat) : Checked UInt8 :=
  match bytes[i]? with
  | some b => .ok b
  | none => .error .index

def slice (bytes : Bytes) (start stop : Nat) : Checked Bytes :=
  match bytes.slice? start stop with
  | some part => .ok part
  | none => .error .slice

/-- The place nearest to `n` in the range from `low` to `high`. -/
def clamp (n low high : Nat) : Checked Nat :=
  if low ≤ high then .ok (max low (min n high)) else .error .bounds

/-- A sum, or the greatest word if the sum is none. -/
def addUpTo (a b : Nat) : Nat := min (a + b) maxWord

/-- A product, or the greatest word if the product is none. -/
def mulUpTo (a b : Nat) : Nat := min (a * b) maxWord

/-- A word moved by any distance, but not below zero or beyond the greatest word. -/
def shift (n : Nat) (distance : Int) : Nat := min (n + distance).toNat maxWord

section InRange

variable {a b n low high i start stop : Nat} {bytes : Bytes}

theorem require_eq {p : Prop} [Decidable p] (h : p) (breach : Breach) :
    require p breach = .ok () := if_pos h

theorem of_require_eq_ok {p : Prop} [Decidable p] {breach : Breach} {u : Unit}
    (h : require p breach = .ok u) : p := by
  by_cases hp : p
  · exact hp
  · rw [require, if_neg hp] at h
    cases h

/-- A program that comes to its end passed the checks of its first part. -/
theorem of_bind_eq_ok {α β : Type} {x : Checked α} {f : α → Checked β} {b : β}
    (h : (x >>= f) = .ok b) : ∃ a, x = .ok a ∧ f a = .ok b := by
  cases x with
  | error breach => cases h
  | ok a => exact ⟨a, rfl, h⟩

theorem sub_eq (h : b ≤ a) : sub a b = .ok (a - b) := if_pos h

theorem add_eq (h : a + b ≤ maxWord) : add a b = .ok (a + b) := if_pos h

theorem get_eq {b : UInt8} (h : bytes[i]? = some b) : get bytes i = .ok b := by
  rw [get, h]

theorem slice_eq (h : start ≤ stop) (h' : stop ≤ bytes.length) :
    slice bytes start stop = .ok ((bytes.drop start).take (stop - start)) := by
  rw [slice, Bytes.slice?, if_pos ⟨h, h'⟩]

theorem clamp_eq (h : low ≤ high) : clamp n low high = .ok (max low (min n high)) := if_pos h

theorem mapM_eq {α β : Type} {f : α → Checked β} {g : α → β} {xs : List α}
    (h : ∀ x ∈ xs, f x = .ok (g x)) : xs.mapM f = .ok (xs.map g) := by
  induction xs with
  | nil => rfl
  | cons x xs ih =>
    rw [List.mapM_cons, h x (List.mem_cons_self ..), ih fun y hy => h y (List.mem_cons_of_mem _ hy)]
    rfl

/-- No buffer is so large that two places in one could not be added. -/
theorem le_maxWord (h : n ≤ 2 * maxCapacity) : n ≤ maxWord :=
  Nat.le_trans h (by decide)

end InRange
end Checked
end StreamCursor
