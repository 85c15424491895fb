import StreamCursor.Bytes

/-! Segments of a stream that wait to be consumed, oldest first. Main statements: settling in
several steps is settling once, and what is left after settling is what was not consumed. -/

namespace StreamCursor

structure Backlog where
  segments : List Bytes
  /-- How much was consumed of the oldest segment, or in advance if there is none. -/
  consumed : Nat
  deriving DecidableEq

namespace Backlog

/-- Drops every segment at the front that is consumed to its end. -/
def settle : (segments : List Bytes) → (consumed : Nat) → Backlog
  | [], consumed => ⟨[], consumed⟩
  | segment :: segments, consumed =>
      if consumed < segment.length then ⟨segment :: segments, consumed⟩
      else settle segments (consumed - segment.length)

/-- Every segment with the offset at which it ends, if the first one begins at `start`. -/
def endings (start : Nat) : List Bytes → List (Bytes × Nat)
  | [] => []
  | segment :: segments =>
      (segment, start + segment.length) :: endings (start + segment.length) segments

/-- Consuming more and adding segments behind does not depend on what was settled before. -/
theorem settle_settle_append (segments more : List Bytes) (n m : Nat) :
    settle ((settle segments n).segments ++ more) ((settle segments n).consumed + m) =
      settle (segments ++ more) (n + m) := by
  fun_induction settle segments n with
  | case1 | case2 => rfl
  | case3 segment segments n h ih =>
    rw [ih, List.cons_append, settle, if_neg (by omega)]
    congr 1
    omega

theorem drop_settle (segments : List Bytes) (n : Nat) :
    (settle segments n).segments.flatten.drop (settle segments n).consumed =
      segments.flatten.drop n := by
  fun_induction settle segments n with
  | case1 | case2 => rfl
  | case3 segment segments n h ih =>
    have hgone : segment.drop n = [] := List.drop_of_length_le (Nat.le_of_not_lt h)
    rw [ih, List.flatten_cons, List.drop_append, hgone, List.nil_append]

/-- Settling leaves off within the oldest segment that stays. -/
theorem consumed_settle_lt {segments rest : List Bytes} {segment : Bytes} {n : Nat}
    (h : (settle segments n).segments = segment :: rest) :
    (settle segments n).consumed < segment.length := by
  fun_induction settle segments n with
  | case1 => cases h
  | case2 segment' segments n hn =>
    cases h
    exact hn
  | case3 segment' segments n hn ih => exact ih h

theorem settle_of_length_le {segments : List Bytes} {n : Nat} (h : segments.flatten.length ≤ n) :
    settle segments n = ⟨[], n - segments.flatten.length⟩ := by
  fun_induction settle segments n with
  | case1 => rfl
  | case2 segment segments n hn =>
    rw [List.flatten_cons, List.length_append] at h
    omega
  | case3 segment segments n hn ih =>
    rw [List.flatten_cons, List.length_append] at h ⊢
    rw [ih (by omega)]
    congr 1
    omega

theorem le_of_mem_endings {start : Nat} {segments : List Bytes} {e : Bytes × Nat}
    (h : e ∈ endings start segments) : start ≤ e.2 := by
  induction segments generalizing start with
  | nil => cases h
  | cons segment segments ih =>
    rcases List.mem_cons.1 h with rfl | h
    · exact Nat.le_add_right ..
    · exact Nat.le_trans (Nat.le_add_right ..) (ih h)

@[simp] theorem map_fst_endings (start : Nat) (segments : List Bytes) :
    (endings start segments).map (·.1) = segments := by
  induction segments generalizing start with
  | nil => rfl
  | cons segment segments ih => simp [endings, ih]

theorem endings_concat (start : Nat) (segments : List Bytes) (segment : Bytes) :
    endings start (segments ++ [segment]) =
      endings start segments ++ [(segment, start + segments.flatten.length + segment.length)] := by
  induction segments generalizing start with
  | nil => rfl
  | cons first segments ih =>
    rw [List.cons_append, endings, ih, endings, List.flatten_cons, List.length_append,
      ← Nat.add_assoc, List.cons_append]

/-- The segments that stay are those that end behind the bytes consumed. -/
theorem segments_settle (start : Nat) (segments : List Bytes) (n : Nat) :
    (settle segments n).segments =
      ((endings start segments).filter (start + n < ·.2)).map (·.1) := by
  fun_induction settle segments n generalizing start with
  | case1 => rfl
  | case2 segment segments n h =>
    have hall : ∀ e ∈ endings start (segment :: segments), decide (start + n < e.2) := by
      intro e he
      rcases List.mem_cons.1 he with rfl | he
      · exact decide_eq_true (by simpa using h)
      · have hend := le_of_mem_endings he
        exact decide_eq_true (Nat.lt_of_lt_of_le (Nat.add_lt_add_left h start) hend)
    rw [List.filter_eq_self.2 hall, map_fst_endings]
  | case3 segment segments n h ih =>
    have hsum : start + segment.length + (n - segment.length) = start + n := by omega
    rw [ih (start + segment.length), hsum, endings, List.filter_cons_of_neg (by simpa using h)]

/-- An empty segment shifts no offset. -/
theorem endings_filter_nonempty (start : Nat) (segments : List Bytes) :
    endings start (segments.filter (· ≠ [])) = (endings start segments).filter (·.1 ≠ []) := by
  induction segments generalizing start with
  | nil => rfl
  | cons segment segments ih =>
    by_cases h : segment = []
    · subst h
      simpa [endings] using ih start
    · simpa [endings, h] using ih (start + segment.length)

@[simp] theorem flatten_filter_nonempty (segments : List Bytes) :
    (segments.filter (· ≠ [])).flatten = segments.flatten := by
  induction segments with
  | nil => rfl
  | cons segment segments ih =>
    by_cases h : segment = []
    · subst h
      simpa using ih
    · rw [List.filter_cons_of_pos (by simpa using h), List.flatten_cons, List.flatten_cons, ih]

end Backlog
end StreamCursor
