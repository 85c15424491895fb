import StreamCursor.Window

/-! The parts of a window as slices of its bytes, and where its moves lead. -/

namespace StreamCursor
namespace Window

variable (w : Window)

@[simp] theorem length_committed : w.committed.bytes.length = w.start := Trail.length_bytes _

@[simp] theorem drop_start : w.bytes.drop w.start = w.kept := by
  rw [bytes, ← length_committed, List.drop_left]

theorem take_mark : w.kept.take w.mark = w.token := by
  rw [kept, ← length_token, List.take_left]

theorem drop_position : w.bytes.drop w.position = w.ahead.bytes := by
  rw [position, ← List.drop_drop, drop_start, kept, ← length_token, List.drop_left]

theorem mark_ofBytes {bytes : Bytes} {mark : Nat} (h : mark ≤ bytes.length) :
    (ofBytes bytes mark).mark = mark := by
  have hlength := length_token (ofBytes bytes mark)
  rw [token, ofBytes, Trail.bytes_ofBytes, List.length_take_of_le h] at hlength
  exact hlength.symm

@[simp] theorem stop_ofBytes (bytes : Bytes) (mark : Nat) :
    (ofBytes bytes mark).stop = bytes.length := by
  rw [← length_bytes, bytes_ofBytes]

@[simp] theorem start_extend (bytes : Bytes) : (w.extend bytes).start = w.start := rfl

@[simp] theorem mark_extend (bytes : Bytes) : (w.extend bytes).mark = w.mark := rfl

@[simp] theorem position_extend (bytes : Bytes) : (w.extend bytes).position = w.position := rfl

@[simp] theorem size_ahead_extend (bytes : Bytes) :
    (w.extend bytes).ahead.size = w.ahead.size + bytes.length := rfl

@[simp] theorem stop_extend (bytes : Bytes) :
    (w.extend bytes).stop = w.stop + bytes.length := by
  simp [stop, position, Nat.add_assoc]

@[simp] theorem mark_forward (n : Nat) :
    (w.forward n).mark = w.mark + min n w.ahead.size := by
  rw [← length_token, token, forward, Trail.bytes_push, List.length_append, Trail.length_bytes,
    Lookahead.take_eq, List.length_take, Lookahead.length_bytes]
  rfl

@[simp] theorem mark_back (n : Nat) : (w.back n).mark = w.mark - n := rfl

@[simp] theorem start_commit : w.commit.start = w.position := by
  rw [← length_committed, commit, Trail.bytes_append, List.length_append, length_committed,
    Trail.length_bytes]
  rfl

theorem start_le_stop : w.start ≤ w.stop :=
  Nat.le_trans (Nat.le_add_right ..) (Nat.le_add_right ..)

theorem start_le_position_add (k : Nat) : w.start ≤ w.position + k :=
  Nat.le_trans (Nat.le_add_right ..) (Nat.le_add_right ..)

theorem position_add_sub_start (k : Nat) : w.position + k - w.start = w.mark + k := by
  rw [position, Nat.add_assoc, Nat.add_sub_cancel_left]

/-- A move stops at the start of the token and at the end of the bytes. -/
theorem mark_move (n : Int) :
    ((w.move n).mark : Int) = max 0 (min (w.mark + n) (w.mark + w.ahead.size)) := by
  cases n with
  | ofNat n =>
    rw [move, mark_forward, Int.ofNat_eq_natCast]
    omega
  | negSucc n =>
    rw [move, mark_back]
    omega

theorem mark_rewind (mark : Nat) : (w.rewind mark).mark = min mark (w.mark + w.ahead.size) := by
  unfold rewind
  split
  · rw [mark_back]
    omega
  · rw [mark_forward]
    omega

@[simp] theorem bytes_move (n : Int) : (w.move n).bytes = w.bytes := by
  rw [bytes, bytes, kept_move]
  cases n <;> rfl

@[simp] theorem bytes_rewind (mark : Nat) : (w.rewind mark).bytes = w.bytes := by
  rw [bytes, bytes, kept_rewind]
  unfold rewind
  split <;> rfl

/-- A window with all its bytes in place stops where it stopped. -/
theorem stop_of_bytes {w w' : Window} (h : w'.bytes = w.bytes) : w'.stop = w.stop := by
  rw [← length_bytes, h, length_bytes]

end Window
end StreamCursor
