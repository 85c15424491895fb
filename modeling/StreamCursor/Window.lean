import StreamCursor.Lookahead

/-! The bytes in a buffer around a cursor. They fall into three parts: what was committed, the
token up to the cursor, and what lies ahead. A move costs no more than its distance, and none can
leave the window. -/

namespace StreamCursor

structure Window where
  /-- The bytes before the token. -/
  committed : Trail := {}
  /-- The bytes of the token before the cursor. -/
  passed : Trail := {}
  /-- The bytes from the cursor on. -/
  ahead : Lookahead := {}
  deriving DecidableEq

namespace Window

/-- A window onto `bytes` with the token at its front and the cursor `mark` bytes further. -/
def ofBytes (bytes : Bytes) (mark : Nat) : Window where
  passed := .ofBytes (bytes.take mark)
  ahead := .ofBytes (bytes.drop mark)

def token (w : Window) : Bytes := w.passed.bytes

/-- The bytes from the start of the token on. -/
def kept (w : Window) : Bytes := w.token ++ w.ahead.bytes

def bytes (w : Window) : Bytes := w.committed.bytes ++ w.kept

/-- Where the token starts in the window. -/
def start (w : Window) : Nat := w.committed.size

/-- How far the cursor is past the start of the token. -/
def mark (w : Window) : Nat := w.passed.size

def position (w : Window) : Nat := w.start + w.mark

def stop (w : Window) : Nat := w.position + w.ahead.size

/-- Moves the cursor on by `n` bytes, or to the end. -/
def forward (w : Window) (n : Nat) : Window :=
  { w with passed := w.passed.push (w.ahead.take n), ahead := w.ahead.drop n }

/-- Moves the cursor back by `n` bytes, or to the start of the token. -/
def back (w : Window) (n : Nat) : Window :=
  { w with passed := w.passed.pop n, ahead := w.ahead.prepend (w.passed.last n) }

def move (w : Window) : Int → Window
  | .ofNat n => w.forward n
  | .negSucc n => w.back (n + 1)

/-- Moves the cursor to `mark` bytes past the start of the token, or to the end. -/
def rewind (w : Window) (mark : Nat) : Window :=
  if mark ≤ w.mark then w.back (w.mark - mark) else w.forward (mark - w.mark)

/-- Commits the token. The next one starts at the cursor. -/
def commit (w : Window) : Window :=
  { w with committed := w.committed.append w.passed, passed := {} }

def extend (w : Window) (bytes : Bytes) : Window := { w with ahead := w.ahead.extend bytes }

@[simp] theorem length_token (w : Window) : w.token.length = w.mark := Trail.length_bytes _

@[simp] theorem length_kept (w : Window) : w.kept.length = w.mark + w.ahead.size := by
  simp [kept]

@[simp] theorem length_bytes (w : Window) : w.bytes.length = w.stop := by
  simp [bytes, stop, position, start, Nat.add_assoc]

@[simp] theorem bytes_ofBytes (bytes : Bytes) (mark : Nat) :
    (ofBytes bytes mark).bytes = bytes := by
  simp [Window.bytes, ofBytes, kept, token]

@[simp] theorem kept_forward (w : Window) (n : Nat) : (w.forward n).kept = w.kept := by
  simp [forward, kept, token]

@[simp] theorem kept_back (w : Window) (n : Nat) : (w.back n).kept = w.kept := by
  simp only [back, kept, token, Lookahead.bytes_prepend, ← List.append_assoc,
    Trail.bytes_pop_append_last]

@[simp] theorem kept_move (w : Window) (n : Int) : (w.move n).kept = w.kept := by
  cases n <;> simp [move]

@[simp] theorem kept_rewind (w : Window) (mark : Nat) : (w.rewind mark).kept = w.kept := by
  unfold rewind
  split <;> simp

@[simp] theorem bytes_commit (w : Window) : w.commit.bytes = w.bytes := by
  simp [commit, Window.bytes, kept, token]

@[simp] theorem start_move (w : Window) (n : Int) : (w.move n).start = w.start := by
  cases n <;> rfl

@[simp] theorem start_rewind (w : Window) (mark : Nat) : (w.rewind mark).start = w.start := by
  unfold rewind
  split <;> rfl

@[simp] theorem bytes_extend (w : Window) (bytes : Bytes) :
    (w.extend bytes).bytes = w.bytes ++ bytes := by
  simp [extend, Window.bytes, kept, token]

end Window
end StreamCursor
