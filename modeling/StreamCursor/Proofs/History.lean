import StreamCursor.Proofs.Source.Recorder

/-! Everything that can be asked of an open cursor, in any order, with what came of it. Main
statement: recording the source changes no history. -/

namespace StreamCursor

inductive Operation where
  | peek (k : Nat)
  | codePoint (k : Nat)
  | move (n : Int)
  | mark
  | rewind (mark : Nat)
  | take
  | commit
  | report
  | consume (n : Nat)
  | release
  deriving DecidableEq

inductive Answer where
  | nothing
  | byte (b : UInt8)
  | codePoint (p : CodePoint)
  | number (n : Nat)
  | bytes (bytes : Bytes)
  deriving DecidableEq

namespace Operation

variable {σ : Type}

def perform [Source σ] : Operation → Scan σ Answer
  | peek k => return .byte (← Scan.peek k)
  | codePoint k => return .codePoint (← Scan.peekCodePoint k)
  | move n => do
      Scan.move n
      return .nothing
  | mark => return .number (← get).mark
  | rewind m => do
      modify (·.rewind m)
      return .nothing
  | take => return .bytes (← Scan.take)
  | commit => do
      Scan.commit
      return .nothing
  | report => return .number (← modifyGet (·.report))
  | consume n => do
      modify (·.consume n)
      return .nothing
  | release => do
      Scan.release
      return .nothing

/-- The token that the operation commits, if it commits one: the bytes that are taken, or those
passed over. -/
def tokens (c : Cursor σ) : Operation → List Bytes
  | take => [c.take.1]
  | commit => [c.token]
  | _ => []

/-- How many bytes the operation reports as committed. -/
def reported (c : Cursor σ) : Operation → Nat
  | report | release => c.report.1
  | _ => 0

/-- How many bytes the operation reports to the pool as consumed. -/
def freed (c : Cursor σ) : Operation → Nat
  | consume n => n
  | release => c.report.1
  | _ => 0

end Operation

/-- A cursor with what was asked of it. -/
structure History (σ : Type) where
  cursor : Cursor σ
  answers : List Answer := []
  /-- The tokens committed so far, in order. -/
  tokens : List Bytes := []
  /-- The total that was reported as committed. -/
  reported : Nat := 0
  /-- The total that was reported to the pool as consumed. -/
  freed : Nat := 0

namespace History

variable {σ τ : Type}

def step [Source σ] (h : History σ) (op : Operation) : Except Fault (History σ) :=
  (op.perform h.cursor).map fun (answer, cursor) =>
    { cursor
      answers := h.answers ++ [answer]
      tokens := h.tokens ++ op.tokens h.cursor
      reported := h.reported + op.reported h.cursor
      freed := h.freed + op.freed h.cursor }

def run [Source σ] (h : History σ) (ops : List Operation) : Except Fault (History σ) :=
  ops.foldlM step h

def mapSource (f : σ → τ) (h : History σ) : History τ :=
  { h with cursor := h.cursor.mapSource f }

section Run

variable [Source σ] {h next : History σ}

/-- The history with one more operation, which had this answer and left this cursor. -/
def extend (h : History σ) (op : Operation) (answer : Answer) (later : Cursor σ) : History σ where
  cursor := later
  answers := h.answers ++ [answer]
  tokens := h.tokens ++ op.tokens h.cursor
  reported := h.reported + op.reported h.cursor
  freed := h.freed + op.freed h.cursor

theorem step_of_perform {op : Operation} {answer : Answer} {later : Cursor σ}
    (hperform : op.perform h.cursor = .ok (answer, later)) :
    h.step op = .ok (h.extend op answer later) := by
  rw [step, hperform]
  rfl

theorem step_eq_ok {op : Operation} (hstep : h.step op = .ok next) :
    ∃ answer later, op.perform h.cursor = .ok (answer, later) ∧
      next = h.extend op answer later := by
  cases hperform : op.perform h.cursor with
  | error fault =>
    rw [step, hperform] at hstep
    cases hstep
  | ok p => exact ⟨p.1, p.2, rfl, Except.ok.inj (hstep.symm.trans (step_of_perform hperform))⟩

theorem run_cons (h : History σ) (op : Operation) (ops : List Operation) :
    h.run (op :: ops) = h.step op >>= fun next => next.run ops :=
  List.foldlM_cons ..

theorem run_append (h : History σ) (ops more : List Operation) :
    h.run (ops ++ more) = h.run ops >>= fun next => next.run more :=
  List.foldlM_append ..

end Run

variable [Source σ] [Source τ] (v : Source.View σ τ)

theorem perform_mirrors (op : Operation) : Scan.Mirrors v.see op.perform op.perform := by
  cases op with
  | peek k => exact .bind (Scan.peek_mirrors v k) fun b => .pure _ _
  | codePoint k => exact .bind (Scan.peekCodePoint_mirrors v k) fun p => .pure _ _
  | move | mark | rewind | take | commit | report | consume | release => exact fun c => rfl

theorem step_mapSource (h : History σ) (op : Operation) :
    (h.mapSource v.see).step op = (h.step op).map (mapSource v.see) := by
  have hperform := perform_mirrors v op h.cursor
  unfold step
  change (op.perform (h.cursor.mapSource v.see)).map _ = _
  rw [hperform]
  cases op.perform h.cursor with
  | error fault => rfl
  | ok p => cases op <;> rfl

theorem run_mapSource (h : History σ) (ops : List Operation) :
    (h.mapSource v.see).run ops = (h.run ops).map (mapSource v.see) := by
  induction ops generalizing h with
  | nil => rfl
  | cons op ops ih =>
    change ((h.mapSource v.see).step op >>= fun next => next.run ops) =
      (h.step op >>= fun next => next.run ops).map (mapSource v.see)
    rw [step_mapSource]
    cases h.step op with
    | error fault => rfl
    | ok next => exact ih next

end History
end StreamCursor
