import StreamCursor.Proofs.History.Ending
import StreamCursor.Proofs.History.Rules
import StreamCursor.Proofs.InStep

/-! A cursor under watch: every peek that is made of it goes on record, those that decode a code
point and the one that opens the cursor among them. Main statement: the watch changes no history,
and what every peek keeps of cursor and record together holds after every history. -/

namespace StreamCursor

/-- A peek that was made: of which cursor, how far it looked, what it showed and what it left. -/
structure Glance (σ : Type) where
  before : Cursor σ
  distance : Nat
  byte : UInt8
  after : Cursor σ

namespace Glance

variable {σ : Type}

/-- The index in the buffer that was looked at. -/
def index (g : Glance σ) : Nat := g.before.window.position + g.distance

/-- The offset in the stream that was looked at. -/
def target (g : Glance σ) : Nat := g.before.offset + g.distance

end Glance

structure Watched (σ : Type) where
  cursor : Cursor σ
  /-- The peeks made so far, in order. -/
  glances : List (Glance σ) := []

/-- A scan of a watched cursor. -/
abbrev Watch (σ : Type) := StateT (Watched σ) (Except Fault)

namespace Watch

variable {σ α : Type} [Source σ]

def peek (k : Nat) : Watch σ UInt8 := fun w =>
  (w.cursor.peek k).map fun (byte, later) =>
    (byte, { cursor := later, glances := w.glances ++ [⟨w.cursor, k, byte, later⟩] })

def peekCodePoint (k : Nat) : Watch σ CodePoint := CodePoint.decode fun i => peek (k + i)

omit [Source σ] in
/-- A scan that peeks at nothing. -/
def scan (s : Scan σ α) : Watch σ α := fun w =>
  (s w.cursor).map fun (a, later) => (a, { w with cursor := later })

end Watch

def Operation.watch {σ : Type} [Source σ] : Operation → Watch σ Answer
  | peek k => return .byte (← Watch.peek k)
  | codePoint k => return .codePoint (← Watch.peekCodePoint k)
  | op => Watch.scan op.perform

namespace Watched

variable {σ : Type} [Source σ]

def buffering (source : σ) (bufferSize : Nat) : Except Fault (Watched σ) :=
  let capacity := max bufferSize 1
  if maxCapacity < capacity then .error .capacity
  else (Watch.peek 0 { cursor := .unread source capacity }).map (·.2)

/-- A watched cursor at the front of a source. -/
def ofSource (source : σ) (options : Options := {}) : Except Fault (Watched σ) :=
  if options.adopt then
    match Source.takeAll source with
    | (some buffer, source) => .ok { cursor := .adopting source buffer }
    | (none, source) => buffering source options.bufferSize
  else buffering source options.bufferSize

end Watched

variable {σ : Type} [Source σ] {I : Watched σ → Prop}

/-- Every peek succeeds and keeps the invariant. -/
def KeptByPeeks (I : Watched σ → Prop) : Prop :=
  ∀ (k : Nat) (w : Watched σ), I w → ∃ b later, w.cursor.peek k = .ok (b, later) ∧
    I { cursor := later, glances := w.glances ++ [⟨w.cursor, k, b, later⟩] }

/-- The watched cursor is the plain one, and the invariant holds. -/
def Accompanies (I : Watched σ → Prop) (w : Watched σ) (c : Cursor σ) : Prop :=
  w.cursor = c ∧ I w

theorem Watch.peek_inStep (hpeek : KeptByPeeks I) (k : Nat) :
    InStep (Accompanies I) (Watch.peek k) (Scan.peek k) := by
  rintro w c ⟨rfl, hw⟩
  obtain ⟨b, later, hresult, hlater⟩ := hpeek k w hw
  refine ⟨b, _, later, ?_, hresult, rfl, hlater⟩
  rw [Watch.peek, hresult]
  rfl

namespace Operation

theorem watch_of_not_looks {op : Operation} (hlooks : op.looks = false) :
    (op.watch : Watch σ Answer) = Watch.scan op.perform := by
  cases op with
  | peek | codePoint => simp [looks] at hlooks
  | move | mark | rewind | take | commit | report | consume | release => rfl

theorem watch_of_perform {op : Operation} (hlooks : op.looks = false) {w : Watched σ}
    {answer : Answer} {later : Cursor σ} (hperform : op.perform w.cursor = .ok (answer, later)) :
    op.watch w = .ok (answer, { w with cursor := later }) := by
  rw [watch_of_not_looks hlooks, Watch.scan, hperform]
  rfl

theorem watch_inStep_of_looks (hpeek : KeptByPeeks I) {op : Operation} (hlooks : op.looks = true) :
    InStep (Accompanies I) op.watch op.perform := by
  cases op with
  | peek k => exact .bind (Watch.peek_inStep hpeek k) fun b => .pure _
  | codePoint k =>
    exact .bind (.decode fun i => Watch.peek_inStep hpeek (k + i)) fun p => .pure _
  | move | mark | rewind | take | commit | report | consume | release => cases hlooks

theorem watch_inStep (hpeek : KeptByPeeks I)
    (hquiet : ∀ glances, Lasting fun c => I { cursor := c, glances }) (op : Operation) :
    InStep (Accompanies I) op.watch op.perform := by
  cases hlooks : op.looks with
  | true => exact watch_inStep_of_looks hpeek hlooks
  | false =>
    rintro w c ⟨rfl, hw⟩
    obtain ⟨answer, later, hperform, hlater⟩ :=
      perform_meets_of_not_looks (hquiet w.glances) hlooks w.cursor hw
    exact ⟨answer, _, later, watch_of_perform hlooks hperform, hperform, rfl, hlater⟩

end Operation

namespace History

/-- A history of a watched cursor is the history of the cursor. What holds of the two together may
depend on the operations that are still to come. -/
theorem run_watched_of_steps {J : List Operation → History σ → Watched σ → Prop}
    (hstep : ∀ op ops (h : History σ) (w : Watched σ), J (op :: ops) h w → w.cursor = h.cursor →
      ∃ answer next, op.watch w = .ok (answer, next) ∧
        op.perform h.cursor = .ok (answer, next.cursor) ∧
        J ops (h.extend op answer next.cursor) next)
    (ops : List Operation) {h : History σ} {w : Watched σ} (hw : w.cursor = h.cursor)
    (hj : J ops h w) :
    ∃ answers later last, h.run ops = .ok last ∧
      ops.mapM Operation.watch w = .ok (answers, later) ∧ last.answers = h.answers ++ answers ∧
      later.cursor = last.cursor ∧ J [] last later := by
  induction ops generalizing w h with
  | nil => exact ⟨[], w, h, rfl, rfl, (List.append_nil _).symm, hw, hj⟩
  | cons op ops ih =>
    obtain ⟨answer, w', hwatch, hperform, hnext⟩ := hstep op ops h w hj hw
    obtain ⟨answers, later, last, hrun, hwatches, hanswers, hlast⟩ :=
      ih (h := h.extend op answer w'.cursor) rfl hnext
    refine ⟨answer :: answers, later, last, ?_, ?_, ?_, hlast⟩
    · rw [run_cons, step_of_perform hperform]
      exact hrun
    · rw [List.mapM_cons]
      show (op.watch w >>= fun p => (ops.mapM Operation.watch >>= fun answers =>
        pure (p.1 :: answers) : Watch σ (List Answer)) p.2) = _
      rw [hwatch]
      show (ops.mapM Operation.watch w' >>= fun p => .ok (answer :: p.1, p.2)) = _
      rw [hwatches]
      rfl
    · rw [hanswers]
      simp [extend]

theorem run_watched (hpeek : KeptByPeeks I)
    (hquiet : ∀ glances, Lasting fun c => I { cursor := c, glances }) (ops : List Operation)
    {w : Watched σ} {h : History σ} (hw : Accompanies I w h.cursor) :
    ∃ answers later last, h.run ops = .ok last ∧
      ops.mapM Operation.watch w = .ok (answers, later) ∧ last.answers = h.answers ++ answers ∧
      Accompanies I later last.cursor := by
  refine run_watched_of_steps (J := fun _ _ w => I w) ?_ ops hw.1 hw.2
  intro op ops h w hi hcursor
  obtain ⟨answer, next, later, hwatch, hperform, rfl, hnext⟩ :=
    Operation.watch_inStep hpeek hquiet op w h.cursor ⟨hcursor, hi⟩
  exact ⟨answer, next, hwatch, hperform, hnext⟩

end History

/-- A cursor that is opened by reading is opened under watch by the same peek. -/
theorem Watched.ofSource_of_read {source rest : σ} {options : Options} {b : UInt8}
    {opened : Cursor σ} (hrest : options.adopt = false ∧ rest = source ∨
      options.adopt = true ∧ Source.takeAll source = (none, rest))
    (hmax : max options.bufferSize 1 ≤ maxCapacity)
    (hpeek : (Cursor.unread rest (max options.bufferSize 1)).peek 0 = .ok (b, opened)) :
    ofSource source options = .ok
      { cursor := opened
        glances := [⟨.unread rest (max options.bufferSize 1), 0, b, opened⟩] } := by
  have hbuffering : buffering rest options.bufferSize = .ok
      { cursor := opened
        glances := [] ++ [⟨.unread rest (max options.bufferSize 1), 0, b, opened⟩] } := by
    unfold buffering
    simp only [if_neg (Nat.not_lt.2 hmax), Watch.peek, hpeek]
    rfl
  rcases hrest with ⟨hadopt, rfl⟩ | ⟨hadopt, htake⟩
  · rw [ofSource, if_neg (by simp [hadopt])]
    exact hbuffering
  · rw [ofSource, if_pos hadopt, htake]
    exact hbuffering

/-- Opening a watched cursor is opening the cursor. -/
theorem Watched.ofSource_accompanies (hpeek : KeptByPeeks I) {source : σ} {options : Options}
    (hadopting : ∀ buffer rest, Cursor.adopts source options = true →
      Source.takeAll source = (some buffer, rest) → I { cursor := .adopting rest buffer })
    (hunread : ∀ rest capacity, rest = source ∨ Source.takeAll source = (none, rest) →
      0 < capacity → capacity ≤ maxCapacity → I { cursor := .unread rest capacity })
    {opened : Cursor σ} (hopen : Cursor.ofSource source options = .ok opened) :
    ∃ first, ofSource source options = .ok first ∧ Accompanies I first opened := by
  cases Cursor.opening_of_ofSource hopen with
  | @adopted buffer rest hadopt htake hopened =>
    have hadopts : Cursor.adopts source options = true := by simp [Cursor.adopts, hadopt, htake]
    refine ⟨_, ?_, hopened.symm, hadopting buffer rest hadopts htake⟩
    rw [ofSource, if_pos hadopt, htake]
  | @read rest b hrest hmax hread =>
    have hfront := hunread rest _ (hrest.imp (·.2) (·.2)) (by omega) hmax
    obtain ⟨b', later, hpeeked, hlater⟩ := hpeek 0 _ hfront
    cases hread.symm.trans hpeeked
    exact ⟨_, ofSource_of_read hrest hmax hread, rfl, hlater⟩

end StreamCursor
