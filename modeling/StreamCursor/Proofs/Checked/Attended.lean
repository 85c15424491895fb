import StreamCursor.Proofs.Checked.History
import StreamCursor.Proofs.Checked.Visits
import StreamCursor.Proofs.History.Rules

/-! The checked machine with a record of the reads that it makes. Main statement: the record changes
no run, and what every read keeps of machine and record together holds after every run. -/

namespace StreamCursor

namespace Registers

open Checked

variable {σ : Type} [Source σ] {m m' : Registers σ} {answer : Answer}

/-- What nothing but reads and exchanges changes. -/
def buffer (m : Registers σ) : σ × Option StreamEnd × Slot × Nat × Nat :=
  (m.source, m.ended, m.content, m.capacity, m.stop)

omit [Source σ] in
theorem buffer_of_update {f : Registers σ → Checked (Registers σ)}
    (hf : ∀ next, f m = .ok next → next.buffer = m.buffer)
    (h : update f m = .ok (answer, m')) : m'.buffer = m.buffer := by
  change ((f m >>= fun next => .ok (next, m)) >>= fun p => .ok (Answer.nothing, p.1)) = _ at h
  obtain ⟨_, h, hlast⟩ := of_bind_eq_ok h
  obtain ⟨next, hnext, hpair⟩ := of_bind_eq_ok h
  cases hpair
  cases hlast
  exact hf _ hnext

omit [Source σ] in
theorem buffer_of_report {n : Nat} (h : m.report = .ok (n, m')) : m'.buffer = m.buffer := by
  obtain ⟨_, -, hlast⟩ := of_bind_eq_ok h
  cases hlast
  rfl

omit [Source σ] in
theorem buffer_of_consume {n : Nat} (h : m.consume n = .ok m') : m'.buffer = m.buffer := by
  obtain ⟨_, -, hlast⟩ := of_bind_eq_ok h
  cases hlast
  rfl

theorem buffer_of_perform {op : Operation} (hlooks : op.looks = false)
    (h : perform op m = .ok (answer, m')) : m'.buffer = m.buffer := by
  cases op with
  | peek | codePoint => cases hlooks
  | move n =>
    refine buffer_of_update (fun next hnext => ?_) h
    obtain ⟨_, -, hlast⟩ := of_bind_eq_ok hnext
    cases hlast
    rfl
  | mark =>
    obtain ⟨_, hmark, hlast⟩ := of_bind_eq_ok h
    obtain ⟨_, -, hpair⟩ := of_bind_eq_ok hmark
    cases hpair
    cases hlast
    rfl
  | rewind mark =>
    refine buffer_of_update (fun next hnext => ?_) h
    cases hnext
    rfl
  | take =>
    obtain ⟨_, htake, hlast⟩ := of_bind_eq_ok h
    obtain ⟨_, -, hpair⟩ := of_bind_eq_ok htake
    cases hpair
    cases hlast
    rfl
  | commit =>
    refine buffer_of_update (fun next hnext => ?_) h
    cases hnext
    rfl
  | report =>
    obtain ⟨p, hreport, hlast⟩ := of_bind_eq_ok h
    cases hlast
    exact buffer_of_report hreport
  | consume n => exact buffer_of_update (fun _ => buffer_of_consume) h
  | release =>
    refine buffer_of_update (fun next hnext => ?_) h
    obtain ⟨p, hreport, hconsume⟩ := of_bind_eq_ok hnext
    rw [buffer_of_consume hconsume, buffer_of_report hreport]

end Registers

/-- A machine, and the reads it has made so far, in order. -/
structure Attended (σ : Type) where
  machine : Registers σ
  visits : List (Visit σ) := []

namespace Attended

open Checked

variable {σ : Type} [Source σ]

/-- A program of the machine that also records its reads. -/
abbrev Program (σ : Type) := StateT (Attended σ) Checked

def peek (k : Nat) : Program σ UInt8 := fun a =>
  (a.machine.peek k).map fun (b, machine) =>
    (b, { machine, visits := a.visits ++ a.machine.visits k })

def perform : Operation → Program σ Answer
  | .peek k => return .byte (← peek k)
  | .codePoint k => return .codePoint (← CodePoint.decode fun i => peek (addUpTo k i))
  | op => fun a => (Registers.perform op a.machine).map fun (answer, machine) =>
      (answer, { a with machine })

def buffering (source : σ) (bufferSize : Nat) : Checked (Attended σ) := do
  let capacity := max bufferSize 1
  require (capacity ≤ maxCapacity) (.fault .capacity)
  let (_, a) ← peek 0 { machine := .holding source ⟨[], capacity⟩ none }
  return a

def ofSource (source : σ) (options : Options := {}) : Checked (Attended σ) :=
  if options.adopt then
    match Source.takeAll source with
    | (some buffer, source) => .ok { machine := .holding source buffer (some .eof) }
    | (none, source) => buffering source options.bufferSize
  else buffering source options.bufferSize

/-- What every read keeps, if it is made while the stream has not ended, and what does not depend on
where the cursor stands and what was reported. -/
structure Keeps (I : Attended σ → Prop) : Prop where
  read : ∀ (a : Attended σ) (v : Visit σ), I a → a.machine.ended = none → a.machine.Prepares v →
    I { machine := v.after, visits := a.visits ++ [v] }
  buffer : ∀ (a : Attended σ) (machine : Registers σ), I a → machine.buffer = a.machine.buffer →
    I { a with machine }

variable {I : Attended σ → Prop}

theorem Keeps.fetched (hI : Keeps I) {target : Nat} {m later : Registers σ}
    {before visits : List (Visit σ)} (h : Registers.Fetched target m visits later)
    (hm : I { machine := m, visits := before }) :
    I { machine := later, visits := before ++ visits } := by
  induction h generalizing before with
  | done => rwa [List.append_nil]
  | @more m later v visits hopen _ hready _ ih =>
    have hlater := ih (hI.read _ v hm hopen hready)
    rwa [List.append_assoc] at hlater

/-- The machine is the plain one, it goes along with a cursor, and the invariant holds. -/
structure Attends (I : Attended σ → Prop) (a : Attended σ) (m : Registers σ) : Prop where
  machine_eq : a.machine = m
  agrees : ∃ c, m.Agrees c
  invariant : I a

theorem peek_inStep (hI : Keeps I) (k : Nat) :
    InStep (Attends I) (peek k) fun m : Registers σ => m.peek k := by
  rintro ⟨m, before⟩ _ ⟨rfl, ⟨c, hagrees⟩, hm⟩
  obtain ⟨b, m', c', hpeek, -, hlater⟩ := hagrees.peek k
  refine ⟨b, { machine := m', visits := before ++ m.visits k }, m', ?_, hpeek, rfl, ⟨c', hlater⟩,
    hI.fetched (hagrees.visited hpeek) hm⟩
  rw [peek, hpeek]
  rfl

theorem perform_of_not_looks {op : Operation} (hlooks : op.looks = false) (a : Attended σ) :
    perform op a = (Registers.perform op a.machine).map fun p => (p.1, { a with machine := p.2 }) := by
  cases op with
  | peek | codePoint => cases hlooks
  | move | mark | rewind | take | commit | report | consume | release => rfl

theorem perform_inStep (hI : Keeps I) (op : Operation) :
    InStep (Attends I) (perform op) (Registers.perform op) := by
  cases hlooks : op.looks with
  | true =>
    cases op with
    | peek k => exact .bind (peek_inStep hI k) fun b => .pure _
    | codePoint k => exact .bind (.decode fun i => peek_inStep hI (addUpTo k i)) fun p => .pure _
    | move | mark | rewind | take | commit | report | consume | release => cases hlooks
  | false =>
    rintro a _ ⟨rfl, ⟨c, hagrees⟩, ha⟩
    obtain ⟨answer, m', c', hperform, -, hlater⟩ := Registers.perform_inStep op a.machine c hagrees
    have hbuffer := Registers.buffer_of_perform hlooks hperform
    refine ⟨answer, { a with machine := m' }, m', ?_, hperform, rfl, ⟨c', hlater⟩,
      hI.buffer a m' ha hbuffer⟩
    rw [perform_of_not_looks hlooks, hperform]
    rfl

theorem run_inStep (hI : Keeps I) (ops : List Operation) :
    InStep (Attends I) (ops.mapM perform) (ops.mapM Registers.perform) :=
  .mapM (perform_inStep hI) ops

theorem buffering_attends (hI : Keeps I) {source : σ} {bufferSize : Nat} {m : Registers σ}
    (hm : Registers.buffering source bufferSize = .ok m)
    (hstart : I { machine := .holding source ⟨[], max bufferSize 1⟩ none }) :
    ∃ a, buffering source bufferSize = .ok a ∧ Attends I a m := by
  obtain ⟨_, hrequire, hrest⟩ := of_bind_eq_ok hm
  have hcapacity := of_require_eq_ok hrequire
  have hagrees : Registers.Agrees _ (Cursor.unread source (max bufferSize 1)) :=
    Registers.agrees_unread (by omega) hcapacity
  obtain ⟨b, a, m', ha, hm', hattends⟩ := peek_inStep hI 0 _ _ ⟨rfl, ⟨_, hagrees⟩, hstart⟩
  obtain ⟨_, hpeek, hlast⟩ := of_bind_eq_ok hrest
  cases hm'.symm.trans hpeek
  cases hlast
  refine ⟨a, ?_, hattends⟩
  rw [buffering, require_eq hcapacity]
  exact congrArg (· >>= fun p : UInt8 × Attended σ => .ok p.2) ha

/-- What holds before anything was read, and of what was taken over, holds of a machine opened. -/
theorem ofSource_attends (hI : Keeps I) {source : σ} {options : Options} {m : Registers σ}
    {c : Cursor σ} (hm : Registers.ofSource source options = .ok m) (hagrees : m.Agrees c)
    (hadopting : ∀ buffer rest, Source.takeAll source = (some buffer, rest) →
      I { machine := .holding rest buffer (some .eof) })
    (hunread : ∀ rest capacity, rest = source ∨ Source.takeAll source = (none, rest) →
      I { machine := .holding rest ⟨[], capacity⟩ none }) :
    ∃ a, ofSource source options = .ok a ∧ Attends I a m := by
  unfold Registers.ofSource at hm
  unfold ofSource
  by_cases hadopt : options.adopt = true
  · rw [if_pos hadopt] at hm ⊢
    rcases htake : Source.takeAll source with ⟨_ | buffer, rest⟩
    · rw [htake] at hm
      exact buffering_attends hI hm (hunread rest _ (.inr htake))
    · rw [htake] at hm
      cases hm
      exact ⟨_, rfl, rfl, ⟨c, hagrees⟩, hadopting buffer rest htake⟩
  · rw [if_neg hadopt] at hm ⊢
    exact buffering_attends hI hm (hunread source _ (.inl rfl))

end Attended
end StreamCursor
