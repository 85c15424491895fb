import StreamCursor.Proofs.Source.Retrying
import StreamCursor.Proofs.Source.View

/-! Devices without their interruptions. Main statements: a source that repeats interrupted reads
answers as a device that is never interrupted, and it hands the first failure of another kind on
as it is. -/

namespace StreamCursor

namespace ScriptStep

def interrupts : ScriptStep → Bool
  | .fail cause => cause.isInterruption
  | _ => false

/-- The step ends the stream with a failure, as an interruption does not. -/
def fails : ScriptStep → Bool
  | .fail cause => !cause.isInterruption
  | _ => false

end ScriptStep

namespace Script

/-- The script with all interruptions left out. -/
def uninterrupted (script : Script) : Script :=
  { script with steps := script.steps.filter (!·.interrupts) }

/-- The script with no record of the slots that it was handed. -/
def unrecorded (script : Script) : Script := { script with slots := [] }

@[simp] theorem uninterrupted_uninterrupted (script : Script) :
    script.uninterrupted.uninterrupted = script.uninterrupted := by
  simp [uninterrupted]

/-- What a script answers does not depend on its record. -/
theorem read_unrecorded (script : Script) (slot : Slot) :
    (script.unrecorded.read slot).1 = (script.read slot).1 ∧
      (script.unrecorded.read slot).2.unrecorded = (script.read slot).2.unrecorded := by
  rcases script with ⟨_ | ⟨step, steps⟩, scribble, whole, slots⟩
  · exact ⟨rfl, rfl⟩
  · cases step <;> exact ⟨rfl, rfl⟩

/-- A read that is not interrupted is the same where nothing ever is. -/
theorem read_uninterrupted {script : Script} (slot : Slot)
    (hhead : ∀ step ∈ script.steps.head?, step.interrupts = false) :
    script.uninterrupted.read slot =
      ((script.read slot).1, (script.read slot).2.uninterrupted) := by
  rcases script with ⟨_ | ⟨step, steps⟩, scribble, whole, slots⟩
  · rfl
  · have hkept : step.interrupts = false := hhead step rfl
    have hsteps : (step :: steps).filter (!·.interrupts) =
        step :: steps.filter (!·.interrupts) := by
      simp [hkept]
    simp only [uninterrupted, hsteps]
    cases step with
    | data bytes =>
      by_cases hrest : (bytes.drop slot.size).isEmpty
      · simp [read, noting, writing, hrest]
      · simp [read, noting, writing, hrest, ScriptStep.interrupts]
    | claim | nothing | fail => rfl

end Script

namespace Retrying

open Script

variable {device : Script} {steps : List ScriptStep}

theorem read_eq (source : Retrying) (slot : Slot) :
    source.read slot =
      (((pastInterruptions slot source.device.steps source.device).read slot).1,
        ⟨((pastInterruptions slot source.device.steps source.device).read slot).2,
          source.calls + 1⟩) :=
  rfl

/-- The interruptions that come next are gone after they were tried past. -/
theorem steps_pastInterruptions (slot : Slot) (hsteps : device.steps = steps) :
    (pastInterruptions slot steps device).steps = steps.dropWhile (·.interrupts) := by
  induction steps generalizing device with
  | nil => exact hsteps
  | cons step steps ih =>
    cases step with
    | data | claim | nothing => exact hsteps
    | fail cause =>
      by_cases hcause : cause.isInterruption
      · rw [pastInterruptions, if_pos hcause, ih rfl, List.dropWhile_cons_of_pos (by exact hcause)]
      · rw [pastInterruptions, if_neg hcause, hsteps, List.dropWhile_cons_of_neg (by exact hcause)]

/-- Trying past interruptions leaves the rest of the device alone. -/
theorem uninterrupted_pastInterruptions (slot : Slot) (hsteps : device.steps = steps) :
    (pastInterruptions slot steps device).uninterrupted.unrecorded =
      device.uninterrupted.unrecorded := by
  induction steps generalizing device with
  | nil => rfl
  | cons step steps ih =>
    cases step with
    | data | claim | nothing => rfl
    | fail cause =>
      by_cases hcause : cause.isInterruption
      · rw [pastInterruptions, if_pos hcause, ih rfl]
        simp [uninterrupted, unrecorded, noting, hsteps, ScriptStep.interrupts, hcause]
      · rw [pastInterruptions, if_neg hcause]

theorem head?_pastInterruptions (slot : Slot) (hsteps : device.steps = steps) :
    ∀ step ∈ (pastInterruptions slot steps device).steps.head?, step.interrupts = false := by
  intro step hstep
  rw [steps_pastInterruptions slot hsteps] at hstep
  have hkept := List.head?_dropWhile_not (·.interrupts) steps
  rw [Option.mem_def.1 hstep] at hkept
  exact hkept

end Retrying

namespace Retrying

/-- The device is still to fail with `cause`, for the first time, before it has `after` to bring, or
it has failed so. -/
inductive HeadsFor (cause : StreamEnd) (after : List ScriptStep) :
    Retrying → Option StreamEnd → Prop where
  | ahead {source : Retrying} {ended : Option StreamEnd} (left : List ScriptStep)
      (steps_eq : source.device.steps = left ++ .fail cause :: after)
      (quiet : ∀ step ∈ left, step.fails = false) (ended_eq : ended = none ∨ ended = some .eof) :
      HeadsFor cause after source ended
  | done {source : Retrying} (steps_eq : source.device.steps = after) :
      HeadsFor cause after source (some cause)

variable {cause : StreamEnd} {after : List ScriptStep} {source : Retrying} {device : Script}

theorem ending_of_ok {reply : Reply} {count : Nat} (slot : Slot) (h : reply.outcome = .ok count) :
    reply.ending slot = none ∨ reply.ending slot = some .eof := by
  rw [Reply.ending, h]
  dsimp only
  split
  · exact .inr rfl
  · exact .inl rfl

/-- A step that is no failure gives way to the next one, or to the rest of itself. -/
theorem read_of_not_fail {script : Script} {step : ScriptStep} {steps : List ScriptStep}
    (slot : Slot) (hsteps : script.steps = step :: steps) (hfails : step.fails = false)
    (hinterrupts : step.interrupts = false) :
    (∃ count, (script.read slot).1.outcome = .ok count) ∧
      ∃ rest, (script.read slot).2.steps = rest ++ steps ∧ ∀ step ∈ rest, step.fails = false := by
  unfold Script.read
  rw [hsteps]
  cases step with
  | data bytes =>
    refine ⟨⟨_, rfl⟩, if (bytes.drop slot.size).isEmpty then [] else [.data (bytes.drop slot.size)],
      ?_, ?_⟩
    · dsimp only
      split <;> rfl
    · split <;> simp [ScriptStep.fails]
  | claim | nothing => exact ⟨⟨_, rfl⟩, [], rfl, nofun⟩
  | fail cause => simp_all [ScriptStep.fails, ScriptStep.interrupts]

/-- Past the interruptions that come next, the failure is as far ahead as before. -/
theorem exists_left_pastInterruptions (hcause : cause.isInterruption = false)
    {left : List ScriptStep} (slot : Slot) (hsteps : device.steps = left ++ .fail cause :: after)
    (hquiet : ∀ step ∈ left, step.fails = false) :
    ∃ rest, (pastInterruptions slot device.steps device).steps = rest ++ .fail cause :: after ∧
      ∀ step ∈ rest, step.fails = false := by
  have hstop : (ScriptStep.fail cause :: after).dropWhile (·.interrupts) = .fail cause :: after :=
    List.dropWhile_cons_of_neg (by simpa [ScriptStep.interrupts] using hcause)
  refine ⟨left.dropWhile (·.interrupts), ?_, ?_⟩
  · rw [steps_pastInterruptions slot rfl, hsteps, List.dropWhile_append, hstop]
    split
    next hnil => rw [List.isEmpty_iff.1 hnil, List.nil_append]
    · rfl
  · intro step hstep
    exact hquiet step ((List.dropWhile_sublist _).subset hstep)

/-- A read that is not interrupted takes the device one step on, or to the failure. -/
theorem headsFor_of_ready {left : List ScriptStep} (slot : Slot) (calls : Nat)
    (hsteps : device.steps = left ++ .fail cause :: after)
    (hquiet : ∀ step ∈ left, step.fails = false)
    (hhead : ∀ step ∈ device.steps.head?, step.interrupts = false) :
    HeadsFor cause after ⟨(device.read slot).2, calls⟩ ((device.read slot).1.ending slot) := by
  cases left with
  | nil =>
    have hread : device.read slot =
        (⟨[], .error cause⟩, { device.noting slot with steps := after }) := by
      rw [Script.read, hsteps]
      rfl
    rw [hread]
    exact .done rfl
  | cons step rest =>
    rw [hsteps] at hhead
    rw [List.forall_mem_cons] at hquiet
    obtain ⟨⟨count, hok⟩, begun, hrest, hbegun⟩ :=
      read_of_not_fail slot hsteps hquiet.1 (hhead step rfl)
    refine .ahead (begun ++ rest) ?_ ?_ (ending_of_ok slot hok)
    · rw [List.append_assoc]
      exact hrest
    · rw [List.forall_mem_append]
      exact ⟨hbegun, hquiet.2⟩

theorem HeadsFor.read (h : HeadsFor cause after source none)
    (hcause : cause.isInterruption = false) (slot : Slot) :
    HeadsFor cause after (source.read slot).2 ((source.read slot).1.ending slot) := by
  generalize hended : (none : Option StreamEnd) = ended at h
  cases h with
  | done => cases hended
  | ahead left hsteps hquiet =>
    obtain ⟨rest, hrest, hkept⟩ := exists_left_pastInterruptions hcause slot hsteps hquiet
    exact headsFor_of_ready slot _ hrest hkept (head?_pastInterruptions slot rfl)

/-- What every read keeps of a device that has yet to fail. -/
def headingFor (hcause : cause.isInterruption = false) (after : List ScriptStep) :
    Feed Retrying where
  Holds source ended _ := HeadsFor cause after source ended
  takeAll h := h
  read h _ := h.read hcause _

end Retrying

/-- A device that is never interrupted, under a source that keeps no record of the slots. -/
structure Calm where
  device : Script
  calls : Nat

namespace Calm

open Script

def read (source : Calm) (slot : Slot) : Reply × Calm :=
  ((source.device.read slot).1, ⟨(source.device.read slot).2.unrecorded, source.calls + 1⟩)

instance : Source Calm where
  read := read

/-- What is seen of a source if nobody looks at its interruptions. -/
def ofRetrying (source : Retrying) : Calm :=
  ⟨source.device.uninterrupted.unrecorded, source.calls⟩

theorem ofRetrying_uninterrupted (device : Script) (calls : Nat) :
    ofRetrying ⟨device.uninterrupted, calls⟩ = ofRetrying ⟨device, calls⟩ := by
  simp [ofRetrying]

theorem read_ofRetrying (source : Retrying) (slot : Slot) :
    (ofRetrying source).read slot = ((source.read slot).1, ofRetrying (source.read slot).2) := by
  have hpast := Retrying.uninterrupted_pastInterruptions slot (Eq.refl source.device.steps)
  have hhead := Retrying.head?_pastInterruptions slot (Eq.refl source.device.steps)
  rw [Retrying.read_eq, read, ofRetrying, ofRetrying, ← hpast]
  -- What is read is read off the device past its interruptions.
  generalize Retrying.pastInterruptions slot source.device.steps source.device = ready at *
  obtain ⟨hreply, hdevice⟩ := ready.uninterrupted.read_unrecorded slot
  rw [read_uninterrupted slot hhead] at hreply hdevice
  rw [hreply, hdevice]

/-- Nothing but time is lost to interruptions. -/
def view : Source.View Retrying Calm where
  see := ofRetrying
  read := read_ofRetrying
  takeAll _ := rfl

end Calm

end StreamCursor
