import StreamCursor.Proofs.Source.Delivery
import StreamCursor.Source.Retrying

/-! Devices that bring a byte string in pieces and are interrupted now and then. Main statement: a
source that repeats interrupted reads delivers that string, whatever the pieces are. -/

namespace StreamCursor

namespace ScriptStep

/-- The bytes that the step brings. -/
def brings : ScriptStep → Bytes
  | .data bytes => bytes
  | _ => []

/-- The step brings bytes or interrupts the read. -/
def Steady : ScriptStep → Prop
  | .data bytes => bytes ≠ []
  | .fail cause => cause.isInterruption
  | _ => False

end ScriptStep

namespace Script

/-- All bytes that are still to come. -/
def left (script : Script) : Bytes := script.steps.flatMap ScriptStep.brings

/-- Every read brings bytes or is interrupted, until there are none. -/
def Steady (script : Script) : Prop := ∀ step ∈ script.steps, step.Steady

theorem delivered_writing (script : Script) {bytes : Bytes} {slot : Slot}
    (hfits : bytes.length ≤ slot.size) :
    (⟨script.writing bytes slot, .ok bytes.length⟩ : Reply).delivered slot = bytes := by
  obtain ⟨more, hwriting⟩ : ∃ more, script.writing bytes slot = bytes ++ more := by
    unfold writing
    split
    · exact ⟨[], (List.append_nil _).symm⟩
    · exact ⟨_, rfl⟩
  have htake : (bytes ++ more).take slot.size = bytes ++ more.take (slot.size - bytes.length) := by
    rw [List.take_append, List.take_of_length_le hfits]
  show (slot.overwrite (script.writing bytes slot)).take bytes.length = bytes
  rw [hwriting, Slot.take_eq, Slot.bytes_overwrite, htake, List.append_assoc, List.take_left]

variable {script : Script} {slot : Slot} {bytes : Bytes} {steps : List ScriptStep}

/-- A script that has bytes to bring brings as many as fit and keeps the others. -/
theorem read_data (slot : Slot) (hsteps : script.steps = .data bytes :: steps)
    (hsteady : script.Steady) :
    (script.read slot).1.delivered slot = bytes.take slot.size ∧
      bytes.take slot.size ++ (script.read slot).2.left = script.left ∧
      (script.read slot).2.Steady := by
  unfold Steady at hsteady
  rw [hsteps, List.forall_mem_cons] at hsteady
  unfold read left Steady
  rw [hsteps]
  refine ⟨script.delivered_writing (List.length_take_le ..), ?_, ?_⟩
  · show _ ++ (if (bytes.drop slot.size).isEmpty then steps
      else .data (bytes.drop slot.size) :: steps).flatMap ScriptStep.brings = _
    split
    next hempty =>
      rw [List.isEmpty_iff] at hempty
      have hall : bytes.take slot.size = bytes := by
        rw [← List.append_nil (bytes.take _), ← hempty, List.take_append_drop]
      rw [hall]
      rfl
    · rw [List.flatMap_cons, List.flatMap_cons, ← List.append_assoc]
      exact congrArg (· ++ _) (List.take_append_drop ..)
  · show ∀ step ∈ if (bytes.drop slot.size).isEmpty then steps
      else .data (bytes.drop slot.size) :: steps, step.Steady
    split
    · exact hsteady.2
    next hrest =>
      rw [List.forall_mem_cons]
      exact ⟨fun hnil => hrest (List.isEmpty_iff.2 hnil), hsteady.2⟩

theorem ending_read_data (hsteps : script.steps = .data bytes :: steps) (hne : bytes ≠ [])
    (hslot : 0 < slot.size) : (script.read slot).1.ending slot = none := by
  have hdelivered := script.delivered_writing (List.length_take_le slot.size bytes)
  have htake : bytes.take slot.size ≠ [] := by
    rw [Ne, List.take_eq_nil_iff]
    rintro (hzero | hnil)
    · omega
    · exact hne hnil
  unfold read
  rw [hsteps]
  dsimp only [Reply.ending]
  rw [hdelivered, if_neg (mt List.isEmpty_iff.1 htake)]

/-- A script that has come to its end brings nothing and ends the stream. -/
theorem read_nil (slot : Slot) (hsteps : script.steps = []) :
    (script.read slot).1.delivered slot = [] ∧ (script.read slot).1.ending slot = some .eof := by
  have hempty : (⟨[], .ok 0⟩ : Reply).delivered slot = [] := by
    show (slot.overwrite []).take 0 = []
    rw [Slot.take_eq, List.take_zero]
  unfold read
  rw [hsteps]
  exact ⟨hempty, by simp [Reply.ending, hempty]⟩

end Script

namespace Retrying

variable {slot : Slot} {steps : List ScriptStep} {device : Script}

/-- Past the interruptions, the device has bytes to bring or nothing left. -/
theorem pastInterruptions_steady (slot : Slot) (hsteps : device.steps = steps)
    (hsteady : device.Steady) :
    (pastInterruptions slot steps device).left = device.left ∧
      (pastInterruptions slot steps device).Steady ∧
      ((pastInterruptions slot steps device).steps = [] ∨
        ∃ bytes more, bytes ≠ [] ∧
          (pastInterruptions slot steps device).steps = .data bytes :: more) := by
  induction steps generalizing device with
  | nil => exact ⟨rfl, hsteady, .inl hsteps⟩
  | cons step steps ih =>
    have hmem := hsteady
    unfold Script.Steady at hmem
    rw [hsteps, List.forall_mem_cons] at hmem
    cases step with
    | data bytes => exact ⟨rfl, hsteady, .inr ⟨bytes, steps, hmem.1, hsteps⟩⟩
    | claim bytes count => cases hmem.1
    | nothing => cases hmem.1
    | fail cause =>
      have hcause : cause.isInterruption := hmem.1
      have hleft : Script.left { device.noting slot with steps } = device.left := by
        rw [Script.left, Script.left, hsteps]
        rfl
      rw [pastInterruptions, if_pos hcause, ← hleft]
      exact ih rfl hmem.2

/-- The source is delivering `data`, or has delivered it and ended. -/
inductive Delivers (data : Bytes) : Retrying → Option StreamEnd → Bytes → Prop where
  | going {source : Retrying} {delivered : Bytes} (steady : source.device.Steady)
      (left_eq : delivered ++ source.device.left = data) : Delivers data source none delivered
  | done {source : Retrying} : Delivers data source (some .eof) data

theorem Delivers.read {data delivered : Bytes} {source : Retrying}
    (h : Delivers data source none delivered) (hslot : 0 < slot.size) :
    Delivers data (source.read slot).2 ((source.read slot).1.ending slot)
      (delivered ++ (source.read slot).1.delivered slot) := by
  obtain ⟨hsteady, hdata⟩ := h
  obtain ⟨hleft, hready, hsteps⟩ := pastInterruptions_steady slot rfl hsteady
  have hreply : (source.read slot).1 =
      ((pastInterruptions slot source.device.steps source.device).read slot).1 := rfl
  have hdevice : (source.read slot).2.device =
      ((pastInterruptions slot source.device.steps source.device).read slot).2 := rfl
  rw [hreply]
  rw [← hleft] at hdata
  -- What is read is read off the device past its interruptions.
  generalize pastInterruptions slot source.device.steps source.device = ready at *
  rcases hsteps with hnil | ⟨bytes, more, hne, hcons⟩
  · obtain ⟨hdelivered, hending⟩ := Script.read_nil slot hnil
    rw [Script.left, hnil, List.flatMap_nil, List.append_nil] at hdata
    rw [hending, hdelivered, hdata, List.append_nil]
    exact .done
  · obtain ⟨hdelivered, hsplit, hsteady⟩ := Script.read_data slot hcons hready
    rw [Script.ending_read_data hcons hne hslot, hdelivered]
    refine .going (hdevice ▸ hsteady) ?_
    rw [hdevice, List.append_assoc, hsplit, hdata]

/-- A steady device behind the source brings its bytes, and then there are no more. -/
def delivery (data : Bytes) : Delivery Retrying where
  Holds := Delivers data
  takeAll h := h
  read h hslot := h.read hslot
  data
  cause := .eof
  isPrefix h := by
    cases h with
    | going _ left_eq => exact ⟨_, left_eq⟩
    | done => exact List.prefix_rfl
  complete h hended := by
    cases h with
    | going => cases hended
    | done => exact ⟨rfl, rfl⟩

end Retrying
end StreamCursor
