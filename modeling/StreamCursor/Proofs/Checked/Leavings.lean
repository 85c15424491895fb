import StreamCursor.Proofs.Checked.Attended

/-! What a source finds in the slots that it is handed. Main statement: these are the places of the
buffer behind the bytes that have arrived, and in them is what the source left there since the
buffer was exchanged, and zero elsewhere. -/

namespace StreamCursor

namespace Slot

variable {slot rest : Slot} {n i : Nat}

/-- The byte at a place of the slot. Behind its front there is nothing but zeros. -/
def byteAt (slot : Slot) (i : Nat) : UInt8 := slot.front[i]?.getD 0

theorem getElem?_bytes (h : i < slot.size) : slot.bytes[i]? = some (slot.byteAt i) := by
  unfold bytes byteAt Bytes.zeros
  by_cases hi : i < slot.front.length
  · rw [List.getElem?_append_left hi, List.getElem?_eq_getElem hi, Option.getD_some]
  · have hle := Nat.le_of_not_lt hi
    rw [List.getElem?_append_right hle, List.getElem?_replicate_of_lt (by omega),
      List.getElem?_eq_none hle, Option.getD_none]

theorem byteAt_of_le (h : slot.front.length ≤ i) : slot.byteAt i = 0 := by
  rw [byteAt, List.getElem?_eq_none h, Option.getD_none]

@[simp] theorem byteAt_grow : (slot.grow n).byteAt i = slot.byteAt i := rfl

@[simp] theorem byteAt_drop : (slot.drop n).byteAt i = slot.byteAt (n + i) := by
  simp [byteAt, drop]

theorem byteAt_overwrite (written : Bytes) :
    (slot.overwrite written).byteAt i = (written.take slot.size)[i]?.getD (slot.byteAt i) := by
  unfold byteAt overwrite
  by_cases hi : i < (written.take slot.size).length
  · rw [List.getElem?_append_left hi, List.getElem?_eq_getElem hi, Option.getD_some,
      Option.getD_some]
  · have hle := Nat.le_of_not_lt hi
    rw [List.getElem?_append_right hle, List.getElem?_drop, Nat.add_sub_cancel' hle,
      List.getElem?_eq_none hle, Option.getD_none]

theorem byteAt_splice (h : n ≤ slot.size) :
    (slot.splice n rest).byteAt (n + i) = rest.byteAt i := by
  have hlength : (slot.take n).length = n := by
    rw [take_eq, List.length_take_of_le (by rwa [length_bytes])]
  unfold byteAt splice
  rw [List.getElem?_append_right (by omega), hlength, Nat.add_sub_cancel_left]

theorem bytes_of_front_eq_nil (h : slot.front = []) : slot.bytes = Bytes.zeros slot.size := by
  simp [bytes, h]

end Slot

variable {σ : Type} [Source σ]

namespace Visit

/-- What the source writes at a place of the buffer, if it writes there. -/
def wrote? (v : Visit σ) (place : Nat) : Option UInt8 :=
  if place < v.machine.stop then none
  else (v.reply.written.take v.slot.size)[place - v.machine.stop]?

/-- Whether the source writes no more than it delivers. -/
def Frugal (v : Visit σ) : Prop :=
  (v.reply.written.take v.slot.size).length ≤ v.delivered.length

end Visit

/-- What the source wrote last at a place of the buffer since that was exchanged. -/
def lastWritten? (visits : List (Visit σ)) (place : Nat) : Option UInt8 :=
  visits.foldl (fun last v => (v.wrote? place).or (if v.fresh then none else last)) none

/-- What the source can find at a place of its next slot of what it wrote in earlier reads. -/
def Visit.leavings? (v : Visit σ) (before : List (Visit σ)) (place : Nat) : Option UInt8 :=
  if v.fresh then none else lastWritten? before place

theorem lastWritten?_concat (visits : List (Visit σ)) (v : Visit σ) (place : Nat) :
    lastWritten? (visits ++ [v]) place = (v.wrote? place).or (v.leavings? visits place) := by
  rw [lastWritten?, List.foldl_append]
  rfl

/-- The buffer has behind the bytes that have arrived what the source left there, and so had the
slots that it was handed before. -/
structure Leaves (a : Attended σ) : Prop where
  left : ∀ place, a.machine.stop ≤ place →
    a.machine.content.byteAt place = (lastWritten? a.visits place).getD 0
  handed : ∀ before v, before ++ [v] <+: a.visits →
    v.machine.Ordered ∧ ∀ i, v.slot.byteAt i = (v.leavings? before (v.machine.stop + i)).getD 0
  clear : (∀ v ∈ a.visits, v.Frugal) → a.machine.content.front.length ≤ a.machine.stop ∧
    ∀ v ∈ a.visits, v.slot.bytes = Bytes.zeros v.slot.size

namespace Leaves

variable {a : Attended σ} {v : Visit σ}

theorem byteAt_slot (h : Leaves a) (hready : a.machine.Prepares v) (i : Nat) :
    v.slot.byteAt i = (v.leavings? a.visits (v.machine.stop + i)).getD 0 := by
  simp only [Visit.slot, Registers.grown, Slot.byteAt_drop, Slot.byteAt_grow, Visit.leavings?]
  cases hfresh : v.fresh with
  | true =>
    have hcleared := hready.cleared hfresh
    exact Slot.byteAt_of_le (by omega)
  | false =>
    rw [hready.kept hfresh]
    exact h.left _ (Nat.le_add_right ..)

theorem front_slot (h : Leaves a) (hready : a.machine.Prepares v)
    (hfrugal : ∀ v ∈ a.visits, v.Frugal) : v.slot.front = [] := by
  apply List.drop_eq_nil_of_le
  change v.machine.content.front.length ≤ v.machine.stop
  cases hfresh : v.fresh with
  | true => exact hready.cleared hfresh
  | false =>
    rw [hready.kept hfresh]
    exact (h.clear hfrugal).1

theorem start {machine : Registers σ} (h : machine.content.front.length ≤ machine.stop) :
    Leaves { machine } := by
  refine ⟨fun place hplace => ?_, fun before v hvisits => ?_, fun _ => ⟨h, List.forall_mem_nil _⟩⟩
  · exact Slot.byteAt_of_le (Nat.le_trans h hplace)
  · simp at hvisits

omit [Source σ] in
theorem stop_le (hready : a.machine.Prepares v) :
    v.machine.stop ≤ v.machine.grown.content.size := by
  rw [hready.ordered.size_grown]
  exact Nat.le_of_lt hready.room

theorem read (h : Leaves a) (hready : a.machine.Prepares v) :
    Leaves { machine := v.after, visits := a.visits ++ [v] } := by
  have hstop := stop_le hready
  refine ⟨fun place hplace => ?_, fun before u hvisits => ?_, fun hfrugal => ?_⟩
  · have hle : v.machine.stop ≤ place := Nat.le_trans (Nat.le_add_right ..) hplace
    obtain ⟨i, rfl⟩ := Nat.exists_eq_add_of_le hle
    change (v.machine.grown.content.splice v.machine.stop (v.reply.leaves v.slot)).byteAt _ = _
    have hwrote : v.wrote? (v.machine.stop + i) = (v.reply.written.take v.slot.size)[i]? := by
      rw [Visit.wrote?, if_neg (Nat.not_lt.2 (Nat.le_add_right ..)), Nat.add_sub_cancel_left]
    rw [Slot.byteAt_splice hstop, Reply.leaves, Slot.byteAt_overwrite, h.byteAt_slot hready,
      lastWritten?_concat, Option.getD_or, hwrote]
  · rcases List.prefix_concat_iff.1 hvisits with hlast | hearlier
    · obtain ⟨rfl, hu⟩ := List.append_inj' hlast rfl
      cases hu
      exact ⟨hready.ordered, h.byteAt_slot hready⟩
    · exact h.handed before u hearlier
  · simp only [List.forall_mem_append, List.forall_mem_singleton] at hfrugal ⊢
    obtain ⟨hbefore, hv⟩ := hfrugal
    have hfront := h.front_slot hready hbefore
    refine ⟨?_, (h.clear hbefore).2, Slot.bytes_of_front_eq_nil hfront⟩
    have hwritten : (v.reply.written.take v.slot.size).length ≤ v.delivered.length := hv
    have hkept : (v.machine.grown.content.take v.machine.stop).length = v.machine.stop := by
      rw [Slot.take_eq, List.length_take_of_le (by rwa [Slot.length_bytes])]
    change (v.machine.grown.content.take v.machine.stop ++
      (v.reply.written.take v.slot.size ++ v.slot.front.drop _)).length ≤
        v.machine.stop + v.delivered.length
    simp only [hfront, List.drop_nil, List.append_nil, List.length_append, hkept]
    omega

theorem buffer (h : Leaves a) {machine : Registers σ} (hbuffer : machine.buffer = a.machine.buffer) :
    Leaves { a with machine } := by
  have hcontent : machine.content = a.machine.content := congrArg (·.2.2.1) hbuffer
  have hstop : machine.stop = a.machine.stop := congrArg (·.2.2.2.2) hbuffer
  refine ⟨fun place hplace => ?_, h.handed, fun hfrugal => ?_⟩
  · rw [hcontent]
    exact h.left place (hstop ▸ hplace)
  · rw [hcontent, hstop]
    exact h.clear hfrugal

end Leaves

/-- The reads that were recorded are those that the source was asked for. -/
def OnRecord (a : Attended (Recorder σ)) : Prop :=
  a.machine.source.reads = a.visits.map fun v => (v.slot, v.reply)

namespace OnRecord

variable {a : Attended (Recorder σ)}

theorem read {v : Visit (Recorder σ)} (h : OnRecord a) (hready : a.machine.Prepares v) :
    OnRecord { machine := v.after, visits := a.visits ++ [v] } := by
  have hreads : v.after.source.reads = v.machine.source.reads ++ [(v.slot, v.reply)] := rfl
  have hbefore : v.machine.source.reads = a.visits.map fun v => (v.slot, v.reply) := by
    rw [hready.source_eq]
    exact h
  unfold OnRecord
  rw [hreads, hbefore, List.map_append]
  rfl

theorem buffer (h : OnRecord a) {machine : Registers (Recorder σ)}
    (hbuffer : machine.buffer = a.machine.buffer) : OnRecord { a with machine } := by
  have hsource : machine.source = a.machine.source := congrArg (·.1) hbuffer
  unfold OnRecord
  rw [hsource]
  exact h

end OnRecord

namespace Attended

theorem keeps_leaves : Keeps fun a : Attended (Recorder σ) => Leaves a ∧ OnRecord a where
  read _ _ h _ hready := ⟨h.1.read hready, h.2.read hready⟩
  buffer _ _ h hbuffer := ⟨h.1.buffer hbuffer, h.2.buffer hbuffer⟩

theorem ofSource_leaves {source : σ} {options : Options} {m : Registers (Recorder σ)}
    {c : Cursor (Recorder σ)} (hm : Registers.ofSource { source } options = .ok m)
    (hagrees : m.Agrees c) :
    ∃ a, ofSource { source } options = .ok a ∧ Attends (fun a => Leaves a ∧ OnRecord a) a m := by
  have hreads : ∀ rest buffer?, Source.takeAll ({ source } : Recorder σ) = (buffer?, rest) →
      rest.reads = [] := by
    intro rest buffer? htake
    exact (congrArg (·.2.reads) htake).symm
  refine ofSource_attends keeps_leaves hm hagrees ?_ ?_
  · intro buffer rest htake
    exact ⟨Leaves.start (Nat.le_refl _), hreads rest _ htake⟩
  · intro rest capacity hrest
    refine ⟨Leaves.start (Nat.le_refl _), ?_⟩
    rcases hrest with rfl | htake
    · rfl
    · exact hreads rest _ htake

/-- Whatever the source does, each slot that it is handed is all of the buffer in use that lies
behind the bytes that have arrived. At each place of it is the byte that the source wrote there last
since the buffer was exchanged, and zero if it wrote none, so that nothing of what was delivered
before shows in a buffer that serves again. A source that writes no more than it delivers is handed
nothing but zeros. -/
theorem run_exposes_leavings {source : σ} {options : Options} {opened : Cursor σ}
    (hopen : Cursor.ofSource source options = .ok opened)
    (hwhole : ∀ buffer rest, Source.takeAll source = (some buffer, rest) →
      buffer.size ≤ buffer.capacity ∧ buffer.capacity ≤ maxCapacity) (ops : List Operation) :
    ∃ (first last : Attended (Recorder σ)) (start : Cursor (Recorder σ))
      (h : History (Recorder σ)),
      ofSource { source } options = .ok first ∧ ops.mapM perform first = .ok (h.answers, last) ∧
      Registers.ofSource { source } options = .ok first.machine ∧
      ops.mapM Registers.perform first.machine = .ok (h.answers, last.machine) ∧
      Cursor.ofSource { source } options = .ok start ∧
      History.run { cursor := start } ops = .ok h ∧
      History.run { cursor := opened } ops = .ok (h.mapSource Recorder.source) ∧
      last.machine.source.reads = last.visits.map (fun v => (v.slot, v.reply)) ∧
      (∀ before v, before ++ [v] <+: last.visits →
        v.machine.grown.content.size = v.machine.capacity ∧
        v.slot.bytes = v.machine.grown.content.bytes.drop v.machine.stop ∧
        v.slot.size = v.machine.capacity - v.machine.stop ∧
        ∀ i, i < v.slot.size →
          v.slot.bytes[i]? = some ((v.leavings? before (v.machine.stop + i)).getD 0)) ∧
      ((∀ v ∈ last.visits, v.Frugal) →
        ∀ v ∈ last.visits, v.slot.bytes = Bytes.zeros v.slot.size) := by
  obtain ⟨m, _, start, h, hm, hmachine, hstart, hrun, hplain, hagrees, -, -⟩ :=
    Registers.run_recorded hopen hwhole ops
  obtain ⟨first, hfirst, hattends⟩ := ofSource_leaves hm hagrees
  obtain rfl : first.machine = m := hattends.machine_eq
  obtain ⟨answers, last, later, hlast, hmachine', rfl, -, hleaves, hreads⟩ :=
    run_inStep keeps_leaves ops first first.machine hattends
  cases hmachine.symm.trans hmachine'
  refine ⟨first, last, start, h, hfirst, hlast, hm, hmachine, hstart, hrun, hplain, hreads, ?_,
    fun hfrugal => (hleaves.clear hfrugal).2⟩
  intro before v hvisits
  obtain ⟨hordered, hbytes⟩ := hleaves.handed before v hvisits
  have hgrown := hordered.size_grown
  refine ⟨hgrown, Slot.bytes_drop .., congrArg (· - v.machine.stop) hgrown, fun i hi => ?_⟩
  rw [Slot.getElem?_bytes hi, hbytes i]

/-- A source that delivers little at a time, and fills the rest of every slot. -/
def scribbling : Script where
  steps := [.data [1], .data [2], .data [3, 4]]
  scribble := some 238

/-- Two reads into one buffer, and one after which that serves again. -/
def rereads : List Operation := [.peek 1, .move 2, .take, .release, .peek 2]

/-- The second read finds what the first one left. The third finds nothing in the same buffer. -/
theorem run_exposes_leavings_scribbling :
    ∃ (first last : Attended (Recorder Script)) (u v : Visit (Recorder Script))
      (rest : List (Visit (Recorder Script))),
      ofSource { source := scribbling } { bufferSize := 4, adopt := false } = .ok first ∧
      rereads.mapM perform first =
        .ok ([.byte 2, .nothing, .bytes [1, 2], .nothing, .byte 0], last) ∧
      last.visits = u :: v :: rest ∧ last.machine.pool.blocks.size = 0 ∧
      last.visits.map (fun v => (v.fresh, v.machine.stop, v.slot.bytes)) =
        [(false, 0, [0, 0, 0, 0]), (false, 1, [238, 238, 238]), (true, 0, [0, 0, 0, 0]),
          (false, 2, [238, 238])] ∧
      last.machine.source.reads = last.visits.map (fun v => (v.slot, v.reply)) ∧
      v.slot.bytes[2]? = some ((lastWritten? [u] 3).getD 0) := by
  have hopen : Cursor.ofSource scribbling { bufferSize := 4, adopt := false } = .ok _ := rfl
  have hwhole : scribbling.whole = none := rfl
  obtain ⟨first, last, start, h, hfirst, hlast, -, -, hstart, hrun, -, hreads, hslots, -⟩ :=
    run_exposes_leavings hopen (Script.takeAll_meets hwhole) rereads
  cases hstart
  cases hrun
  have hshown : (ofSource ({ source := scribbling } : Recorder Script)
      { bufferSize := 4, adopt := false } >>= fun first => (rereads.mapM perform first).map fun p =>
        (p.2.machine.pool.blocks.size,
          p.2.visits.map fun v => (v.fresh, v.machine.stop, v.slot.bytes))).toOption =
      some (0, [(false, 0, [0, 0, 0, 0]), (false, 1, [238, 238, 238]), (true, 0, [0, 0, 0, 0]),
        (false, 2, [238, 238])]) := by
    decide +kernel
  rw [hfirst] at hshown
  change ((rereads.mapM perform first).map _).toOption = _ at hshown
  rw [hlast] at hshown
  obtain ⟨hblocks, hvisits⟩ : last.machine.pool.blocks.size = 0 ∧ _ = _ := by
    simpa only [Except.map, Except.toOption, Option.some.injEq, Prod.mk.injEq] using hshown
  obtain ⟨u, tail, hcons, -, htail⟩ := List.map_eq_cons_iff.1 hvisits
  obtain ⟨v, rest, rfl, hv, -⟩ := List.map_eq_cons_iff.1 htail
  simp only [Prod.mk.injEq] at hv
  obtain ⟨hkept, hstop, hbytes⟩ := hv
  have hsize : v.slot.size = 3 := by
    rw [← Slot.length_bytes, hbytes]
    rfl
  have hsecond := (hslots [u] v ⟨rest, hcons.symm⟩).2.2.2 2 (by omega)
  rw [Visit.leavings?, hkept, hstop] at hsecond
  exact ⟨first, last, u, v, rest, hfirst, hlast, hcons, hblocks, hvisits, hreads, hsecond⟩

end Attended
end StreamCursor
