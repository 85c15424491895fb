import StreamCursor.Proofs.Checked.History
import StreamCursor.Proofs.Checked.Visits
import StreamCursor.Proofs.History.Ending

/-! How much a peek reads. Main statement: nothing at all if the byte has arrived, the stream has
ended or no buffer could hold the byte, and otherwise no more than it takes to find the byte or the
end, in at most as many reads as there are bytes missing. -/

namespace StreamCursor
namespace Registers

variable {σ : Type} [Source σ]

namespace Agrees

variable {m m' : Registers (Recorder σ)} {c : Cursor (Recorder σ)} {stream : Bytes}
  {freed k : Nat} {b : UInt8}

theorem arrived_eq_length (h : m.Agrees c) (hc : c.Faithful (Recorder.feed σ) stream freed) :
    m.arrived = m.source.stream.length := by
  obtain ⟨hsource, -, -, harrived⟩ := h.fields
  have hfed : c.source.stream = stream := hc.fed
  rw [harrived, hsource, hfed, hc.arrived_eq]

/-- A peek for a byte that a buffer can hold ends with the byte or with the end. -/
theorem found_or_ended (h : m.Agrees c) (hc : c.Faithful (Recorder.feed σ) stream freed)
    (hreach : m.position + k < maxCapacity) (hpeek : m.peek k = .ok (b, m')) :
    (m.offset + k < m'.arrived ∧ m'.source.stream[m.offset + k]? = some b) ∨
      (m'.ended.isSome ∧ m'.arrived ≤ m.offset + k ∧ b = 0) := by
  obtain ⟨_, _, c', hm, hpeek', hagrees⟩ := h.peek k
  cases hpeek.symm.trans hm
  obtain ⟨later, part, hlook, hlater, hstop⟩ := hc.peek k
  cases hpeek'.symm.trans hlook
  have hfed : c'.source.stream = stream ++ part := hlater.faithful.fed
  obtain ⟨hsource, hended, -, -⟩ := hagrees.fields
  have harrived := hagrees.arrived_eq_length hlater.faithful
  rw [hsource, hfed] at harrived
  rw [hsource, hended, hfed, harrived, h.offsets.1]
  by_cases hlt : c.offset + k < (stream ++ part).length
  · exact .inl ⟨hlt, by simp [List.getElem?_eq_getElem hlt]⟩
  · refine .inr ⟨?_, Nat.le_of_not_lt hlt, by simp [List.getElem?_eq_none (Nat.le_of_not_lt hlt)]⟩
    rw [h.fields.2.2.1] at hreach
    exact (hstop.resolve_left (Nat.not_le.2 hreach)).resolve_right hlt

theorem peek_idle (h : m.Agrees c) (hdone : m.offset + k < m.arrived ∨ m.ended.isSome ∨
    maxCapacity ≤ m.position + k) : ∃ b, m.peek k = .ok (b, m) := by
  obtain ⟨b, m', c', hpeek, -, -⟩ := h.peek k
  rcases hdone with hlt | hended | hbeyond
  · obtain ⟨-, rfl⟩ := (h.visited hpeek).of_done (.inr hlt)
    exact ⟨b, hpeek⟩
  · obtain ⟨-, rfl⟩ := (h.visited hpeek).of_done (.inl hended)
    exact ⟨b, hpeek⟩
  · exact ⟨0, peek_of_beyond hbeyond⟩

end Agrees

/-- A cursor that adopts nothing is opened by one read into the whole buffer. -/
theorem reads_of_not_adopts {source : σ} {options : Options} {opened : Cursor (Recorder σ)}
    (hopen : Cursor.ofSource ({ source } : Recorder σ) options = .ok opened)
    (hadopts : Cursor.adopts source options = false) :
    ∃ slot reply, opened.source.reads = [(slot, reply)] ∧
      slot.size = max options.bufferSize 1 := by
  obtain ⟨-, rest, b, hrest, hpeek⟩ := Cursor.opening_of_not_adopts hopen hadopts
  have hpos : 0 < max options.bufferSize 1 := by omega
  obtain ⟨_, hread⟩ := Cursor.peek_unread rest hpos
  cases hpeek.symm.trans hread
  have hunread : rest.reads = [] := by
    rcases hrest with ⟨-, rfl⟩ | ⟨-, htake⟩
    · rfl
    · exact (congrArg (·.2.reads) htake).symm
  have hreads := congrArg Recorder.reads (Cursor.source_read
    ((Cursor.unread rest (max options.bufferSize 1)).log
      [.toppingUp 0 (max options.bufferSize 1)]))
  change _ = rest.reads ++ [(Slot.blank (max options.bufferSize 1), _)] at hreads
  rw [hreads, hunread]
  exact ⟨_, _, rfl, rfl⟩

/-- Whatever the source does, every peek comes to an end. It leaves the machine alone if the byte
was delivered before, if the stream has ended or if no buffer could hold the byte. Otherwise it
reads at least once and at most once for every byte that is missing. Each read is given some room,
and it is made only while the byte is still missing and the stream has not ended. In the end the
byte has arrived, or the stream has ended before it and zero is shown. Opening a cursor that adopts
nothing takes one read into a buffer of the size asked for. -/
theorem run_reads_on_demand {source : σ} {options : Options} {opened : Cursor σ}
    (hopen : Cursor.ofSource source options = .ok opened)
    (hwhole : ∀ buffer rest, Source.takeAll source = (some buffer, rest) →
      buffer.size ≤ buffer.capacity ∧ buffer.capacity ≤ maxCapacity) (ops : List Operation) :
    ∃ (first last : Registers (Recorder σ)) (start : Cursor (Recorder σ))
      (h : History (Recorder σ)),
      ofSource { source } options = .ok first ∧ ops.mapM perform first = .ok (h.answers, last) ∧
      Cursor.ofSource { source } options = .ok start ∧
      History.run { cursor := start } ops = .ok h ∧
      History.run { cursor := opened } ops = .ok (h.mapSource Recorder.source) ∧
      (Cursor.adopts source options = false → ∃ slot reply,
        first.source.reads = [(slot, reply)] ∧ slot.size = max options.bufferSize 1) ∧
      last.arrived = last.source.stream.length ∧
      ∀ k,
        ((last.offset + k < last.source.stream.length ∨ last.ended.isSome ∨
            maxCapacity ≤ last.position + k) → ∃ b, last.peek k = .ok (b, last)) ∧
        (¬(last.offset + k < last.source.stream.length ∨ last.ended.isSome ∨
            maxCapacity ≤ last.position + k) → ∃ b m', last.peek k = .ok (b, m') ∧
          m'.source.reads =
            last.source.reads ++ (last.visits k).map (fun v => (v.slot, v.reply)) ∧
          last.visits k ≠ [] ∧ (last.visits k).length ≤ last.position + k + 1 - last.stop ∧
          (∀ v ∈ last.visits k, 0 < v.slot.size ∧ v.machine.ended = none ∧
            v.machine.offset = last.offset ∧ v.machine.arrived ≤ last.offset + k) ∧
          ((last.offset + k < m'.arrived ∧ m'.source.stream[last.offset + k]? = some b) ∨
            (m'.ended.isSome ∧ m'.arrived ≤ last.offset + k ∧ b = 0))) := by
  obtain ⟨first, last, start, h, hfirst, hmachine, hstart, hrun, hplain, hagrees, hlast, hvalid⟩ :=
    run_recorded hopen hwhole ops
  have hfaithful := hvalid.faithful
  have harrived := hlast.arrived_eq_length hfaithful
  refine ⟨first, last, start, h, hfirst, hmachine, hstart, hrun, hplain, ?_, harrived,
    fun k => ⟨?_, ?_⟩⟩
  · intro hadopts
    rw [hagrees.fields.1]
    exact reads_of_not_adopts hstart hadopts
  · rw [← harrived]
    exact hlast.peek_idle
  · intro hneeded
    obtain ⟨hmissing, hmore⟩ := not_or.1 hneeded
    obtain ⟨hunended, hreach⟩ := not_or.1 hmore
    obtain ⟨b, m', c', hpeek, -, -⟩ := hlast.peek k
    have hfetched := hlast.visited hpeek
    have hfound := hlast.found_or_ended hfaithful (Nat.lt_of_not_le hreach) hpeek
    refine ⟨b, m', hpeek, hfetched.reads, ?_, ?_, hfetched.of_mem, hfound⟩
    · intro hnone
      rw [hnone] at hfetched
      cases hfetched
      rw [← harrived] at hmissing
      rcases hfound with ⟨hlt, -⟩ | ⟨hended, -⟩
      · exact hmissing hlt
      · exact hunended hended
    · have hle := hfetched.length_le
      simp only [offset, arrived] at hle
      omega

/-- A source that delivers one byte at a time, and comes to its end early. -/
def trickling : Script where
  steps := [.data [1], .data [2], .data [3], .nothing, .data [4]]

/-- The first of three reads is made into a new buffer, and the last one ends the stream. -/
theorem run_reads_on_demand_trickling :
    ∃ first last m' : Registers (Recorder Script),
      ofSource { source := trickling } { bufferSize := 2, adopt := false } = .ok first ∧
      [Operation.move 1].mapM perform first = .ok ([.nothing], last) ∧
      (∃ slot reply, first.source.reads = [(slot, reply)] ∧ slot.size = 2) ∧
      last.peek 4 = .ok (0, m') ∧ last.visits 4 ≠ [] ∧ (last.visits 4).length ≤ 5 ∧
      (last.visits 4).map (fun v => (v.fresh, v.slot.size)) =
        [(true, 8), (false, 7), (false, 6)] ∧
      (∀ v ∈ last.visits 4, 0 < v.slot.size ∧ v.machine.arrived ≤ 5) ∧ m'.ended = some .eof ∧
      ∃ b, last.peek 9223372036854775806 = .ok (b, last) := by
  have hopen : Cursor.ofSource trickling { bufferSize := 2, adopt := false } = .ok _ := rfl
  have hwhole : trickling.whole = none := rfl
  obtain ⟨first, last, start, h, hfirst, hlast, hstart, hrun, -, hone, -, hpeeks⟩ :=
    run_reads_on_demand hopen (Script.takeAll_meets hwhole) [.move 1]
  cases hstart
  cases hrun
  cases hfirst
  cases hlast
  obtain ⟨b, m', hpeek, -, hne, hlength, hvisits, -⟩ := (hpeeks 4).2 (by decide)
  cases hpeek
  exact ⟨_, _, _, rfl, rfl, hone rfl, rfl, hne, hlength, rfl,
    fun v hv => ⟨(hvisits v hv).1, (hvisits v hv).2.2.2⟩, rfl,
    (hpeeks 9223372036854775806).1 (by decide)⟩

end Registers
end StreamCursor
