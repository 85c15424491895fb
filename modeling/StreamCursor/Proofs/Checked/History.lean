import StreamCursor.Proofs.Checked.Agreement
import StreamCursor.Proofs.History.Rules
import StreamCursor.Proofs.History.Tracking

/-! Any history of a cursor on the checked machine. Main statement: no check ever fails, whatever
the source does and whatever is asked, and the indices keep their order. -/

namespace StreamCursor

/-- A script that has nothing to hand over hands nothing over. -/
theorem Script.takeAll_meets {script : Script} (h : script.whole = none) {P : Buffer → Prop}
    (buffer : Buffer) (rest : Script) (htake : Source.takeAll script = (some buffer, rest)) :
    P buffer := by
  have hnone : (Source.takeAll script).1 = none := by simp [Source.takeAll, h]
  rw [htake] at hnone
  cases hnone

namespace Registers

variable {σ : Type} [Source σ] {m : Registers σ}

/-- The machine goes through a history of the cursor and gives its answers. -/
theorem run_agrees {h : History σ} (hagrees : m.Agrees h.cursor) (ops : List Operation) :
    ∃ answers m' h', ops.mapM perform m = .ok (answers, m') ∧ h.run ops = .ok h' ∧
      h'.answers = h.answers ++ answers ∧ m'.Agrees h'.cursor := by
  induction ops generalizing m h with
  | nil => exact ⟨[], m, h, rfl, rfl, (List.append_nil _).symm, hagrees⟩
  | cons op ops ih =>
    obtain ⟨answer, next, later, hnext, hlater, hstep⟩ := perform_inStep op m h.cursor hagrees
    obtain ⟨answers, m', h', hrest, hrun, hanswers, hlast⟩ :=
      ih (h := h.extend op answer later) hstep
    refine ⟨answer :: answers, m', h', ?_, ?_, ?_, hlast⟩
    · rw [List.mapM_cons]
      change (perform op m >>= fun p =>
        (ops.mapM perform p.2 >>= fun q => .ok (p.1 :: q.1, q.2))) = _
      rw [hnext]
      change (ops.mapM perform next >>= fun q => .ok (answer :: q.1, q.2)) = _
      rw [hrest]
      rfl
    · rw [History.run_cons, History.step_of_perform hlater]
      exact hrun
    · simpa [History.extend] using hanswers

/-- A machine opens where a cursor does, if what is handed over to it is a buffer. -/
theorem agrees_of_ofSource {source : σ} {options : Options} {opened : Cursor σ}
    (hopen : Cursor.ofSource source options = .ok opened)
    (hwhole : ∀ buffer rest, Source.takeAll source = (some buffer, rest) →
      buffer.size ≤ buffer.capacity ∧ buffer.capacity ≤ maxCapacity) :
    ∃ m, ofSource source options = .ok m ∧ m.Agrees opened := by
  cases Cursor.opening_of_ofSource hopen with
  | @adopted buffer rest hadopt htake hopened =>
    subst hopened
    obtain ⟨hfits, hmax⟩ := hwhole buffer rest htake
    refine ⟨_, ?_, agrees_adopting hfits hmax⟩
    rw [ofSource, if_pos hadopt, htake]
  | read _ hmax =>
    have hsize : options.bufferSize ≤ maxCapacity := by omega
    obtain ⟨m, c, hm, hc, hagrees⟩ := ofSource_agrees hsize hwhole
    cases hopen.symm.trans hc
    exact ⟨m, hm, hagrees⟩

/-- The machine on the recorded source goes through the history of the cursor on it, and that is
the history of the cursor on the source itself. -/
theorem run_recorded {source : σ} {options : Options} {opened : Cursor σ}
    (hopen : Cursor.ofSource source options = .ok opened)
    (hwhole : ∀ buffer rest, Source.takeAll source = (some buffer, rest) →
      buffer.size ≤ buffer.capacity ∧ buffer.capacity ≤ maxCapacity) (ops : List Operation) :
    ∃ (first last : Registers (Recorder σ)) (start : Cursor (Recorder σ))
      (h : History (Recorder σ)),
      ofSource { source } options = .ok first ∧ ops.mapM perform first = .ok (h.answers, last) ∧
      Cursor.ofSource { source } options = .ok start ∧
      History.run { cursor := start } ops = .ok h ∧
      History.run { cursor := opened } ops = .ok (h.mapSource Recorder.source) ∧
      first.Agrees start ∧ last.Agrees h.cursor ∧
      History.Valid (Recorder.feed σ) h h.cursor.source.stream := by
  obtain ⟨start, h, hstart, hrun, hplain, hvalid⟩ := History.run_recorded hopen ops
  obtain ⟨first, hfirst, hagrees⟩ := agrees_of_ofSource hstart (Recorder.takeAll_meets hwhole)
  obtain ⟨answers, last, h', hmachine, hrun', hanswers, hlast⟩ :=
    run_agrees (h := { cursor := start }) hagrees ops
  cases hrun.symm.trans hrun'
  obtain rfl : h.answers = answers := hanswers
  exact ⟨first, last, start, h, hfirst, hmachine, hstart, hrun, hplain, hagrees, hlast, hvalid⟩

/-- If the first buffer is no larger than a buffer can be, and one that the source hands over is a
buffer indeed, then no check ever fails: not in opening the cursor, not in any operation, whatever
the source writes and claims and whatever the operations are given, and not in looking at the cursor
afterwards. The machine answers as the cursor does, and its indices stay in order. -/
theorem run_in_range {source : σ} {options : Options} (hsize : options.bufferSize ≤ maxCapacity)
    (hwhole : ∀ buffer rest, Source.takeAll source = (some buffer, rest) →
      buffer.size ≤ buffer.capacity ∧ buffer.capacity ≤ maxCapacity)
    (ops : List Operation) :
    ∃ (first last : Registers σ) (opened : Cursor σ) (h : History σ),
      ofSource source options = .ok first ∧ Cursor.ofSource source options = .ok opened ∧
      ops.mapM perform first = .ok (h.answers, last) ∧
      History.run { cursor := opened } ops = .ok h ∧ last.Ordered ∧
      last.offset = h.cursor.offset ∧ last.tokenOffset = h.cursor.tokenOffset ∧
      last.visibleEnd = h.cursor.visibleEnd ∧ last.mark = .ok h.cursor.mark ∧
      last.token = .ok h.cursor.token ∧ last.ahead = .ok h.cursor.window.ahead.bytes ∧
      last.pool.occupancyChecked = .ok h.cursor.pool.occupancy := by
  obtain ⟨first, opened, hfirst, hopened, hstart⟩ := ofSource_agrees hsize hwhole
  obtain ⟨answers, last, h, hmachine, hrun, hanswers, hagrees⟩ :=
    run_agrees (h := { cursor := opened }) hstart ops
  obtain rfl : h.answers = answers := hanswers
  exact ⟨first, last, opened, h, hfirst, hopened, hmachine, hrun, hagrees.ordered,
    hagrees.offsets.1, hagrees.offsets.2, hagrees.visibleEnd, hagrees.mark, hagrees.token,
    hagrees.ahead, hagrees.occupancy⟩

/-- Places beyond every buffer and every word, moves as far as they go, and more reported consumed
than was ever read. -/
def extremes : List Operation :=
  [.peek 18446744073709551615, .move 9223372036854775807, .take, .consume 1000, .peek 1,
    .codePoint 18446744073709551614, .rewind 18446744073709551615, .mark,
    .move (-9223372036854775808), .mark, .report]

theorem run_in_range_extremes :
    ∃ first last : Registers Script,
      ofSource History.overclaiming { bufferSize := 4, adopt := false } = .ok first ∧
      extremes.mapM perform first =
        .ok ([.byte 0, .nothing, .bytes [1, 2, 3, 238], .nothing, .byte 5, .codePoint ⟨0, 1⟩,
          .nothing, .number 2, .nothing, .number 0, .number 4], last) ∧
      last.Ordered ∧ last.offset = 4 ∧ last.ahead = .ok [4, 5] := by
  have hsize : ({ bufferSize := 4, adopt := false } : Options).bufferSize ≤ maxCapacity := by decide
  have hwhole : History.overclaiming.whole = none := rfl
  obtain ⟨first, last, opened, h, hfirst, hopened, hmachine, hrun, hordered, hoffset, -, -, -, -,
    hahead, -⟩ := run_in_range hsize (Script.takeAll_meets hwhole) extremes
  have hshown : (Cursor.ofSource History.overclaiming { bufferSize := 4, adopt := false } >>=
      fun opened => (History.run { cursor := opened } extremes).map fun h =>
        (h.answers, h.cursor.offset, h.cursor.window.ahead.bytes)).toOption =
      some ([.byte 0, .nothing, .bytes [1, 2, 3, 238], .nothing, .byte 5, .codePoint ⟨0, 1⟩,
        .nothing, .number 2, .nothing, .number 0, .number 4], 4, [4, 5]) := by
    decide +kernel
  rw [hopened] at hshown
  change ((History.run { cursor := opened } extremes).map _).toOption = _ at hshown
  rw [hrun] at hshown
  obtain ⟨hanswers, hplace, hrest⟩ : h.answers = _ ∧ h.cursor.offset = _ ∧ _ :=
    by simpa [Except.map, Except.toOption] using hshown
  exact ⟨first, last, hfirst, hanswers ▸ hmachine, hordered, hoffset.trans hplace,
    hahead.trans (congrArg Except.ok hrest)⟩

end Registers
end StreamCursor
