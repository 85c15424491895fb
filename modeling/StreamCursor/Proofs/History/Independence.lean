import StreamCursor.Proofs.Cursor.Alike
import StreamCursor.Proofs.History.Tracking

/-! Two histories of one cursor that differ in what is reported and given back to the pool, and in
nothing else. Main statement: no answer, no position and no read of the source depends on it. -/

namespace StreamCursor

variable {σ : Type} [Source σ]

open Cursor (Alike)

namespace Operation

/-- Whether the operation only reports committed bytes or gives storage back to the pool. -/
def isUpkeep : Operation → Bool
  | report | consume _ | release => true
  | _ => false

theorem perform_inStep {op : Operation} (hop : op.isUpkeep = false) :
    InStep (Alike (σ := σ)) op.perform op.perform := by
  cases op with
  | peek k => exact .bind (Scan.peek_inStep k) fun b => .pure _
  | codePoint k => exact .bind (Scan.peekCodePoint_inStep k) fun p => .pure _
  | move n => exact fun c d h => ⟨_, _, _, rfl, rfl, h.reposition (Window.bytes_move · n) _ _⟩
  | rewind m => exact fun c d h => ⟨_, _, _, rfl, rfl, h.reposition (Window.bytes_rewind · m) _ _⟩
  | commit => exact fun c d h => ⟨_, _, _, rfl, rfl, h.reposition Window.bytes_commit _ _⟩
  | mark =>
    intro c d h
    have hmark : c.mark = d.mark := congrArg Window.mark (Cursor.bare_eq_iff.1 h.bare_eq).2.2.1
    refine ⟨.number c.mark, c, d, rfl, ?_, h⟩
    rw [hmark]
    rfl
  | take =>
    intro c d h
    have htoken : c.token = d.token := congrArg Window.token (Cursor.bare_eq_iff.1 h.bare_eq).2.2.1
    refine ⟨.bytes c.token, c.commit, d.commit, rfl, ?_, h.reposition Window.bytes_commit _ _⟩
    rw [htoken]
    rfl
  | report | consume | release => cases hop

theorem perform_upkeep {c d : Cursor σ} (h : c.Alike d) {op : Operation}
    (hop : op.isUpkeep = true) :
    ∃ answer c', op.perform c = .ok (answer, c') ∧ c'.Alike d := by
  cases op with
  | report => exact ⟨_, _, rfl, h.left.reposition rfl _, h.right, h.bare_eq⟩
  | consume n => exact ⟨_, _, rfl, h.left.consume n, h.right, h.bare_eq⟩
  | release => exact ⟨_, _, rfl, (h.left.reposition rfl _).consume _, h.right, h.bare_eq⟩
  | peek | codePoint | move | mark | rewind | take | commit => cases hop

end Operation

namespace History

/-- The operations that are more than upkeep. -/
def essential (ops : List Operation) : List Operation := ops.filter (!·.isUpkeep)

/-- The answers to the operations that are more than upkeep. -/
def essentialAnswers (ops : List Operation) (answers : List Answer) : List Answer :=
  ((ops.zip answers).filter (!·.1.isUpkeep)).map (·.2)

variable {h k : History σ}

/-- A history goes with the one that leaves its upkeep out. -/
theorem run_essential (halike : h.cursor.Alike k.cursor) (ops : List Operation) :
    ∃ h' k' answers, h.run ops = .ok h' ∧ k.run (essential ops) = .ok k' ∧
      h'.answers = h.answers ++ answers ∧
      k'.answers = k.answers ++ essentialAnswers ops answers ∧ h'.cursor.Alike k'.cursor := by
  induction ops generalizing h k with
  | nil =>
    exact ⟨h, k, [], rfl, rfl, (List.append_nil _).symm, (List.append_nil _).symm, halike⟩
  | cons op ops ih =>
    cases hop : op.isUpkeep with
    | true =>
      obtain ⟨answer, c, hperform, hnext⟩ := Operation.perform_upkeep halike hop
      obtain ⟨h', k', answers, hrun, hrun', hanswers, hanswers', hlast⟩ :=
        ih (h := h.extend op answer c) hnext
      refine ⟨h', k', answer :: answers, ?_, ?_, ?_, ?_, hlast⟩
      · rw [run_cons, step_of_perform hperform]
        exact hrun
      · simpa [essential, hop] using hrun'
      · simpa [extend] using hanswers
      · simpa [essentialAnswers, hop] using hanswers'
    | false =>
      obtain ⟨answer, c, d, hperform, hperform', hnext⟩ :=
        Operation.perform_inStep hop h.cursor k.cursor halike
      obtain ⟨h', k', answers, hrun, hrun', hanswers, hanswers', hlast⟩ :=
        ih (h := h.extend op answer c) (k := k.extend op answer d) hnext
      refine ⟨h', k', answer :: answers, ?_, ?_, ?_, ?_, hlast⟩
      · rw [run_cons, step_of_perform hperform]
        exact hrun
      · have hcons : essential (op :: ops) = op :: essential ops := by simp [essential, hop]
        rw [hcons, run_cons, step_of_perform hperform']
        exact hrun'
      · simpa [extend] using hanswers
      · simpa [essentialAnswers, extend, hop] using hanswers'

/-- Two histories of a cursor that differ in their upkeep alone, which may be put in, left out or
given other counts anywhere, have the same answers. They leave the cursor at the same place, with
the same view of the end and a buffer of the same capacity, and they handed the source the same
slots. This holds of them wherever they are broken off between the same operations. -/
theorem runs_independent_of_upkeep {source : σ} {options : Options} {opened : Cursor σ}
    (hopen : Cursor.ofSource source options = .ok opened) {ops ops' : List Operation}
    (hops : essential ops = essential ops') :
    ∃ (start : Cursor (Recorder σ)) (h h' : History (Recorder σ)),
      Cursor.ofSource { source : Recorder σ } options = .ok start ∧
      run { cursor := start } ops = .ok h ∧ run { cursor := start } ops' = .ok h' ∧
      run { cursor := opened } ops = .ok (h.mapSource Recorder.source) ∧
      run { cursor := opened } ops' = .ok (h'.mapSource Recorder.source) ∧
      essentialAnswers ops h.answers = essentialAnswers ops' h'.answers ∧
      h.cursor.offset = h'.cursor.offset ∧ h.cursor.tokenOffset = h'.cursor.tokenOffset ∧
      h.cursor.mark = h'.cursor.mark ∧ h.cursor.token = h'.cursor.token ∧
      h.cursor.capacity = h'.cursor.capacity ∧
      h.cursor.isExhausted = h'.cursor.isExhausted ∧
      h.cursor.visibleEnd = h'.cursor.visibleEnd ∧
      h.cursor.source.reads = h'.cursor.source.reads ∧ h.cursor.bare = h'.cursor.bare := by
  obtain ⟨start, stream, hstart, rfl, hfaithful, -⟩ := ofSource_recorded hopen
  have hhealthy : start.Healthy :=
    ⟨stream, 0, hfaithful.toSound, trivial, hfaithful.base_le, hfaithful.bytes_eq,
      hfaithful.accounts⟩
  have hself : start.Alike start := ⟨hhealthy, hhealthy, rfl⟩
  obtain ⟨h, k, answers, hrun, hessential, hanswers, hshown, halike⟩ :=
    run_essential (h := { cursor := start }) (k := { cursor := start }) hself ops
  obtain ⟨h', k', answers', hrun', hessential', hanswers', hshown', halike'⟩ :=
    run_essential (h := { cursor := start }) (k := { cursor := start }) hself ops'
  rw [← hops] at hessential'
  obtain rfl : k = k' := Except.ok.inj (hessential.symm.trans hessential')
  have hplain := run_mapSource (Recorder.view σ) { cursor := start } ops
  have hplain' := run_mapSource (Recorder.view σ) { cursor := start } ops'
  rw [hrun] at hplain
  rw [hrun'] at hplain'
  have hbare := (halike.trans halike'.symm).bare_eq
  obtain ⟨hsource, hended, hwindow, hspare, hcapacity, hbase⟩ := Cursor.bare_eq_iff.1 hbare
  refine ⟨start, h, h', hstart, hrun, hrun', hplain, hplain', ?_, ?_, ?_, ?_, ?_, hcapacity, ?_, ?_,
    congrArg Recorder.reads hsource, hbare⟩
  · rw [hanswers, hanswers']
    exact List.append_cancel_left (hshown.symm.trans hshown')
  · rw [Cursor.offset, Cursor.offset, hwindow, hbase]
  · rw [Cursor.tokenOffset, Cursor.tokenOffset, hwindow, hbase]
  · exact congrArg Window.mark hwindow
  · exact congrArg Window.token hwindow
  · exact congrArg Option.isSome hended
  · rw [Cursor.visibleEnd, Cursor.visibleEnd, hwindow, hended]

/-- The same buffer is filled again where its bytes were released, and a new one where they were
not, and the source cannot tell. -/
theorem runs_independent_of_upkeep_in_place :
    ∃ (start : Cursor (Recorder Script)) (h h' : History (Recorder Script)),
      Cursor.ofSource ({ source := { steps := [.data [1, 2, 3, 4], .data [5, 6]] } } :
        Recorder Script) { bufferSize := 4, adopt := false } = .ok start ∧
      run { cursor := start } [.move 4, .take, .peek 0, .move 2, .peek 0] = .ok h ∧
      run { cursor := start } [.move 4, .take, .release, .peek 0, .consume 7, .move 2, .peek 0] =
        .ok h' ∧
      h.cursor.pool.chain = [0] ∧ h'.cursor.pool.blocks = #[] ∧
      essentialAnswers [.move 4, .take, .peek 0, .move 2, .peek 0] h.answers =
        [.nothing, .bytes [1, 2, 3, 4], .byte 5, .nothing, .byte 0] ∧
      essentialAnswers [.move 4, .take, .release, .peek 0, .consume 7, .move 2, .peek 0]
        h'.answers = [.nothing, .bytes [1, 2, 3, 4], .byte 5, .nothing, .byte 0] ∧
      h.cursor.source.reads = h'.cursor.source.reads := by
  have hopen : Cursor.ofSource ({ steps := [.data [1, 2, 3, 4], .data [5, 6]] } : Script)
      { bufferSize := 4, adopt := false } = .ok _ := rfl
  have hops : essential [.move 4, .take, .peek 0, .move 2, .peek 0] =
      essential [.move 4, .take, .release, .peek 0, .consume 7, .move 2, .peek 0] := rfl
  obtain ⟨start, h, h', hstart, hrun, hrun', -, -, hanswers, -, -, -, -, -, -, -, hreads, -⟩ :=
    runs_independent_of_upkeep hopen hops
  cases hstart
  cases hrun
  cases hrun'
  exact ⟨_, _, _, rfl, rfl, rfl, rfl, rfl, rfl, hanswers.symm, hreads⟩

end History
end StreamCursor
