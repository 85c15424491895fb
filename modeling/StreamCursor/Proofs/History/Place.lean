import StreamCursor.Proofs.Checked.Agreement
import StreamCursor.Proofs.History.Ending
import StreamCursor.Proofs.Journal

/-! The place of a cursor in its token. Main statement: looking ahead leaves it alone, moves lead
where the offsets say, however the buffer was exchanged meanwhile, and a mark leads back to the
cursor it was taken from, and to all that was seen from there. -/

namespace StreamCursor

open Cursor (Faithful)

variable {σ : Type} [Source σ] {feed : Feed σ} {stream : Bytes} {freed : Nat}

namespace Cursor.Faithful

variable {c later : Cursor σ}

/-- The token is told by its place in the stream, however much of it was delivered since. -/
theorem token_congr (h : c.Faithful feed stream freed) {part : Bytes} {freed' : Nat}
    (hlater : later.Faithful feed (stream ++ part) freed')
    (htoken : later.tokenOffset = c.tokenOffset) (hoffset : later.offset = c.offset) :
    later.token = c.token := by
  have hlength : c.offset - c.tokenOffset ≤ (stream.drop c.tokenOffset).length := by
    rw [List.length_drop]
    exact Nat.sub_le_sub_right h.offset_le _
  rw [hlater.token_eq, h.token_eq, htoken, hoffset,
    List.drop_append_of_le_length h.tokenOffset_le_length, List.take_append_of_le_length hlength]

/-- A peek that finds its byte delivered shows the byte of the stream. -/
theorem getElem?_of_peek (h : c.Faithful feed stream freed) {k : Nat} {b : UInt8}
    (hpeek : c.peek k = .ok (b, later)) :
    ∃ part, Later feed c stream freed part later ∧
      (c.offset + k < (stream ++ part).length → (stream ++ part)[c.offset + k]? = some b) := by
  obtain ⟨later', part, hpeek', hlater, -⟩ := h.peek k
  cases hpeek.symm.trans hpeek'
  refine ⟨part, hlater, fun hlt => ?_⟩
  simp [List.getElem?_eq_getElem hlt]

end Cursor.Faithful

namespace Operation

/-- Whether the operation commits a token. -/
def commits : Operation → Bool
  | take | commit => true
  | _ => false

omit [Source σ] in
theorem tokens_of_not_commits {op : Operation} (hop : op.commits = false) (c : Cursor σ) :
    op.tokens c = [] := by
  cases op with
  | take | commit => cases hop
  | peek | codePoint | move | mark | rewind | report | consume | release => rfl

end Operation

namespace History

variable {h last : History σ} {ops : List Operation}

/-- The tokens committed are all that is before the current one. -/
theorem Valid.tokenOffset_eq (hv : Valid feed h stream) :
    h.cursor.tokenOffset = h.tokens.flatten.length := by
  rw [hv.flatten_tokens, List.length_take_of_le hv.faithful.tokenOffset_le_length]

theorem run_tokens (hops : ∀ op ∈ ops, op.commits = false) (hrun : h.run ops = .ok last) :
    last.tokens = h.tokens := by
  induction ops generalizing h with
  | nil =>
    cases hrun
    rfl
  | cons op ops ih =>
    obtain ⟨hop, hrest⟩ := List.forall_mem_cons.1 hops
    rw [run_cons] at hrun
    cases hstep : h.step op with
    | error fault =>
      rw [hstep] at hrun
      cases hrun
    | ok next =>
      rw [hstep] at hrun
      obtain ⟨answer, later, -, rfl⟩ := step_eq_ok hstep
      rw [ih hrest hrun]
      simp [extend, Operation.tokens_of_not_commits hop]

/-- Until a token is committed, a mark leads back to where it was taken. -/
theorem Valid.rewind_mark {part : Bytes} (hv : Valid feed h stream)
    (hlast : Valid feed last (stream ++ part)) (htokens : last.tokens = h.tokens) :
    (last.cursor.rewind h.cursor.mark).tokenOffset = h.cursor.tokenOffset ∧
      (last.cursor.rewind h.cursor.mark).offset = h.cursor.offset := by
  have htoken : last.cursor.tokenOffset = h.cursor.tokenOffset := by
    rw [hlast.tokenOffset_eq, hv.tokenOffset_eq, htokens]
  have hplace : h.cursor.offset = h.cursor.tokenOffset + h.cursor.mark :=
    Cursor.offset_eq h.cursor
  have hle := hv.faithful.offset_le
  refine ⟨(Faithful.tokenOffset_rewind ..).trans htoken, ?_⟩
  rw [hlast.faithful.offset_rewind, htoken, ← hplace, List.length_append]
  omega

/-- A source on record delivers more and takes nothing back. -/
theorem Valid.stream_prefix {h last : History (Recorder σ)}
    (hv : Valid (Recorder.feed σ) h h.cursor.source.stream) (hrun : h.run ops = .ok last) :
    h.cursor.source.stream <+: last.cursor.source.stream := by
  obtain ⟨last', part, hlast, hvalid⟩ := hv.run ops
  cases hrun.symm.trans hlast
  have hfed : last.cursor.source.stream = h.cursor.source.stream ++ part := hvalid.faithful.fed
  rw [hfed]
  exact List.prefix_append ..

/-- What a peek showed of a delivered byte is on record ever after, if the peek did not read or was
made. -/
theorem Valid.getElem?_of_peek {h last : History (Recorder σ)}
    (hv : Valid (Recorder.feed σ) h h.cursor.source.stream) (hrun : h.run ops = .ok last)
    {k : Nat} {b : UInt8} {next : Cursor (Recorder σ)} (hpeek : h.cursor.peek k = .ok (b, next))
    (hlt : h.cursor.offset + k < next.source.stream.length)
    (hkept : next = h.cursor ∨ ops.head? = some (.peek k)) :
    last.cursor.source.stream[h.cursor.offset + k]? = some b := by
  obtain ⟨part, hlater, hbyte⟩ := hv.faithful.getElem?_of_peek hpeek
  have hfed : next.source.stream = h.cursor.source.stream ++ part := hlater.faithful.fed
  rw [← hfed] at hbyte
  have hprefix : next.source.stream <+: last.cursor.source.stream := by
    rcases hkept with rfl | hhead
    · exact hv.stream_prefix hrun
    · obtain ⟨rest, rfl⟩ := List.head?_eq_some_iff.1 hhead
      obtain ⟨made, more, hmade, hvalid⟩ := hv.step (.peek k)
      have hperform : (Operation.peek k).perform h.cursor = .ok (.byte b, next) := by
        change (h.cursor.peek k >>= fun p => .ok (Answer.byte p.1, p.2)) = _
        rw [hpeek]
        rfl
      cases hmade.symm.trans (step_of_perform hperform)
      rw [run_cons, hmade] at hrun
      exact hvalid.on_record.stream_prefix hrun
  obtain ⟨more, hmore⟩ := hprefix
  rw [← hmore, List.getElem?_append_left hlt]
  exact hbyte hlt

/-- Whatever the source does, neither a peek nor a code point peeked at changes anything that tells
where the cursor stands, although it may exchange the buffer and count its places anew. A move leads
as far as it says within the token and the bytes delivered after it, and so it does on the machine
that has saturating sums of places in a buffer. A commit makes the token start at the cursor. Until
then a mark leads back to the cursor that it was taken from. Each byte that was seen from there, if
it was delivered, is seen from there again, and the source is not asked for it. -/
theorem run_keeps_place {source : σ} {options : Options} {opened : Cursor σ}
    (hopen : Cursor.ofSource source options = .ok opened) (ops : List Operation) :
    ∃ (start : Cursor (Recorder σ)) (h : History (Recorder σ)),
      Cursor.ofSource { source : Recorder σ } options = .ok start ∧
      run { cursor := start } ops = .ok h ∧
      run { cursor := opened } ops = .ok (h.mapSource Recorder.source) ∧
      (∀ op : Operation, op.looks = true → ∃ answer later,
        op.perform h.cursor = .ok (answer, later) ∧ later.offset = h.cursor.offset ∧
        later.tokenOffset = h.cursor.tokenOffset ∧ later.mark = h.cursor.mark ∧
        later.token = h.cursor.token ∧ later.report.1 = h.cursor.report.1) ∧
      (∀ n : Int, ((h.cursor.move n).offset : Int) = max (h.cursor.tokenOffset : Int)
        (min (h.cursor.offset + n) (h.cursor.source.stream.length : Int))) ∧
      (∀ n : Nat, (h.cursor.rewind n).offset =
        min (h.cursor.tokenOffset + n) h.cursor.source.stream.length) ∧
      (∀ m : Registers (Recorder σ), m.Agrees h.cursor →
        (∀ n, ∃ m', m.move n = .ok m' ∧ m'.offset = (h.cursor.move n).offset) ∧
        ∀ n, (m.rewind n).offset = (h.cursor.rewind n).offset) ∧
      h.cursor.take.2.tokenOffset = h.cursor.offset ∧
      h.cursor.commit.tokenOffset = h.cursor.offset ∧
      ∀ early late : List Operation, (∀ op ∈ early ++ late, op.commits = false) →
        ∃ mid last, h.run early = .ok mid ∧ mid.run late = .ok last ∧
          (last.cursor.rewind h.cursor.mark).offset = h.cursor.offset ∧
          (last.cursor.rewind h.cursor.mark).mark = h.cursor.mark ∧
          (last.cursor.rewind h.cursor.mark).token = h.cursor.token ∧
          ∀ k b next, mid.cursor.offset = h.cursor.offset →
            mid.cursor.peek k = .ok (b, next) →
            mid.cursor.offset + k < next.source.stream.length →
            (next = mid.cursor ∨ late.head? = some (.peek k)) →
            (last.cursor.rewind h.cursor.mark).peek k =
              .ok (b, last.cursor.rewind h.cursor.mark) := by
  obtain ⟨start, h, hstart, hrun, hplain, hvalid⟩ := run_recorded hopen ops
  have hfaithful := hvalid.faithful
  refine ⟨start, h, hstart, hrun, hplain, ?_, hfaithful.offset_move, hfaithful.offset_rewind, ?_,
    Faithful.tokenOffset_commit _, Faithful.tokenOffset_commit _, ?_⟩
  · intro op hlooks
    obtain ⟨answer, later, part, hperform, hlater⟩ := Operation.perform_of_looks hfaithful op hlooks
    have hplace := hlater.samePlace
    exact ⟨answer, later, hperform, hplace.offset, hplace.tokenOffset, hplace.mark,
      hfaithful.token_congr hlater.faithful hplace.tokenOffset hplace.offset, hplace.pending⟩
  · intro m hagrees
    refine ⟨fun n => ?_, fun n => (hagrees.rewind n).offsets.1⟩
    obtain ⟨m', hmove, hmoved⟩ := hagrees.move n
    exact ⟨m', hmove, hmoved.offsets.1⟩
  · intro early late hops
    obtain ⟨mid, part, hearly, hmid⟩ := hvalid.run early
    obtain ⟨last, more, hlate, hlast⟩ := hmid.run late
    have htokens : last.tokens = h.tokens := by
      apply run_tokens hops
      rw [run_append, hearly]
      exact hlate
    rw [List.append_assoc] at hlast
    obtain ⟨htoken, hoffset⟩ := hvalid.rewind_mark hlast htokens
    have hback := hlast.faithful.rewind h.cursor.mark
    refine ⟨mid, last, hearly, hlate, hoffset, ?_, ?_, ?_⟩
    · have hplace := Cursor.offset_eq h.cursor
      have hreturned := Cursor.offset_eq (last.cursor.rewind h.cursor.mark)
      change (last.cursor.rewind h.cursor.mark).window.mark = h.cursor.window.mark
      omega
    · exact hfaithful.token_congr hback htoken hoffset
    · intro k b next hplace hpeek hlt hkept
      apply (hlast.on_record.faithful.rewind h.cursor.mark).peek_of_getElem?
      rw [hoffset, ← hplace]
      exact hmid.on_record.getElem?_of_peek hlate hpeek hlt hkept

/-- The buffer is exchanged between mark and rewind, and the stream comes to its end. -/
theorem run_keeps_place_growing :
    ∃ (start : Cursor (Recorder Script)) (h last : History (Recorder Script)),
      Cursor.ofSource ({ source := overclaiming } : Recorder Script)
        { bufferSize := 2, adopt := false } = .ok start ∧
      run { cursor := start } [.move 1, .take, .peek 2, .move 1] = .ok h ∧
      h.run [.peek 9, .move 5, .report, .consume 1, .rewind 0] = .ok last ∧
      exchanges h.cursor.journal = 1 ∧ exchanges last.cursor.journal = 2 ∧
      h.cursor.mark = 1 ∧ last.cursor.mark = 0 ∧ h.cursor.offset = 2 ∧
      (last.cursor.rewind 1).offset = 2 ∧ (last.cursor.rewind 1).token = [2] ∧
      h.cursor.peek 0 = .ok (4, h.cursor) ∧
      (last.cursor.rewind 1).peek 0 = .ok (4, last.cursor.rewind 1) := by
  have hopen : Cursor.ofSource overclaiming { bufferSize := 2, adopt := false } = .ok _ := rfl
  obtain ⟨start, h, hstart, hrun, -, -, -, -, -, -, -, hback⟩ :=
    run_keeps_place hopen [.move 1, .take, .peek 2, .move 1]
  obtain ⟨mid, last, hearly, hlate, hoffset, -, htoken, hshown⟩ :=
    hback [] [.peek 9, .move 5, .report, .consume 1, .rewind 0] (by decide)
  cases hstart
  cases hrun
  cases hearly
  cases hlate
  exact ⟨_, _, _, rfl, rfl, rfl, rfl, rfl, rfl, rfl, rfl, hoffset, htoken, rfl,
    hshown 0 4 _ rfl rfl (by decide) (.inl rfl)⟩

end History
end StreamCursor
