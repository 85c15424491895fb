import StreamCursor.Proofs.Cursor.Ending
import StreamCursor.Proofs.History.Rules
import StreamCursor.Proofs.History.Tracking

/-! How a history comes to the end of its stream, and what happens after it. Main statement: the
end comes with adoption or with the first reply that fails or brings nothing, the cursor keeps that
reason for good, and from then on it leaves the source alone and keeps what was delivered. -/

namespace StreamCursor

variable {σ : Type} [Source σ]

namespace Recorder

omit [Source σ] in
/-- The end of the stream as the last reply on record gives it. -/
def conclusion? (r : Recorder σ) : Option StreamEnd :=
  r.reads.getLast?.bind fun entry => entry.2.conclusion?

/-- What is on record about a source that was read at least once: the bytes, of which there are
some unless the stream has ended, and the end that the last of the replies brought, if it did. -/
structure Told (r : Recorder σ) (ended : Option StreamEnd) (delivered : Bytes) : Prop where
  stream_eq : r.stream = delivered
  ne_nil : ended = none → delivered ≠ []
  ended_eq : ended = r.conclusion?
  before : ∀ entry ∈ r.reads.dropLast, entry.2.conclusion? = none

variable {r : Recorder σ} {delivered : Bytes} {slot : Slot}

omit [Source σ] in
/-- As long as the stream has not ended, no reply has ended it. -/
theorem Told.reads (h : r.Told none delivered) :
    ∀ entry ∈ r.reads, entry.2.conclusion? = none := by
  intro entry hentry
  rcases List.eq_nil_or_concat r.reads with hnil | ⟨before, last, hlast⟩
  · rw [hnil] at hentry
    cases hentry
  · have hended := h.ended_eq
    have hbefore := h.before
    rw [List.concat_eq_append] at hlast
    rw [conclusion?, hlast, List.getLast?_concat] at hended
    rw [hlast, List.dropLast_concat] at hbefore
    rw [hlast, List.mem_append, List.mem_singleton] at hentry
    rcases hentry with hentry | rfl
    · exact hbefore entry hentry
    · exact hended.symm

omit [Source σ] in
theorem Told.on_record {ended : Option StreamEnd} (h : r.Told ended delivered) :
    r.Told ended r.stream := by
  rwa [h.stream_eq]

theorem told_read (hstream : r.stream = delivered)
    (hreads : ∀ entry ∈ r.reads, entry.2.conclusion? = none) (hslot : 0 < slot.size) :
    Told (Source.read r slot).2 ((Source.read r slot).1.ending slot)
      (delivered ++ (Source.read r slot).1.delivered slot) := by
  have hrecord : (Source.read r slot).2.reads = r.reads ++ [(slot, (Source.read r slot).1)] := rfl
  have hfed : (feed σ).Holds r none delivered := hstream
  constructor
  · exact (feed σ).read hfed hslot
  · intro hopen hnil
    have hended := Reply.ending_of_delivered_nil (List.append_eq_nil_iff.1 hnil).2
    rw [hopen] at hended
    cases hended
  · rw [conclusion?, hrecord, List.getLast?_concat, Reply.ending_eq_conclusion? _ hslot]
    rfl
  · rwa [hrecord, List.dropLast_concat]

/-- What every read keeps on record. A source that was read has nothing to hand over any more. -/
def readingFeed (σ : Type) [Source σ] : Feed (Recorder σ) where
  Holds := Told
  takeAll h := absurd rfl (h.ne_nil rfl)
  read h hslot := told_read h.stream_eq h.reads hslot

end Recorder

namespace Cursor

/-- Whether a cursor over the source takes its content over. -/
def adopts (source : σ) (options : Options) : Bool :=
  options.adopt && (Source.takeAll source).1.isSome

/-- A cursor that adopts nothing is opened by a peek into a buffer of the size asked for. -/
theorem opening_of_not_adopts {source : σ} {options : Options} {opened : Cursor σ}
    (hopen : ofSource source options = .ok opened) (hadopts : adopts source options = false) :
    max options.bufferSize 1 ≤ maxCapacity ∧ ∃ rest b,
      (options.adopt = false ∧ rest = source ∨
        options.adopt = true ∧ Source.takeAll source = (none, rest)) ∧
      (unread rest (max options.bufferSize 1)).peek 0 = .ok (b, opened) := by
  cases opening_of_ofSource hopen with
  | adopted hadopt htake => simp [adopts, hadopt, htake] at hadopts
  | @read rest b hrest hmax hpeek => exact ⟨hmax, rest, b, hrest, hpeek⟩

/-- Opening a cursor that adopts nothing is one read into the whole buffer. -/
theorem peek_unread (source : σ) {capacity : Nat} (hpos : 0 < capacity) :
    ∃ b, (unread source capacity).peek 0 =
      .ok (b, ((unread source capacity).log [.toppingUp 0 capacity]).read) := by
  have hrefill : (unread source capacity).refill 0 =
      .ok ((unread source capacity).log [.toppingUp 0 capacity]).read :=
    if_pos hpos
  have hpeek : (unread source capacity).peek 0 =
      ((unread source capacity).refill 0 >>= fill 0 0).map fun c =>
        ((c.window.ahead.get? 0).getD 0, c) := by
    rw [peek]
    exact if_neg (Nat.not_le_of_lt maxCapacity_pos)
  rw [hrefill] at hpeek
  exact ⟨_, hpeek⟩

end Cursor

open Cursor (Faithful Settled)

namespace History

/-- No operation on a cursor at the end of its stream touches more than the window, the reports
and what the pool counts as consumed. -/
theorem run_settled {h last : History σ} {ops : List Operation} (hended : h.cursor.isExhausted)
    (hrun : h.run ops = .ok last) : h.cursor.Settled last.cursor := by
  have hlasting : Lasting h.cursor.Settled :=
    ⟨fun _ _ pending hd hbytes => hd.reposition hbytes pending, fun _ n hd => hd.consume n⟩
  obtain ⟨last', hrun', hsettled⟩ :=
    run_keeps hlasting (Settled.meets_peek hended) ops (.refl h.cursor)
  cases hrun.symm.trans hrun'
  exact hsettled

/-- A cursor that was opened by reading knows what its first reply told. -/
theorem told_of_unread {r : Recorder σ} {capacity : Nat} {b : UInt8} {start : Cursor (Recorder σ)}
    (hstream : r.stream = []) (hreads : r.reads = []) (hpos : 0 < capacity)
    (hpeek : (Cursor.unread r capacity).peek 0 = .ok (b, start)) :
    start.source.Told start.ended start.source.stream := by
  obtain ⟨b', hread⟩ := Cursor.peek_unread r hpos
  cases hpeek.symm.trans hread
  rw [Cursor.source_read, Cursor.ended_read rfl]
  exact (Recorder.told_read hstream (by simp [hreads]) hpos).on_record

/-- A cursor that reads its source ends for the reason that the last reply on record gives. -/
theorem run_told {start : Cursor (Recorder σ)} {h : History (Recorder σ)} {stream : Bytes}
    {ops : List Operation} (htold : start.source.Told start.ended start.source.stream)
    (hfaithful : start.Faithful (Recorder.feed σ) stream 0) (hfront : start.AtFront)
    (hrun : run { cursor := start } ops = .ok h) :
    h.cursor.source.Told h.cursor.ended h.cursor.source.stream := by
  have hstream : start.source.stream = stream := hfaithful.fed
  have hreading : start.Faithful (Recorder.readingFeed σ) stream 0 :=
    ⟨hfaithful.toSound, hstream ▸ htold, hfaithful.base_le, hfaithful.bytes_eq,
      hfaithful.accounts⟩
  obtain ⟨last, part, hlast, hvalid⟩ := (valid_start hreading hfront).run ops
  cases hrun.symm.trans hlast
  exact Recorder.Told.on_record hvalid.faithful.fed

theorem told_of_not_adopts {source : σ} {options : Options} {start : Cursor (Recorder σ)}
    (hadopts : Cursor.adopts source options = false)
    (hstart : Cursor.ofSource { source : Recorder σ } options = .ok start) :
    start.source.Told start.ended start.source.stream := by
  have hrecorder : Cursor.adopts ({ source } : Recorder σ) options = false := hadopts
  obtain ⟨hmax, rest, b, hrest, hpeek⟩ := Cursor.opening_of_not_adopts hstart hrecorder
  have hpos : 0 < max options.bufferSize 1 := by omega
  rcases hrest with ⟨-, rfl⟩ | ⟨-, htake⟩
  · exact told_of_unread rfl rfl hpos hpeek
  · have hfed : (Recorder.feed σ).Holds { source } none [] := rfl
    have hstream := (Recorder.feed σ).takeAll hfed
    rw [htake] at hstream
    exact told_of_unread hstream (congrArg (·.2.reads) htake).symm hpos hpeek

/-- Why the stream of a history has ended, if it has. -/
theorem run_cause {source : σ} {options : Options} {start : Cursor (Recorder σ)}
    {h : History (Recorder σ)} {stream : Bytes} {ops : List Operation}
    (hstart : Cursor.ofSource { source : Recorder σ } options = .ok start)
    (hfaithful : start.Faithful (Recorder.feed σ) stream 0) (hfront : start.AtFront)
    (hrun : run { cursor := start } ops = .ok h) :
    h.cursor.ended =
        (if Cursor.adopts source options then some .eof else h.cursor.source.conclusion?) ∧
      (Cursor.adopts source options → h.cursor.source.reads = []) ∧
      ∀ entry ∈ h.cursor.source.reads.dropLast, entry.2.conclusion? = none := by
  cases hadopts : Cursor.adopts source options with
  | true =>
    have hrecorder : Cursor.adopts ({ source } : Recorder σ) options = true := hadopts
    cases Cursor.opening_of_ofSource hstart with
    | read hrest =>
      rcases hrest with ⟨hadopt, -⟩ | ⟨-, htake⟩
      · simp [Cursor.adopts, hadopt] at hrecorder
      · simp [Cursor.adopts, htake] at hrecorder
    | @adopted buffer rest hadopt htake hopened =>
      subst hopened
      have hsettled := run_settled rfl hrun
      have hreads : h.cursor.source.reads = [] := by
        rw [hsettled.source]
        exact (congrArg (·.2.reads) htake).symm
      refine ⟨hsettled.ended, fun _ => hreads, ?_⟩
      rw [hreads]
      exact fun _ => nofun
  | false =>
    have htold := run_told (told_of_not_adopts hadopts hstart) hfaithful hfront hrun
    exact ⟨htold.ended_eq, nofun, htold.before⟩

/-- A cursor comes to the end of its stream by adoption, or by the first reply that fails or claims
nothing, and takes that reply's reason. It never reads again after that, exchanges no buffer, and
keeps the reason and every byte delivered, of which those not committed can still be peeked at and
taken. It shows the end exactly while it stands there, so that a step back hides it. -/
theorem run_ends_once {source : σ} {options : Options} {opened : Cursor σ}
    (hopen : Cursor.ofSource source options = .ok opened) (ops more : List Operation) :
    ∃ (start : Cursor (Recorder σ)) (h last : History (Recorder σ)),
      Cursor.ofSource { source : Recorder σ } options = .ok start ∧
      run { cursor := start } ops = .ok h ∧ h.run more = .ok last ∧
      run { cursor := opened } ops = .ok (h.mapSource Recorder.source) ∧
      run { cursor := opened } (ops ++ more) = .ok (last.mapSource Recorder.source) ∧
      h.cursor.ended =
        (if Cursor.adopts source options then some .eof else h.cursor.source.conclusion?) ∧
      (Cursor.adopts source options → h.cursor.source.reads = []) ∧
      (∀ entry ∈ h.cursor.source.reads.dropLast, entry.2.conclusion? = none) ∧
      (h.cursor.isExhausted → h.cursor.Settled last.cursor ∧
        (∀ k b, last.cursor.source.stream[last.cursor.tokenOffset + k]? = some b →
          (last.cursor.rewind 0).peek k = .ok (b, last.cursor.rewind 0)) ∧
        ∀ n, last.cursor.tokenOffset + n ≤ last.cursor.source.stream.length →
          last.cursor.source.stream.slice? last.cursor.tokenOffset (last.cursor.tokenOffset + n) =
            some (last.cursor.rewind n).take.1) ∧
      (∀ cause, h.cursor.visibleEnd = some cause ↔
        h.cursor.ended = some cause ∧ h.cursor.offset = h.cursor.source.stream.length) ∧
      ∀ cause, h.cursor.visibleEnd = some cause →
        (∀ n : Nat, 0 < n → n ≤ h.cursor.mark → (h.cursor.move (-n)).visibleEnd = none ∧
          ((h.cursor.move (-n)).move n).visibleEnd = some cause) ∧
        ∀ m, m < h.cursor.mark → (h.cursor.rewind m).visibleEnd = none ∧
          ((h.cursor.rewind m).rewind h.cursor.mark).visibleEnd = some cause := by
  obtain ⟨start, stream, hstart, rfl, hfaithful, hfront⟩ := ofSource_recorded hopen
  obtain ⟨h, part, hrun, hvalid⟩ := (valid_start hfaithful hfront).run ops
  obtain ⟨last, rest, hmore, hlast⟩ := hvalid.run more
  have hh := hvalid.on_record.faithful
  have hl := hlast.on_record.faithful
  have hall : run { cursor := start } (ops ++ more) = .ok last := by
    rw [run_append, hrun]
    exact hmore
  have hplain := run_mapSource (Recorder.view σ) { cursor := start } ops
  have hplainAll := run_mapSource (Recorder.view σ) { cursor := start } (ops ++ more)
  rw [hrun] at hplain
  rw [hall] at hplainAll
  obtain ⟨hcause, hadopted, hbefore⟩ := run_cause hstart hfaithful hfront hrun
  exact ⟨start, h, last, hstart, hrun, hmore, hplain, hplainAll, hcause, hadopted, hbefore,
    fun hended => ⟨run_settled hended hmore, fun k b => hl.peek_rewind, fun n => hl.slice?_rewind⟩,
    hh.visibleEnd_eq_some_iff, fun cause hvisible =>
      ⟨fun n => hh.visibleEnd_move_back hvisible, fun m => hh.visibleEnd_rewind_back hvisible⟩⟩

/-- A source that delivers nothing once, and would deliver more and then fail. -/
def pausing : Script where
  steps := [.data [1, 2, 3], .nothing, .data [4, 5], .fail (.source "late")]

theorem run_ends_once_pausing :
    ∃ (start : Cursor (Recorder Script)) (h last : History (Recorder Script)),
      Cursor.ofSource ({ source := pausing } : Recorder Script)
        { bufferSize := 4, adopt := false } = .ok start ∧
      run { cursor := start } [.peek 3, .move 3] = .ok h ∧
      h.run [.peek 9, .move (-2), .take, .move 7, .peek 0] = .ok last ∧
      h.cursor.ended = some .eof ∧ h.cursor.visibleEnd = some .eof ∧
      (h.cursor.move (-2)).visibleEnd = none ∧ last.cursor.ended = h.cursor.ended ∧
      last.cursor.source = h.cursor.source ∧ last.cursor.tokenOffset = 1 ∧
      some (last.cursor.rewind 2).take.1 = some [2, 3] := by
  have hopen : Cursor.ofSource pausing { bufferSize := 4, adopt := false } = .ok _ := rfl
  obtain ⟨start, h, last, hstart, hrun, hmore, -, -, hended, -, -, hkeeps, hvisible, hhides⟩ :=
    run_ends_once hopen [.peek 3, .move 3] [.peek 9, .move (-2), .take, .move 7, .peek 0]
  cases hstart
  cases hrun
  cases hmore
  obtain ⟨hsettled, -, hshift⟩ := hkeeps rfl
  have hshown := (hvisible .eof).2 ⟨hended, rfl⟩
  obtain ⟨hback, -⟩ := hhides .eof hshown
  exact ⟨_, _, _, rfl, rfl, rfl, hended, hshown, (hback 2 (by decide) (by decide)).1,
    hsettled.ended, hsettled.source, rfl, (hshift 2 (by decide)).symm⟩

end History
end StreamCursor
