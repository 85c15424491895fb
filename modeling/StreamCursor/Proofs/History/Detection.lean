import StreamCursor.Proofs.Cursor.Peek
import StreamCursor.Proofs.Source.Finite
import StreamCursor.Proofs.Watch

/-! When a cursor learns that its stream has ended. Main statement: over a source that delivers a
fixed byte string, in reads of any sizes, a cursor learns of the end with the first peek that looks
behind the last byte, neither sooner nor later, and every peek that looks at a byte shows it. -/

namespace StreamCursor

open Cursor (Faithful Peeked)

variable {σ : Type} [Source σ] [Source.Finite σ] {data : Bytes} {cause : StreamEnd}

/-- As much of the data as was delivered, which is also on record. -/
abbrev deliveryFeed (σ : Type) [Source σ] [Source.Finite σ] (data : Bytes) (cause : StreamEnd) :
    Feed (Recorder σ) :=
  Recorder.recording (Source.Finite.feed σ data cause)

/-- The data with what was delivered of it on record. -/
def recordedDelivery (σ : Type) [Source σ] [Source.Finite σ] (data : Bytes) (cause : StreamEnd) :
    Delivery (Recorder σ) where
  toFeed := deliveryFeed σ data cause
  data
  cause
  isPrefix h := h.2.isPrefix
  complete h hended := h.2.eq_of_ended hended

section Peek

variable {c : Cursor (Recorder σ)} {stream : Bytes} {freed k : Nat}

theorem Cursor.Faithful.peek_detects (h : c.Faithful (deliveryFeed σ data cause) stream freed)
    (k : Nat) : ∃ b later part, c.peek k = .ok (b, later) ∧
      later.Faithful (deliveryFeed σ data cause) (stream ++ part) freed ∧
      (later.isExhausted ↔ c.isExhausted ∨
        c.window.position + k < maxCapacity ∧ data.length ≤ c.offset + k) ∧
      (c.offset + k < data.length →
        c.window.position + k < maxCapacity ∨ data.length ≤ maxCapacity →
        data[c.offset + k]? = some b) := by
  obtain ⟨b, later, part, hpeek, hlater, hended, hbyte⟩ :=
    (recordedDelivery σ data cause).peek_detects h k
  refine ⟨b, later, part, hpeek, hlater.faithful, hended, fun htarget hindex => ?_⟩
  have hposition : c.window.position ≤ c.offset := Nat.le_add_left ..
  obtain ⟨hb, -⟩ := hbyte (by omega)
  rw [hb]
  change _ = some (data[c.offset + k]?.getD 0)
  rw [List.getElem?_eq_getElem htarget]
  rfl

end Peek

/-- The peeks on record account for what the cursor knows of the end, and they showed the data. Of
more data than a buffer can hold, they showed what a buffer can. -/
structure Detects (data : Bytes) (w : Watched σ) : Prop where
  isExhausted_iff : w.cursor.isExhausted ↔
    ∃ g ∈ w.glances, g.index < maxCapacity ∧ data.length ≤ g.target
  byte_eq : ∀ g ∈ w.glances, g.target < data.length →
    g.index < maxCapacity ∨ data.length ≤ maxCapacity → data[g.target]? = some g.byte

/-- What every peek keeps of a watched cursor over a source that delivers the data. -/
structure Detecting (data : Bytes) (cause : StreamEnd) (w : Watched (Recorder σ)) : Prop where
  faithful : ∃ stream freed, w.cursor.Faithful (deliveryFeed σ data cause) stream freed
  detects : Detects data w

namespace Detecting

theorem keptByPeeks (data : Bytes) (cause : StreamEnd) :
    KeptByPeeks (Detecting data cause : Watched (Recorder σ) → Prop) := by
  rintro k w ⟨⟨stream, freed, hw⟩, hdetects⟩
  obtain ⟨b, later, part, hpeek, hlater, hended, hbyte⟩ := hw.peek_detects k
  refine ⟨b, later, hpeek, ⟨_, _, hlater⟩, ?_, ?_⟩
  · simp only [List.mem_append, List.mem_singleton, or_and_right, exists_or, exists_eq_left]
    rw [hended, hdetects.isExhausted_iff]
    rfl
  · intro g hg
    simp only [List.mem_append, List.mem_singleton] at hg
    rcases hg with hg | rfl
    · exact hdetects.byte_eq g hg
    · exact hbyte

theorem lasting (data : Bytes) (cause : StreamEnd) (glances : List (Glance (Recorder σ))) :
    Lasting fun c => Detecting data cause { cursor := c, glances } where
  reposition := by
    rintro c window pending ⟨⟨stream, freed, hc⟩, hdetects⟩ hbytes
    exact ⟨⟨stream, freed, hc.reposition hbytes pending⟩, hdetects.isExhausted_iff,
      hdetects.byte_eq⟩
  consume := by
    rintro c n ⟨⟨stream, freed, hc⟩, hdetects⟩
    exact ⟨⟨stream, freed + n, hc.consume n⟩, hdetects.isExhausted_iff, hdetects.byte_eq⟩

theorem unread {rest : Recorder σ} {capacity : Nat}
    (hfed : (deliveryFeed σ data cause).Holds rest none []) (hpos : 0 < capacity)
    (hmax : capacity ≤ maxCapacity) :
    Detecting data cause { cursor := Cursor.unread rest capacity } := by
  refine ⟨⟨[], 0, Cursor.faithful_unread hfed hpos hmax⟩, ?_, ?_⟩
  · simp [Cursor.unread, Cursor.isExhausted]
  · intro g hg
    cases hg

end Detecting

/-- However a cursor over the source is used, it learns of the end just when it peeks behind the
data, and then all of the data is on record as delivered, with the cause as the reason. -/
def DetectsEnd (source : σ) (options : Options) (data : Bytes) (cause : StreamEnd) : Prop :=
  ∀ opened, Cursor.ofSource source options = .ok opened → ∀ ops : List Operation,
    ∃ (first last : Watched (Recorder σ)) (h : History (Recorder σ)),
      Watched.ofSource { source : Recorder σ } options = .ok first ∧
      Cursor.ofSource { source : Recorder σ } options = .ok first.cursor ∧
      History.run { cursor := first.cursor } ops = .ok h ∧
      History.run { cursor := opened } ops = .ok (h.mapSource Recorder.source) ∧
      ops.mapM Operation.watch first = .ok (h.answers, last) ∧ last.cursor = h.cursor ∧
      Detects data last ∧
      (h.cursor.isExhausted → h.cursor.source.stream = data ∧ h.cursor.ended = some cause)

theorem detectsEnd_of_left {source : σ} {options : Options}
    (hregular : Source.Finite.Regular source) (hleft : Source.Finite.left source = data)
    (hfinish : Source.Finite.finish source = cause)
    (hadopts : Cursor.adopts source options = false) : DetectsEnd source options data cause := by
  intro opened hopen ops
  have hfed : (deliveryFeed σ data cause).Holds { source } none [] :=
    ⟨rfl, .going hregular hleft hfinish⟩
  have hrecorder : Cursor.adopts ({ source } : Recorder σ) options = false := hadopts
  obtain ⟨start, -, hstart, rfl, -, -⟩ := History.ofSource_recorded hopen
  have hunread : ∀ rest capacity,
      rest = { source } ∨ Source.takeAll ({ source } : Recorder σ) = (none, rest) →
      0 < capacity → capacity ≤ maxCapacity →
      Detecting data cause { cursor := Cursor.unread rest capacity } := by
    rintro rest capacity (rfl | htake) hpos hmax
    · exact .unread hfed hpos hmax
    · have hrest := (deliveryFeed σ data cause).takeAll hfed
      rw [htake] at hrest
      exact .unread hrest hpos hmax
  obtain ⟨first, hfirst, rfl, hdetecting⟩ := Watched.ofSource_accompanies
    (Detecting.keptByPeeks data cause) (by simp [hrecorder]) hunread hstart
  obtain ⟨answers, last, h, hrun, hwatch, hanswers, hcursor, hlast⟩ :=
    History.run_watched (Detecting.keptByPeeks data cause) (Detecting.lasting data cause) ops
      (h := { cursor := first.cursor }) ⟨rfl, hdetecting⟩
  have hplain := History.run_mapSource (Recorder.view σ) { cursor := first.cursor } ops
  rw [hrun] at hplain
  obtain ⟨⟨stream, freed, hfaithful⟩, hdetects⟩ := hlast
  rw [hcursor] at hfaithful
  refine ⟨first, last, h, hfirst, hstart, hrun, hplain, ?_, hcursor, hdetects, fun hended => ?_⟩
  · rw [hwatch, hanswers]
    rfl
  · obtain ⟨hstream, hdelivers⟩ := hfaithful.fed
    rw [hstream]
    exact hdelivers.eq_of_ended hended

namespace Packets

theorem foldl_failWith (source : Packets) (messages : List String) (message : String) :
    (messages ++ [message]).foldl failWith source = source.failWith message := by
  rw [List.foldl_append]
  induction messages generalizing source with
  | nil => rfl
  | cons first messages ih => exact ih (source.failWith first)

theorem detectsEnd (packets : List Bytes) (failure : Option String) (options : Options) :
    DetectsEnd { ofList packets with failure } options packets.flatten
      (finish { ofList packets with failure }) := by
  apply detectsEnd_of_left
  · intro hnil
    exact queue_ofList_ne_nil hnil rfl
  · exact flatten_queue_ofList packets
  · rfl
  · rw [Cursor.adopts, Bool.and_eq_false_iff]
    exact .inr rfl

end Packets

/-- However the data is delivered, by a byte string, a buffer, packets or any other source that
delivers it in reads of any sizes, a cursor that does not adopt it learns of the end just when it
peeks behind the data. The last message that packets are to fail with is the reason, if there is
one. -/
theorem History.run_detects_end (data : Bytes) (options : Options) :
    (∀ (σ : Type) [Source σ] [Source.Finite σ] (source : σ), Source.Finite.Regular source →
        Source.Finite.left source = data → Cursor.adopts source options = false →
        DetectsEnd source options data (Source.Finite.finish source)) ∧
      (options.adopt = false → DetectsEnd data options data .eof ∧
        ∀ capacity, DetectsEnd (⟨data, capacity⟩ : Buffer) options data .eof) ∧
      ∀ packets : List Bytes, packets.flatten = data →
        DetectsEnd (Packets.ofList packets) options data .eof ∧
        ∀ (messages : List String) (message : String),
          DetectsEnd ((messages ++ [message]).foldl Packets.failWith (Packets.ofList packets))
            options data (.source message) := by
  refine ⟨?_, ?_, ?_⟩
  · intro σ _ _ source hregular hleft hadopts
    exact detectsEnd_of_left hregular hleft rfl hadopts
  · intro hadopt
    refine ⟨?_, fun capacity => ?_⟩
    · exact detectsEnd_of_left trivial rfl rfl (by simp [Cursor.adopts, hadopt])
    · exact detectsEnd_of_left trivial rfl rfl (by simp [Cursor.adopts, hadopt])
  · rintro packets rfl
    refine ⟨Packets.detectsEnd packets none options, fun messages message => ?_⟩
    rw [Packets.foldl_failWith]
    exact Packets.detectsEnd packets (some message) options

/-- Two packets and a failure. The second of three peeks looks at the last byte and finds no end,
the third one looks behind it. -/
theorem History.run_detects_end_failing :
    ∃ (first last : Watched (Recorder Packets)) (h : History (Recorder Packets)),
      Watched.ofSource { source := ((Packets.ofList [[1], [2]]).failWith "late").failWith "gone" }
        { bufferSize := 2 } = .ok first ∧
      run { cursor := first.cursor } [.peek 1, .codePoint 2] = .ok h ∧
      [Operation.peek 1, .codePoint 2].mapM Operation.watch first = .ok (h.answers, last) ∧
      last.glances.map (fun g => (g.index, g.target)) = [(0, 0), (1, 1), (2, 2)] ∧
      h.cursor.isExhausted ∧ h.cursor.source.stream = [1, 2] ∧
      h.cursor.ended = some (.source "gone") := by
  obtain ⟨-, -, hpackets⟩ := run_detects_end [1, 2] { bufferSize := 2 }
  obtain ⟨-, hfailing⟩ := hpackets [[1], [2]] rfl
  obtain ⟨first, last, h, hfirst, -, hrun, -, hwatch, hcursor, hdetects, hended⟩ :=
    hfailing ["late"] "gone" _ rfl [.peek 1, .codePoint 2]
  cases hfirst
  cases hrun
  have hglances : last.glances.map (fun g => (g.index, g.target)) = [(0, 0), (1, 1), (2, 2)] := by
    cases hwatch
    rfl
  have hlast : (2, 2) ∈ last.glances.map fun g => (g.index, g.target) := by
    rw [hglances]
    decide
  obtain ⟨g, hg, hplace⟩ := List.mem_map.1 hlast
  obtain ⟨hindex, htarget⟩ := Prod.mk.inj hplace
  have hwithin : g.index < maxCapacity := by
    rw [hindex]
    decide
  have hexhausted := hdetects.isExhausted_iff.2 ⟨g, hg, hwithin, Nat.le_of_eq htarget.symm⟩
  rw [hcursor] at hexhausted
  exact ⟨_, last, _, rfl, rfl, hwatch, hglances, hexhausted, hended hexhausted⟩

end StreamCursor
