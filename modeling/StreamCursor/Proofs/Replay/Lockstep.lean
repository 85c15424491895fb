import StreamCursor.Proofs.Replay
import StreamCursor.Proofs.Scan
import StreamCursor.Proofs.Source.Finite

/-! Replays over sources that deliver just the data. Main statements: through every action the
cursor stands where the flat positions are, so that every check passes, and the flat positions
depend on the data and the actions alone. -/

namespace StreamCursor

open Cursor (Faithful)

namespace Flat

/-- What an action makes of the flat positions. -/
def follow (data : Bytes) (flat : Flat) : Action → Flat
  | .peek _ | .codePoint _ => flat
  | .advance n => { flat with position := min (flat.position + n) data.length }
  | .back n => { flat with position := max (flat.position - n) flat.start }
  | .mark => { flat with mark := some (flat.position - flat.start) }
  | .rewind =>
      match flat.mark with
      | some mark => { flat with position := flat.start + mark }
      | none => flat
  | .take | .commit => flat.commit
  | .release => { flat with reported := flat.committed }

variable {σ : Type} [Source σ] [Source.Finite σ] {data stream : Bytes} {cause : StreamEnd}
  {flat : Flat} {c : Cursor σ}

/-- The cursor stands where the flat positions are, after `stream` of the data was delivered. All
that was committed is reported or pending, and the mark lies in what was delivered. -/
structure Places (data : Bytes) (cause : StreamEnd) (flat : Flat) (stream : Bytes)
    (c : Cursor σ) : Prop where
  faithful : c.Faithful (Source.Finite.feed σ data cause) stream flat.reported
  start_eq : flat.start = c.tokenOffset
  position_eq : flat.position = c.offset
  committed_eq : flat.committed = c.tokenOffset
  reported_add : flat.reported + c.pending = flat.committed
  mark_le : ∀ mark, flat.mark = some mark → flat.start + mark ≤ stream.length

theorem places_front (h : c.Faithful (Source.Finite.feed σ data cause) stream 0)
    (hfront : c.AtFront) : Places data cause {} stream c := by
  constructor
  · exact h
  · exact hfront.tokenOffset.symm
  · rw [Cursor.offset_eq, hfront.tokenOffset, hfront.mark]
  · exact hfront.tokenOffset.symm
  · rw [hfront.pending]
  · intro mark hmark
    cases hmark

namespace Places

theorem position_eq_add (h : flat.Places data cause stream c) :
    flat.position = flat.start + c.window.mark := by
  rw [h.position_eq, h.start_eq, Cursor.offset_eq]

theorem position_le (h : flat.Places data cause stream c) : flat.position ≤ stream.length := by
  rw [h.position_eq]
  exact h.faithful.offset_le

theorem slice?_eq (h : flat.Places data cause stream c) :
    data.slice? flat.start flat.position = some c.token := by
  rw [h.start_eq, h.position_eq]
  exact h.faithful.slice?_data

/-- Reading on moves nothing. -/
theorem later (h : flat.Places data cause stream c) {part : Bytes} {later : Cursor σ}
    (hlater : Faithful.Later (Source.Finite.feed σ data cause) c stream flat.reported part later) :
    flat.Places data cause (stream ++ part) later := by
  constructor
  · exact hlater.faithful
  · rw [h.start_eq, hlater.samePlace.tokenOffset]
  · rw [h.position_eq, hlater.samePlace.offset]
  · rw [h.committed_eq, hlater.samePlace.tokenOffset]
  · rw [hlater.samePlace.pending, h.reported_add]
  · intro mark hmark
    have hle := h.mark_le mark hmark
    rw [List.length_append]
    omega

/-- A move within the token and what was delivered after it. -/
theorem reposition (h : flat.Places data cause stream c) {window : Window}
    (hbytes : window.bytes = c.window.bytes) (hstart : window.start = c.window.start)
    {position : Nat} (hposition : position = flat.start + window.mark) :
    Places data cause { flat with position } stream { c with window } := by
  have hoffset : Cursor.tokenOffset { c with window } = c.tokenOffset :=
    congrArg (c.base + ·) hstart
  constructor
  · exact h.faithful.reposition hbytes _
  · rw [hoffset]
    exact h.start_eq
  · rw [Cursor.offset_eq, hoffset, ← h.start_eq]
    exact hposition
  · rw [hoffset]
    exact h.committed_eq
  · exact h.reported_add
  · exact h.mark_le

theorem move_back (h : flat.Places data cause stream c) (n : Nat) :
    Places data cause { flat with position := max (flat.position - n) flat.start } stream
      (c.move (-n)) := by
  have hmark := Window.mark_move c.window (-n)
  have hposition := h.position_eq_add
  apply h.reposition (Window.bytes_move ..) (Window.start_move ..)
  omega

theorem move_one (h : flat.Places data cause stream c) (hlt : flat.position < stream.length) :
    Places data cause { flat with position := flat.position + 1 } stream (c.move 1) := by
  have hmark := Window.mark_move c.window 1
  have hsize := h.faithful.offset_add_size
  have hoffset := h.position_eq
  have hposition := h.position_eq_add
  apply h.reposition (Window.bytes_move ..) (Window.start_move ..)
  omega

theorem rewind (h : flat.Places data cause stream c) {mark : Nat} (hmark : flat.mark = some mark) :
    Places data cause { flat with position := flat.start + mark } stream (c.rewind mark) := by
  have hwithin := h.mark_le mark hmark
  have hsize := h.faithful.offset_add_size
  have hoffset := h.position_eq
  have hposition := h.position_eq_add
  apply h.reposition (Window.bytes_rewind ..) (Window.start_rewind ..)
  rw [Window.mark_rewind]
  omega

theorem remember (h : flat.Places data cause stream c) :
    Places data cause { flat with mark := some c.mark } stream c := by
  refine ⟨h.faithful, h.start_eq, h.position_eq, h.committed_eq, h.reported_add, ?_⟩
  intro mark hmark
  cases hmark
  have hle := h.position_le
  rw [h.position_eq_add] at hle
  exact hle

theorem commit (h : flat.Places data cause stream c) :
    Places data cause flat.commit stream c.commit := by
  have hposition := h.position_eq_add
  have hoffset : c.commit.tokenOffset = c.offset := by
    rw [Cursor.tokenOffset, Cursor.commit, Window.start_commit, Cursor.offset]
  constructor
  · exact h.faithful.reposition (Window.bytes_commit _) _
  · exact h.position_eq.trans hoffset.symm
  · rw [Cursor.offset_eq, hoffset]
    exact h.position_eq
  · have hstart := h.start_eq
    have hcommitted := h.committed_eq
    rw [hoffset, ← h.position_eq]
    change flat.committed + (flat.position - flat.start) = flat.position
    omega
  · have hreported := h.reported_add
    change flat.reported + (c.pending + c.window.mark) =
      flat.committed + (flat.position - flat.start)
    omega
  · intro mark hmark
    cases hmark

/-- What is pending is reported and consumed. -/
theorem release (h : flat.Places data cause stream c) :
    Places data cause { flat with reported := flat.reported + c.pending } stream c.release :=
  ⟨(h.faithful.reposition rfl 0).consume c.pending, h.start_eq, h.position_eq, h.committed_eq,
    h.reported_add, h.mark_le⟩

/-- With all that was committed reported, no block of the pool is in use. -/
theorem inFlight_eq_zero (h : flat.Places data cause stream c)
    (hreported : flat.reported = flat.committed) : c.pool.occupancy.inFlight = 0 := by
  obtain ⟨portions, hportions, haccounts⟩ := h.faithful.accounts
  have hcommitted := h.committed_eq
  have hlength : portions.flatten.length ≤ flat.reported := by
    rw [hportions, List.length_take, hreported, hcommitted, Cursor.tokenOffset]
    omega
  obtain ⟨hchain, -⟩ := haccounts.idle hlength
  rw [Pool.occupancy, hchain]
  rfl

/-- A peek shows the byte of the data. One at the cursor finds out whether there is one. -/
theorem peek (h : flat.Places data cause stream c) (hdata : data.length < maxCapacity) (k : Nat) :
    ∃ later part, c.peek k = .ok (data[flat.position + k]?.getD 0, later) ∧
      flat.Places data cause (stream ++ part) later ∧
      (k = 0 → later.isExhausted ∨ later.offset < (stream ++ part).length) := by
  have hposition := h.position_eq
  obtain ⟨later, part, hpeek, hlater, hreach⟩ := h.faithful.peek_data (Nat.le_of_lt hdata) k
  refine ⟨later, part, by rw [hpeek, hposition], h.later hlater, ?_⟩
  rintro rfl
  have hoffset := h.faithful.offset_le
  have hstream := h.faithful.length_stream_le
  have hwindow : c.window.position ≤ c.offset := Nat.le_add_left ..
  rw [hlater.samePlace.offset]
  exact hreach (by omega)

/-- A stride goes as far as there is data. -/
theorem stride (h : flat.Places data cause stream c) (hdata : data.length < maxCapacity)
    (n : Nat) :
    ∃ moved later part, Scan.stride n c = .ok (moved, later) ∧
      flat.position + moved = min (flat.position + n) data.length ∧
      Places data cause { flat with position := flat.position + moved } (stream ++ part) later := by
  induction n generalizing flat c stream with
  | zero =>
    have hposition := h.position_le
    have hstream := h.faithful.length_stream_le
    exact ⟨0, c, [], rfl, by omega, by rwa [List.append_nil]⟩
  | succ n ih =>
    obtain ⟨next, part, hpeek, hnext, hseen⟩ := h.peek hdata 0
    -- The peek has found either the next byte or the end, and the end stops the stride.
    have hend := hnext.faithful.visibleEnd_eq (hseen rfl)
    have hoffset := hnext.position_eq
    by_cases hlt : next.offset < data.length
    · have harrived : flat.position < (stream ++ part).length := by
        rcases hseen rfl with hended | hseen
        · rw [(hnext.faithful.stream_eq hended).1, hoffset]
          exact hlt
        · rwa [hoffset]
      obtain ⟨moved, later, more, hstride, hmoved, hlater⟩ := ih (hnext.move_one harrived)
      refine ⟨moved + 1, later, part ++ more, ?_, ?_, ?_⟩
      · rw [Scan.stride_succ n hpeek, hend, if_pos hlt, hstride]
        rfl
      · change flat.position + 1 + moved = min (flat.position + 1 + n) data.length at hmoved
        omega
      · rw [← List.append_assoc, Nat.add_comm moved, ← Nat.add_assoc]
        exact hlater
    · refine ⟨0, next, part, ?_, ?_, hnext⟩
      · rw [Scan.stride_succ n hpeek, hend, if_neg hlt]
        rfl
      · have hposition := hnext.position_le
        have hstream := hnext.faithful.length_stream_le
        omega

end Places
end Flat

namespace Replay

variable {σ : Type} [Source σ] [Source.Finite σ] {data stream : Bytes} {cause : StreamEnd}
  {flat : Flat} {c : Cursor σ} {replay : Replay σ}

/-- The replay has come to `flat`, and its cursor stands there. -/
def At (data : Bytes) (cause : StreamEnd) (flat : Flat) (replay : Replay σ) : Prop :=
  replay.flat = flat ∧ ∃ stream, flat.Places data cause stream replay.cursor

/-- An action on a cursor that stands where `flat` says passes, and the cursor follows. -/
theorem perform_reaches (h : flat.Places data cause stream c) (hdata : data.length < maxCapacity)
    (action : Action) :
    ∃ later part, Reaches (perform data action) ⟨c, flat⟩ () ⟨later, flat.follow data action⟩ ∧
      (flat.follow data action).Places data cause (stream ++ part) later := by
  have hnow : flat.Places data cause (stream ++ []) c := by rwa [List.append_nil]
  cases action with
  | peek n =>
    obtain ⟨later, part, hpeek, hlater, -⟩ := h.peek hdata n
    refine ⟨later, part, ?_, hlater⟩
    apply Reaches.bind .get
    apply Reaches.bind (.scan hpeek)
    exact .guard (not_not_intro rfl)
  | codePoint n =>
    obtain ⟨p, later, hpeek, hwidth, part, hlater⟩ :=
      Scan.peekCodePoint_readsOn n c ⟨[], Faithful.Later.refl h.faithful⟩
    refine ⟨later, part, ?_, h.later hlater⟩
    apply Reaches.bind (.scan hpeek)
    exact .guard (by omega)
  | advance n =>
    obtain ⟨moved, later, part, hstride, hmoved, hlater⟩ := h.stride hdata n
    refine ⟨later, part, ?_, ?_⟩
    · change Reaches _ _ () ⟨later, { flat with position := min (flat.position + n) data.length }⟩
      rw [← hmoved]
      apply Reaches.bind (.scan hstride)
      exact .changeFlat
    · rw [hmoved] at hlater
      exact hlater
  | back n =>
    refine ⟨c.move (-n), [], ?_, hnow.move_back n⟩
    apply Reaches.bind (.scan rfl)
    exact .changeFlat
  | mark =>
    have hmark : c.mark = flat.position - flat.start := by
      rw [h.position_eq_add, Nat.add_sub_cancel_left]
      rfl
    refine ⟨c, [], ?_, ?_⟩
    · change Reaches _ _ () ⟨c, { flat with mark := some (flat.position - flat.start) }⟩
      rw [← hmark]
      apply Reaches.bind .get
      exact .changeFlat
    · have hremember := hnow.remember
      rw [hmark] at hremember
      exact hremember
  | rewind =>
    rcases flat with ⟨start, position, _ | mark, committed, reported⟩
    · exact ⟨c, [], .bind .get .pure, hnow⟩
    · refine ⟨c.rewind mark, [], ?_, hnow.rewind rfl⟩
      apply Reaches.bind .get
      apply Reaches.bind (.scan rfl)
      exact .changeFlat
  | take =>
    refine ⟨c.commit, [], ?_, hnow.commit⟩
    apply Reaches.bind (.scan rfl)
    apply Reaches.bind (.flatToken h.slice?_eq)
    apply Reaches.bind (.expectBytes rfl)
    exact .changeFlat
  | commit =>
    refine ⟨c.commit, [], ?_, hnow.commit⟩
    apply Reaches.bind (.scan rfl)
    exact .changeFlat
  | release =>
    have hreported := h.reported_add
    have hrelease := hnow.release
    have hrun : Reaches (perform data .release) ⟨c, flat⟩ ()
        ⟨c.release, { flat with reported := flat.reported + c.pending }⟩ := by
      apply Reaches.bind (.scan rfl)
      apply Reaches.bind .changeFlat
      apply Reaches.bind (.scan rfl)
      apply Reaches.bind .get
      exact .expectNumber hreported
    rw [hreported] at hrun hrelease
    exact ⟨c.release, [], hrun, hrelease⟩

theorem compare_reaches (h : flat.Places data cause stream c) :
    Reaches (compare data) ⟨c, flat⟩ () ⟨c, flat⟩ := by
  apply Reaches.bind .get
  apply Reaches.bind (.flatToken h.slice?_eq)
  apply Reaches.bind (.expectBytes rfl)
  apply Reaches.bind (.expectNumber h.position_eq.symm)
  exact .expectNumber h.start_eq.symm

theorem action_reaches (hdata : data.length < maxCapacity) (flat : Flat) (action : Action)
    (replay : Replay σ) (h : At data cause flat replay) :
    ∃ next, Reaches (do perform data action; compare data) replay () next ∧
      At data cause (flat.follow data action) next := by
  rcases replay with ⟨c, flat⟩
  obtain ⟨rfl, stream, hplaces⟩ := h
  obtain ⟨later, part, hperform, hlater⟩ := perform_reaches hplaces hdata action
  exact ⟨_, .bind hperform (compare_reaches hlater), rfl, _, hlater⟩

/-- Every check passes, and the flat positions come out as the actions alone make them. -/
theorem check_reaches (h : At data cause flat replay) (hdata : data.length < maxCapacity)
    (actions : List Action) :
    ∃ last, Reaches (check data actions) replay () last ∧
      last.flat = actions.foldl (Flat.follow data) flat := by
  obtain ⟨last, hrun, hflat, stream, hlast⟩ := Reaches.forM (action_reaches hdata) actions h
  rw [← hflat] at hlast
  have hflight := hlast.release.inFlight_eq_zero hlast.reported_add
  refine ⟨{ last with cursor := last.cursor.release }, ?_, hflat⟩
  apply Reaches.bind hrun
  apply Reaches.bind (.scan rfl)
  apply Reaches.bind .get
  exact .expectNumber hflight

omit [Source.Finite σ] in
/-- The replay passes. Where its positions come to depends on the data and the actions alone. -/
def Succeeds (data : Bytes) (actions : List Action) (opened : Except Fault (Cursor σ)) : Prop :=
  (run data actions opened).2 = .ok () ∧
    ∃ cursor last, opened = .ok cursor ∧ Reaches (check data actions) { cursor } () last ∧
      last.flat = actions.foldl (Flat.follow data) {}

/-- No buffer holds more than `maxCapacity` bytes, and a token that long would leave no room to find
the end behind it. -/
theorem succeeds_of_left {source : σ} (hregular : Source.Finite.Regular source)
    (hleft : Source.Finite.left source = data) (hdata : data.length < maxCapacity)
    {options : Options} (hbuffer : options.bufferSize ≤ maxCapacity) (actions : List Action) :
    Succeeds data actions (Cursor.ofSource source options) := by
  have hfed : (Source.Finite.feed σ data (Source.Finite.finish source)).Holds source none [] :=
    .going hregular hleft rfl
  rcases Cursor.ofSource_faithful hfed options with ⟨hmax, -⟩ | ⟨c, stream, hopen, hc, hfront⟩
  · omega
  · have hat : At data (Source.Finite.finish source) {} { cursor := c } :=
      ⟨rfl, stream, Flat.places_front hc hfront⟩
    obtain ⟨last, hrun, hflat⟩ := check_reaches hat hdata actions
    have hverdict : (check data actions).run.run { cursor := c } = (.ok (), last) := hrun
    refine ⟨?_, c, last, hopen, hrun, hflat⟩
    simp only [run, hopen, hverdict]

/-- However the data is delivered, a replay of any actions passes: the cursor shows the bytes of
the data, stands where the flat positions are after every action, reports what it committed, and
leaves no block of the pool in use. Data of `maxCapacity` bytes is left out, as no memory holds it
beside a buffer of that size. -/
theorem succeeds_for_any_delivery (data : Bytes) (actions : List Action) (options : Options)
    (hdata : data.length < maxCapacity) (hbuffer : options.bufferSize ≤ maxCapacity) :
    (∀ (σ : Type) [Source σ] [Source.Finite σ] (source : σ), Source.Finite.Regular source →
        Source.Finite.left source = data →
        Succeeds data actions (Cursor.ofSource source options)) ∧
      Succeeds data actions (Cursor.ofSource data options) ∧
      (∀ capacity, Succeeds data actions (Cursor.ofSource (⟨data, capacity⟩ : Buffer) options)) ∧
      (∀ packets : List Bytes, packets.flatten = data →
        Succeeds data actions (Cursor.ofSource (Packets.ofList packets) options)) ∧
      ∀ cuts, (Trial.run ⟨data, cuts, options, actions⟩).2 = .ok () := by
  have hbytes : Succeeds data actions (Cursor.ofSource data options) :=
    succeeds_of_left trivial rfl hdata hbuffer actions
  have hpackets (packets : List Bytes) (hflatten : packets.flatten = data) :
      Succeeds data actions (Cursor.ofSource (Packets.ofList packets) options) := by
    apply succeeds_of_left ?_ ?_ hdata hbuffer actions
    · intro hnil
      exact Packets.queue_ofList_ne_nil hnil rfl
    · exact (Packets.flatten_queue_ofList packets).trans hflatten
  refine ⟨?_, hbytes, ?_, hpackets, ?_⟩
  · intro σ _ _ source hregular hleft
    exact succeeds_of_left hregular hleft hdata hbuffer actions
  · intro capacity
    exact succeeds_of_left trivial rfl hdata hbuffer actions
  · intro cuts
    unfold Trial.run
    split
    · exact hbytes.1
    · exact (hpackets _ (Bytes.flatten_cutBy data cuts)).1

theorem succeeds_for_small_packets :
    ∃ cursor last,
      Cursor.ofSource (Packets.ofList [[1], [], [2, 3, 4], [5, 6]])
        { bufferSize := 0, adopt := false } = .ok cursor ∧
      Reaches (check [1, 2, 3, 4, 5, 6] [.advance 3, .mark, .advance 9, .rewind, .take, .peek 7,
        .release, .advance 2, .back 1, .codePoint 1, .commit]) { cursor } () last ∧
      last.flat = ⟨4, 4, none, 4, 3⟩ := by
  obtain ⟨-, -, -, hpackets, -⟩ := succeeds_for_any_delivery [1, 2, 3, 4, 5, 6]
    [.advance 3, .mark, .advance 9, .rewind, .take, .peek 7, .release, .advance 2, .back 1,
      .codePoint 1, .commit] { bufferSize := 0, adopt := false } (by decide) (by decide)
  obtain ⟨-, cursor, last, hopen, hrun, hflat⟩ := hpackets [[1], [], [2, 3, 4], [5, 6]] rfl
  exact ⟨cursor, last, hopen, hrun, hflat⟩

end Replay
end StreamCursor
