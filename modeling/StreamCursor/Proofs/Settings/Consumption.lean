import StreamCursor.Proofs.Cursor.Consumption
import StreamCursor.Proofs.History.Tracking
import StreamCursor.Proofs.Settings.Parser

/-! What reading settings leaves behind. Main statement: whatever the source does, once all entries
are read, the stream is consumed up to its end and the pool is empty, and each entry starts where
its key stands in the stream, behind the entry before it. -/

namespace StreamCursor

namespace Text

theorem utf8EncodeChar_ofNat {b : UInt8} (h : b < 0x80) :
    String.utf8EncodeChar (Char.ofNat b.toNat) = [b] := by
  have hlt : b.toNat < 0x80 := h
  have hvalue : (Char.ofNat b.toNat).val.toNat = b.toNat := by
    have hvalid : b.toNat.isValidChar := .inl (by omega)
    rw [Char.ofNat, dif_pos hvalid]
    rfl
  have hle : (Char.ofNat b.toNat).val ≤ 0x7F := by
    rw [UInt32.le_iff_toNat_le, hvalue]
    exact Nat.le_of_lt_succ hlt
  rw [String.utf8EncodeChar_eq_singleton (if_pos hle)]
  congr 1
  rw [← UInt8.toNat_inj, UInt32.toNat_toUInt8, hvalue, Nat.mod_eq_of_lt b.toNat_lt]

/-- ASCII text is its own encoding. -/
theorem flatMap_utf8EncodeChar_lossy {bytes : Bytes} (h : ∀ b ∈ bytes, b < 0x80) :
    (lossy bytes).toList.flatMap String.utf8EncodeChar = bytes := by
  rw [lossy_eq_ascii h, ascii, String.toList_ofList, List.flatMap_map]
  induction bytes with
  | nil => rfl
  | cons b bytes ih =>
    rw [List.forall_mem_cons] at h
    rw [List.flatMap_cons, utf8EncodeChar_ofNat h.1, ih h.2]
    rfl

end Text

namespace Settings

open Cursor (Balanced Onward Walked)

section Reading

open Scan (Mirrors)

variable {σ τ α : Type} {c later : Cursor σ}

theorem scan_eq_ok {s : Scan σ α} {a : α} (h : scan s c = .ok (a, later)) :
    s c = .ok (a, later) := by
  rw [scan] at h
  cases hs : s c with
  | error fault =>
    rw [hs] at h
    cases h
  | ok p =>
    rw [hs] at h
    cases h
    rfl

theorem scan_mirrors {f : σ → τ} {s : Scan σ α} {t : Scan τ α} (h : Mirrors f s t) :
    Mirrors f (scan s) (scan t) := by
  intro c
  rw [scan, h c]
  change _ = Cursor.mapResult f ((s c).mapError Failure.buffer)
  cases s c <;> rfl

/-- What one turn of the loop does. -/
theorem entriesWithin_succ_eq_ok [Source σ] {limit : Nat} {es : List Entry}
    (hrun : entriesWithin (limit + 1) c = .ok (es, later)) :
    ∃ u c₁ b c₂, skipBlank c = .ok (u, c₁) ∧ c₁.peek 0 = .ok (b, c₂) ∧
      ((es = [] ∧ later = c₂ ∧ c₂.visibleEnd.isSome) ∨
        (b = 0x23 ∧ ∃ u next, skipComment c₂ = .ok (u, next) ∧
          entriesWithin limit next.release = .ok (es, later)) ∨
        ∃ e es' next, entry c₂ = .ok (e, next) ∧
          entriesWithin limit next.release = .ok (es', later) ∧ es = e :: es') := by
  obtain ⟨u, c₁, hblank, hlooks⟩ := Scan.bind_eq_ok hrun
  obtain ⟨b, c₂, hpeek, hasks⟩ := Scan.bind_eq_ok hlooks
  obtain ⟨end?, _, hend, hgoes⟩ := Scan.bind_eq_ok hasks
  cases scan_eq_ok hend
  refine ⟨u, c₁, b, c₂, scan_eq_ok hblank, scan_eq_ok hpeek, ?_⟩
  split at hgoes
  next hstop =>
    cases hgoes
    exact .inl ⟨rfl, rfl, hstop.2⟩
  split at hgoes
  next hcomment =>
    obtain ⟨u, next, hskip, hreleases⟩ := Scan.bind_eq_ok hgoes
    obtain ⟨_, _, hrelease, hrest⟩ := Scan.bind_eq_ok hreleases
    cases scan_eq_ok hrelease
    exact .inr (.inl ⟨hcomment, u, next, scan_eq_ok hskip, hrest⟩)
  next =>
    obtain ⟨e, next, hread, hreleases⟩ := Scan.bind_eq_ok hgoes
    obtain ⟨_, _, hrelease, hrests⟩ := Scan.bind_eq_ok hreleases
    cases scan_eq_ok hrelease
    obtain ⟨es', _, hrest, hlast⟩ := Scan.bind_eq_ok hrests
    cases hlast
    exact .inr (.inr ⟨e, es', next, hread, hrest, rfl⟩)

variable [Source σ] [Source τ] (v : Source.View σ τ)

theorem skipBlank_mirrors : Mirrors v.see skipBlank skipBlank :=
  .bind (Scan.walk_mirrors v _ _) fun _ _ => rfl

theorem skipComment_mirrors : Mirrors v.see skipComment skipComment :=
  .bind (Scan.walk_mirrors v _ _) fun _ _ => rfl

theorem word_mirrors : Mirrors v.see word word :=
  .bind (Scan.walk_mirrors v _ _) fun _ _ => rfl

theorem quotedText_mirrors : Mirrors v.see quotedText quotedText :=
  .bind (fun _ => rfl) fun _ => .bind (fun _ => rfl) fun _ =>
    .bind (Scan.walk_mirrors v _ _) fun _ _ => rfl

theorem value_mirrors : Mirrors v.see value value :=
  .bind (skipBlank_mirrors v) fun _ => .bind (Scan.peek_mirrors v 0) fun _ =>
    .ite (quotedText_mirrors v) (word_mirrors v)

theorem entry_mirrors : Mirrors v.see entry entry := by
  refine .bind (fun _ => rfl) fun offset => .bind (scan_mirrors (word_mirrors v)) fun key => ?_
  refine .bind (scan_mirrors (skipBlank_mirrors v)) fun _ => ?_
  refine .bind (scan_mirrors (Scan.peek_mirrors v 0)) fun found => .ite (fun _ => rfl) ?_
  refine .bind (fun _ => rfl) fun _ => .bind (fun _ => rfl) fun _ => ?_
  exact .bind (scan_mirrors (value_mirrors v)) fun value => .pure _ _

theorem entriesWithin_mirrors (limit : Nat) :
    Mirrors v.see (entriesWithin limit) (entriesWithin limit) := by
  induction limit with
  | zero => exact .pure _ _
  | succ limit ih =>
    refine .bind (scan_mirrors (skipBlank_mirrors v)) fun _ => ?_
    refine .bind (scan_mirrors (Scan.peek_mirrors v 0)) fun b => .bind (fun _ => rfl) fun end? => ?_
    refine .ite (.pure _ _) (.ite ?comment ?entry)
    case comment =>
      exact .bind (scan_mirrors (skipComment_mirrors v)) fun _ => .bind (fun _ => rfl) fun _ => ih
    case entry =>
      exact .bind (entry_mirrors v) fun e => .bind (fun _ => rfl) fun _ =>
        .bind ih fun es => .pure _ _

end Reading

section Consuming

variable {σ : Type} [Source σ] {c later : Cursor (Recorder σ)} {u : Unit}

/-- Behind blanks, the byte at the start of the token can be told, and what is pending is buffered
still if nothing was pending before. -/
theorem onward_skipBlank (h : c.Balanced) (hrun : skipBlank c = .ok (u, later)) :
    c.Onward later ∧ later.window.mark = 0 ∧ later.Answers 0 ∧
      (c.pending = 0 → later.base + later.pending ≤ later.tokenOffset) := by
  obtain ⟨n, next, hwalk, hcommit⟩ := Scan.bind_eq_ok hrun
  cases hcommit
  obtain ⟨bytes, -, hwalked⟩ := Scan.walked_of_walk Ascii.not_isSpace_zero h hwalk
  refine ⟨hwalked.onward.committed, rfl, hwalked.answers.commit,
    fun hnone => ?_⟩
  have hpending := hwalked.pending_eq
  rw [Cursor.Faithful.tokenOffset_commit]
  change next.base + (next.pending + next.window.mark) ≤
    next.base + (next.window.start + next.window.mark)
  omega

theorem onward_skipComment (h : c.Balanced) (hmark : c.window.mark = 0)
    (hb : c.source.stream[c.offset]? = some 0x23) (hrun : skipComment c = .ok (u, later)) :
    c.Onward later ∧ c.tokenOffset < later.tokenOffset := by
  obtain ⟨n, next, hwalk, hcommit⟩ := Scan.bind_eq_ok hrun
  cases hcommit
  obtain ⟨bytes, hlength, hwalked⟩ := Scan.walked_of_walk rfl h hwalk
  have hpos := Scan.walk_pos h hb rfl hwalk
  have hoffset := hwalked.offset_eq
  have hplace := Cursor.offset_eq c
  refine ⟨hwalked.onward.committed, ?_⟩
  rw [Cursor.Faithful.tokenOffset_commit]
  omega

/-- A word is read off the stream, where the token starts. -/
theorem onward_word (h : c.Balanced) (hmark : c.window.mark = 0) {text : String}
    (hrun : word c = .ok (text, later)) :
    c.Onward later ∧ later.window.mark = 0 ∧
      text.toList.flatMap String.utf8EncodeChar <+: later.source.stream.drop c.tokenOffset := by
  obtain ⟨n, next, hwalk, hrest⟩ := Scan.bind_eq_ok hrun
  obtain ⟨token, last, htake, htext⟩ := Scan.bind_eq_ok hrest
  cases htake
  cases htext
  obtain ⟨bytes, -, hwalked⟩ := Scan.walked_of_walk Ascii.not_isAlphanumeric_zero h hwalk
  obtain ⟨freed, hnext, -⟩ := hwalked.onward.balanced
  have hplace : c.offset = c.tokenOffset := by rw [Cursor.offset_eq, hmark, Nat.add_zero]
  have hprefix := hwalked.isPrefix
  have htoken : next.token = bytes := by
    rw [hnext.token_eq, hwalked.offset_eq, hwalked.tokenOffset_eq, hplace,
      Nat.add_sub_cancel_left]
    rw [hplace] at hprefix
    exact (List.prefix_iff_eq_take.1 hprefix).symm
  refine ⟨hwalked.onward.committed, rfl, ?_⟩
  rw [htoken, Text.flatMap_utf8EncodeChar_lossy fun b hb =>
    Ascii.lt_of_isAlphanumeric (hwalked.all b hb), ← hplace]
  exact hprefix

theorem onward_quotedText (h : c.Balanced) {text : String}
    (hrun : quotedText c = .ok (text, later)) : c.Onward later := by
  obtain ⟨_, c₁, hmove, hrun⟩ := Scan.bind_eq_ok hrun
  cases hmove
  obtain ⟨_, c₂, hcommit, hrun⟩ := Scan.bind_eq_ok hrun
  cases hcommit
  obtain ⟨n, c₃, hwalk, hrun⟩ := Scan.bind_eq_ok hrun
  obtain ⟨token, c₄, htake, hrun⟩ := Scan.bind_eq_ok hrun
  cases htake
  cases hrun
  have hopened := (h.move 1).committed
  obtain ⟨bytes, -, hwalked⟩ := Scan.walked_of_walk rfl hopened.balanced hwalk
  have htaken := hwalked.onward.committed
  exact hopened.trans (htaken.moved 1).committed

theorem onward_value (h : c.Balanced) {text : String} (hrun : value c = .ok (text, later)) :
    c.Onward later := by
  obtain ⟨_, c₁, hblank, hrun⟩ := Scan.bind_eq_ok hrun
  obtain ⟨b, c₂, hpeek, hrun⟩ := Scan.bind_eq_ok hrun
  obtain ⟨hblanks, hmark, -⟩ := onward_skipBlank h hblank
  obtain ⟨hpeeked, hplace, -⟩ := hblanks.balanced.peek hpeek
  have hreached := hblanks.trans hpeeked
  split at hrun
  · exact hreached.trans (onward_quotedText hreached.balanced hrun)
  · exact hreached.trans (onward_word hreached.balanced (hplace.mark.trans hmark) hrun).1

/-- An entry tells where its key stands, and takes its equals sign at least. -/
theorem onward_entry (h : c.Balanced) (hmark : c.window.mark = 0) {e : Entry}
    (hrun : entry c = .ok (e, later)) :
    c.Onward later ∧ e.offset = c.tokenOffset ∧ c.tokenOffset < later.tokenOffset ∧
      e.key.toList.flatMap String.utf8EncodeChar <+: later.source.stream.drop e.offset := by
  obtain ⟨offset, c₀, hoffset, hrun⟩ := Scan.bind_eq_ok hrun
  cases hoffset
  obtain ⟨key, c₁, hword, hrun⟩ := Scan.bind_eq_ok hrun
  obtain ⟨_, c₂, hblank, hrun⟩ := Scan.bind_eq_ok hrun
  obtain ⟨found, c₃, hpeek, hrun⟩ := Scan.bind_eq_ok hrun
  split at hrun
  · cases hrun
  next hequals =>
    obtain ⟨_, c₄, hmove, hrun⟩ := Scan.bind_eq_ok hrun
    cases scan_eq_ok hmove
    obtain ⟨_, c₅, hcommit, hrun⟩ := Scan.bind_eq_ok hrun
    cases scan_eq_ok hcommit
    obtain ⟨text, c₆, hvalue, hrun⟩ := Scan.bind_eq_ok hrun
    cases hrun
    obtain ⟨hword, hmark, hkey⟩ := onward_word h hmark (scan_eq_ok hword)
    obtain ⟨hblank, hmark, -⟩ := onward_skipBlank hword.balanced (scan_eq_ok hblank)
    obtain ⟨hpeeked, hplace, -, hbyte⟩ := hblank.balanced.peek (scan_eq_ok hpeek)
    have hb := hbyte (by rw [Decidable.not_not.1 hequals]; decide)
    rw [Nat.add_zero, ← hplace.offset] at hb
    obtain ⟨hlt, -⟩ := List.getElem?_eq_some_iff.1 hb
    have hmoved := hpeeked.balanced.offset_move_one hlt
    have hsign := (hpeeked.balanced.move 1).committed
    have hbehind := onward_value hsign.balanced (scan_eq_ok hvalue)
    have hlast := hsign.trans hbehind
    have hall := (hword.trans hblank).trans hpeeked
    have htoken := Cursor.Faithful.tokenOffset_le c₃
    refine ⟨hall.trans hlast, rfl, ?_, ?_⟩
    · have hbefore := hall.tokenOffset_le
      have hafter := hbehind.tokenOffset_le
      rw [Cursor.Faithful.tokenOffset_commit, hmoved] at hafter
      omega
    · exact hkey.trans (((hblank.trans hpeeked).trans hlast).isPrefix_drop _)

/-- What is true of the entries that were read on the way from a cursor to another one: each starts
where its key stands, behind the entry before it. -/
structure InPlace (c : Cursor (Recorder σ)) (es : List Entry) (later : Cursor (Recorder σ)) :
    Prop where
  after : ∀ e ∈ es, c.tokenOffset ≤ e.offset
  ordered : es.Pairwise (·.offset < ·.offset)
  key : ∀ e ∈ es,
    e.key.toList.flatMap String.utf8EncodeChar <+: later.source.stream.drop e.offset

namespace InPlace

variable {d : Cursor (Recorder σ)} {es : List Entry} {e : Entry}

omit [Source σ] in
theorem nil : InPlace c [] later := ⟨List.forall_mem_nil _, .nil, List.forall_mem_nil _⟩

omit [Source σ] in
theorem of_le (h : InPlace d es later) (hle : c.tokenOffset ≤ d.tokenOffset) :
    InPlace c es later :=
  ⟨fun e he => Nat.le_trans hle (h.after e he), h.ordered, h.key⟩

theorem cons (h : InPlace d es later) (hafter : c.tokenOffset ≤ e.offset)
    (hbefore : e.offset < d.tokenOffset)
    (hkey : e.key.toList.flatMap String.utf8EncodeChar <+: d.source.stream.drop e.offset)
    (honward : d.Onward later) : InPlace c (e :: es) later where
  after := List.forall_mem_cons.2 ⟨hafter, fun e' he' =>
    Nat.le_of_lt (Nat.lt_of_le_of_lt hafter (Nat.lt_of_lt_of_le hbefore (h.after e' he')))⟩
  ordered := List.pairwise_cons.2
    ⟨fun e' he' => Nat.lt_of_lt_of_le hbefore (h.after e' he'), h.ordered⟩
  key := List.forall_mem_cons.2 ⟨hkey.trans (honward.isPrefix_drop _), h.key⟩

end InPlace

/-- The cursor sees the end of the stream at the start of its token, and what is pending is buffered
still. -/
structure Done (c : Cursor (Recorder σ)) : Prop where
  visibleEnd : c.visibleEnd.isSome
  mark_eq : c.window.mark = 0
  buffered : c.base + c.pending ≤ c.tokenOffset

/-- The loop stops with the stream consumed, unless its limit stops it. -/
theorem entriesWithin_onward {limit : Nat} {es : List Entry} (h : c.Balanced)
    (hpending : c.pending = 0) (hrun : entriesWithin limit c = .ok (es, later)) :
    c.Onward later ∧ InPlace c es later ∧
      (c.tokenOffset + limit ≤ later.tokenOffset ∨ Done later) := by
  induction limit generalizing c es with
  | zero =>
    cases hrun
    exact ⟨h.onward_refl, .nil, .inl (Nat.le_refl _)⟩
  | succ limit ih =>
    obtain ⟨_, c₁, b, c₂, hblank, hpeek, hcases⟩ := entriesWithin_succ_eq_ok hrun
    obtain ⟨hblanks, hmark, hanswers, hbuffered⟩ := onward_skipBlank h hblank
    obtain ⟨freed, hc₁, -⟩ := hblanks.balanced
    -- The walk over the blanks has found out already what is behind them.
    have hsame : c₂ = c₁ := (hc₁.toSound.peeked_of_peek hpeek).eq_of_answers hc₁.toSound hanswers
    obtain ⟨-, -, -, hbyte⟩ := hblanks.balanced.peek hpeek
    have hstart := hblanks.tokenOffset_le
    rw [hsame] at hbyte hcases
    rcases hcases with ⟨rfl, rfl, hend⟩ | ⟨rfl, _, next, hskip, hrest⟩ |
      ⟨e, es', next, hread, hrest, rfl⟩
    · exact ⟨hblanks, .nil, .inr ⟨hend, hmark, hbuffered hpending⟩⟩
    · obtain ⟨hskipped, hforth⟩ := onward_skipComment hblanks.balanced hmark
        (hbyte (by decide)) hskip
      have hpassed := (hblanks.trans hskipped).released
      obtain ⟨hlater, hplaced, hends⟩ := ih hpassed.balanced rfl hrest
      have hreleased : next.release.tokenOffset = next.tokenOffset := rfl
      refine ⟨hpassed.trans hlater, hplaced.of_le hpassed.tokenOffset_le, hends.imp_left ?_⟩
      omega
    · obtain ⟨hentry, hoffset, hforth, hkey⟩ := onward_entry hblanks.balanced hmark hread
      have hpassed := (hblanks.trans hentry).released
      obtain ⟨hlater, hplaced, hends⟩ := ih hpassed.balanced rfl hrest
      have hreleased : next.release.tokenOffset = next.tokenOffset := rfl
      rw [← hoffset] at hstart hforth
      refine ⟨hpassed.trans hlater, hplaced.cons hstart hforth hkey hlater, hends.imp_left ?_⟩
      omega

theorem Done.ends (h : Done c) (hc : c.Balanced) :
    c.offset = c.source.stream.length ∧ c.tokenOffset = c.source.stream.length := by
  obtain ⟨freed, hfaithful, -⟩ := hc
  obtain ⟨cause, hcause⟩ := Option.isSome_iff_exists.1 h.visibleEnd
  have hoffset := ((hfaithful.visibleEnd_eq_some_iff cause).1 hcause).2
  have hplace := Cursor.offset_eq c
  have hmark := h.mark_eq
  omega

end Consuming

variable {σ : Type} [Source σ]

/-- Whatever the source does, a cursor that has yielded its entries has consumed all that was
delivered and seen its end, and its pool is empty, though what the last blanks committed was never
released. The keys stand in the stream where the entries say, one behind the other. A limit that
exceeds the number of bytes delivered is never met, so that this holds of `entries` with none. -/
theorem entries_consumes {source : σ} {options : Options} {opened : Cursor σ}
    (hopen : Cursor.ofSource source options = .ok opened) :
    ∃ start : Cursor (Recorder σ),
      Cursor.ofSource { source : Recorder σ } options = .ok start ∧
      start.mapSource Recorder.source = opened ∧
      ∀ limit,
        entriesWithin limit opened =
          Cursor.mapResult Recorder.source (entriesWithin limit start) ∧
        ∀ es later, entriesWithin limit start = .ok (es, later) →
          later.source.stream.length < limit →
          later.offset = later.source.stream.length ∧
          later.tokenOffset = later.source.stream.length ∧
          later.visibleEnd.isSome ∧
          later.pool.occupancy.inFlight = 0 ∧
          later.pool.occupancy.unconsumed = 0 ∧
          es.Pairwise (·.offset < ·.offset) ∧
          ∀ e ∈ es, e.key.toList.flatMap String.utf8EncodeChar <+:
            later.source.stream.drop e.offset := by
  obtain ⟨start, stream, hstart, rfl, hfaithful, hfront⟩ := History.ofSource_recorded hopen
  refine ⟨start, hstart, rfl, fun limit => ?_⟩
  refine ⟨entriesWithin_mirrors (Recorder.view σ) limit start, fun es later hrun hlimit => ?_⟩
  obtain ⟨honward, hplaced, hends⟩ :=
    entriesWithin_onward (.start hfaithful hfront) hfront.pending hrun
  have hbalanced := honward.balanced
  obtain ⟨freed, hlater, -⟩ := honward.balanced
  have hle := hlater.offset_le
  have htoken := Cursor.Faithful.tokenOffset_le later
  have hdone : Done later := hends.resolve_left (by omega)
  obtain ⟨hoffset, htokenOffset⟩ := hdone.ends hbalanced
  obtain ⟨hinFlight, hunconsumed⟩ := hbalanced.drained hdone.buffered
  exact ⟨hoffset, htokenOffset, hdone.visibleEnd, hinFlight, hunconsumed, hplaced.ordered,
    hplaced.key⟩

theorem entries_consumes_unreleased :
    let source := Packets.ofList [[0x23, 0x61, 0x0A, 0x6B, 0x3D], [0x31, 0x20], [0x20]]
    ∃ start later,
      Cursor.ofSource ({ source } : Recorder Packets) { bufferSize := 1, adopt := false } =
        .ok start ∧
      entries start = .ok ([⟨3, "k", "1"⟩], later) ∧ later.pending = 2 ∧
      later.tokenOffset = later.source.stream.length ∧ later.pool.occupancy.inFlight = 0 := by
  intro source
  have hopen : Cursor.ofSource source { bufferSize := 1, adopt := false } = .ok _ := rfl
  obtain ⟨start, hstart, -, hreads⟩ := entries_consumes hopen
  have hshown : (Cursor.ofSource ({ source } : Recorder Packets)
        { bufferSize := 1, adopt := false }).toOption.bind (fun c => (entries c).toOption.map
          fun p => (p.1, p.2.pending, p.2.source.stream.length)) =
      some ([⟨3, "k", "1"⟩], 2, 8) := by
    decide +kernel
  rw [hstart] at hshown
  change (entries start).toOption.map _ = _ at hshown
  cases hrun : entries start with
  | error failure =>
    rw [hrun] at hshown
    cases hshown
  | ok p =>
    obtain ⟨es, later⟩ := p
    rw [hrun] at hshown
    obtain ⟨rfl, hpending, hlength⟩ : es = [⟨3, "k", "1"⟩] ∧ later.pending = 2 ∧
        later.source.stream.length = 8 := by
      simpa [Except.toOption] using hshown
    have hlimit : later.source.stream.length < maxCapacity := hlength ▸ by decide
    obtain ⟨-, htoken, -, hinFlight, -⟩ := (hreads maxCapacity).2 _ later hrun hlimit
    exact ⟨start, later, hstart, hrun, hpending, htoken, hinFlight⟩

end Settings
end StreamCursor
