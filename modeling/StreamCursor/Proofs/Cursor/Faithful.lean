import StreamCursor.Proofs.Cursor.Refill
import StreamCursor.Proofs.Pool.Accounting

/-! A cursor beside the stream that its source delivered so far. Main statements: reading extends
the stream and leaves the cursor at its place, a peek sees the byte of the stream, and no
operation on a cursor that is faithful to a stream fails. -/

namespace StreamCursor

/-- A statement about a source, why it ended and the bytes it delivered, that every read keeps. -/
structure Feed (σ : Type) [Source σ] where
  Holds : σ → Option StreamEnd → Bytes → Prop
  takeAll : ∀ {source : σ}, Holds source none [] →
    match Source.takeAll source with
    | (some buffer, rest) => Holds rest (some .eof) buffer.bytes
    | (none, rest) => Holds rest none []
  read : ∀ {source : σ} {delivered : Bytes} {slot : Slot}, Holds source none delivered →
    0 < slot.size →
    Holds (Source.read source slot).2 ((Source.read source slot).1.ending slot)
      (delivered ++ (Source.read source slot).1.delivered slot)

/-- The feed that says nothing, which every source keeps. -/
def Feed.any (σ : Type) [Source σ] : Feed σ where
  Holds _ _ _ := True
  takeAll := by
    intro source _
    split <;> trivial
  read _ _ := trivial

namespace Cursor

variable {σ : Type} [Source σ]

/-- The window and the pool hold the bytes of `stream` that they should: the window those from
`base` on, the pool those before, less the `freed` ones. -/
structure Faithful (feed : Feed σ) (c : Cursor σ) (stream : Bytes) (freed : Nat) : Prop
    extends Sound c where
  fed : feed.Holds c.source c.ended stream
  base_le : c.base ≤ stream.length
  bytes_eq : c.window.bytes = stream.drop c.base
  accounts : ∃ portions, portions.flatten = stream.take c.base ∧ c.pool.Accounts portions freed

/-- `later` stands at the same place of the stream as `c`, in the same token. -/
structure SamePlace (c later : Cursor σ) : Prop where
  tokenOffset : later.tokenOffset = c.tokenOffset
  mark : later.window.mark = c.window.mark
  pending : later.pending = c.pending
  position_le : later.window.position ≤ c.window.position

omit [Source σ] in
theorem SamePlace.refl (c : Cursor σ) : c.SamePlace c := ⟨rfl, rfl, rfl, Nat.le_refl _⟩

omit [Source σ] in
theorem SamePlace.trans {c d e : Cursor σ} (h : c.SamePlace d) (h' : d.SamePlace e) :
    c.SamePlace e :=
  ⟨h'.tokenOffset.trans h.tokenOffset, h'.mark.trans h.mark, h'.pending.trans h.pending,
    Nat.le_trans h'.position_le h.position_le⟩

omit [Source σ] in
theorem offset_eq (c : Cursor σ) : c.offset = c.tokenOffset + c.window.mark := by
  simp [offset, tokenOffset, Window.position, Nat.add_assoc]

omit [Source σ] in
theorem SamePlace.offset {c later : Cursor σ} (h : c.SamePlace later) :
    later.offset = c.offset := by
  rw [offset_eq, offset_eq, h.tokenOffset, h.mark]

namespace Faithful

variable {feed : Feed σ} {c : Cursor σ} {stream : Bytes} {freed k : Nat}

theorem arrived_eq (h : c.Faithful feed stream freed) : c.arrived = stream.length := by
  have hlength := congrArg List.length h.bytes_eq
  have hbase := h.base_le
  rw [Window.length_bytes, List.length_drop] at hlength
  rw [arrived, hlength]
  omega

theorem offset_add_size (h : c.Faithful feed stream freed) :
    c.offset + c.window.ahead.size = stream.length := by
  rw [← h.arrived_eq, arrived, Window.stop, offset, Nat.add_assoc]

theorem offset_le (h : c.Faithful feed stream freed) : c.offset ≤ stream.length := by
  have := h.offset_add_size
  omega

omit [Source σ] in
theorem tokenOffset_le (c : Cursor σ) : c.tokenOffset ≤ c.offset := by
  rw [offset_eq]
  exact Nat.le_add_right ..

theorem tokenOffset_le_length (h : c.Faithful feed stream freed) :
    c.tokenOffset ≤ stream.length :=
  Nat.le_trans (tokenOffset_le c) h.offset_le

theorem kept_eq (h : c.Faithful feed stream freed) :
    c.window.kept = stream.drop c.tokenOffset := by
  rw [← Window.drop_start, h.bytes_eq, List.drop_drop, tokenOffset]

theorem token_eq (h : c.Faithful feed stream freed) :
    c.token = (stream.drop c.tokenOffset).take (c.offset - c.tokenOffset) := by
  rw [token, ← Window.take_mark, h.kept_eq, offset_eq, Nat.add_sub_cancel_left]

theorem ahead_eq (h : c.Faithful feed stream freed) :
    c.window.ahead.bytes = stream.drop c.offset := by
  rw [← Window.drop_position, h.bytes_eq, List.drop_drop, offset]

theorem get?_eq (h : c.Faithful feed stream freed) (k : Nat) :
    c.window.ahead.get? k = stream[c.offset + k]? := by
  rw [Lookahead.get?_eq, h.ahead_eq, List.getElem?_drop]

/-- The window with its cursor elsewhere serves as well. -/
theorem reposition (h : c.Faithful feed stream freed) {window : Window}
    (hwindow : window.bytes = c.window.bytes) (pending : Nat) :
    Faithful feed { c with window, pending } stream freed :=
  ⟨h.toSound.reposition hwindow pending, h.fed, h.base_le, hwindow.trans h.bytes_eq, h.accounts⟩

theorem consume (h : c.Faithful feed stream freed) (n : Nat) :
    (c.consume n).Faithful feed stream (freed + n) := by
  obtain ⟨portions, hportions, haccounts⟩ := h.accounts
  exact ⟨h.toSound.consume n, h.fed, h.base_le, h.bytes_eq, portions, hportions,
    haccounts.consume n⟩

theorem log (h : c.Faithful feed stream freed) (events : List Event) :
    (c.log events).Faithful feed stream freed :=
  ⟨⟨h.room, h.capacity_pos, h.capacity_le, h.blocks_le⟩, h.fed, h.base_le, h.bytes_eq, h.accounts⟩

/-- An exchange commits the bytes before the token to the pool and keeps the others. -/
theorem carriedOver (h : c.Faithful feed stream freed) (hopen : c.ended = none) {reach : Nat}
    (hreach : reach < maxCapacity) {pool : Pool} {events : List Event}
    (he : Pool.Exchanged c.pool ⟨c.window.bytes, c.capacity⟩ c.window.start
      (nextCapacity c.capacity reach) events ⟨c.window.kept, nextCapacity c.capacity reach⟩ pool) :
    (c.carriedOver reach pool events).Faithful feed stream freed := by
  obtain ⟨portions, hportions, haccounts⟩ := h.accounts
  have hstart : c.window.start ≤ (⟨c.window.bytes, c.capacity⟩ : Buffer).size := by
    rw [Buffer.size, Window.length_bytes]
    exact c.window.start_le_stop
  have hcommitted : (portions ++ [c.window.bytes.take c.window.start]).flatten =
      stream.take (c.base + c.window.start) := by
    rw [List.flatten_append, hportions, List.flatten_singleton, h.bytes_eq, List.take_add]
  constructor
  · exact h.toSound.carriedOver hopen hreach he
  · exact h.fed
  · exact h.tokenOffset_le_length
  · exact (Window.bytes_ofBytes _ _).trans h.kept_eq
  · exact ⟨_, hcommitted, haccounts.exchanged he hstart⟩

omit [Source σ] in
theorem samePlace_carriedOver (c : Cursor σ) (reach : Nat) (pool : Pool) (events : List Event) :
    c.SamePlace (c.carriedOver reach pool events) := by
  have hmark : (Window.ofBytes c.window.kept c.window.mark).mark = c.window.mark :=
    Window.mark_ofBytes (by simp)
  constructor
  · rfl
  · exact hmark
  · rfl
  · change 0 + (Window.ofBytes c.window.kept c.window.mark).mark ≤ c.window.start + c.window.mark
    omega

theorem read (h : c.Faithful feed stream freed) (hopen : c.ended = none)
    (hroom : 0 < c.spare.size) :
    c.read.Faithful feed (stream ++ c.arriving) freed := by
  obtain ⟨portions, hportions, haccounts⟩ := h.accounts
  have hbase := h.base_le
  constructor
  · exact h.toSound.read hopen
  · have hfed := h.fed
    rw [hopen] at hfed
    rw [source_read, ended_read hopen]
    exact feed.read hfed hroom
  · rw [base_read, List.length_append]
    omega
  · rw [window_read, base_read, Window.bytes_extend, h.bytes_eq,
      List.drop_append_of_le_length hbase]
  · rw [base_read, pool_read, List.take_append_of_le_length hbase]
    exact ⟨portions, hportions, haccounts⟩

theorem samePlace_read (c : Cursor σ) : c.SamePlace c.read := by
  constructor
  · rw [tokenOffset, base_read, window_read]
    rfl
  · rw [window_read]
    rfl
  · exact pending_read c
  · rw [window_read]
    exact Nat.le_refl _

/-- What a cursor is faithful to after the source delivered `part`, and where it stands. -/
structure Later (feed : Feed σ) (c : Cursor σ) (stream : Bytes) (freed : Nat) (part : Bytes)
    (later : Cursor σ) : Prop where
  faithful : later.Faithful feed (stream ++ part) freed
  samePlace : c.SamePlace later

theorem Later.refl (h : c.Faithful feed stream freed) : Later feed c stream freed [] c :=
  ⟨by rwa [List.append_nil], .refl c⟩

theorem Later.trans {d e : Cursor σ} {part more : Bytes} (h : Later feed c stream freed part d)
    (h' : Later feed d (stream ++ part) freed more e) :
    Later feed c stream freed (part ++ more) e :=
  ⟨by rw [← List.append_assoc]; exact h'.faithful, h.samePlace.trans h'.samePlace⟩

theorem Later.of_samePlace {d e : Cursor σ} {part : Bytes} (hplace : c.SamePlace d)
    (h : Later feed d stream freed part e) : Later feed c stream freed part e :=
  ⟨h.faithful, hplace.trans h.samePlace⟩

theorem Later.size_ahead {later : Cursor σ} {part : Bytes}
    (h : Later feed c stream freed part later) (hc : c.Faithful feed stream freed) :
    later.window.ahead.size = c.window.ahead.size + part.length := by
  have hlater := h.faithful.offset_add_size
  have hbefore := hc.offset_add_size
  rw [h.samePlace.offset, List.length_append] at hlater
  omega

theorem later_read (h : c.Faithful feed stream freed) (hopen : c.ended = none)
    (hroom : 0 < c.spare.size) :
    Later feed c stream freed c.arriving c.read ∧ (c.arriving = [] → c.read.isExhausted) := by
  refine ⟨⟨h.read hopen hroom, samePlace_read c⟩, fun hnone => ?_⟩
  rw [isExhausted, ended_read hopen]
  exact Reply.ending_of_delivered_nil hnone

/-- A refill for a byte that is missing always gets room to read into. -/
theorem refill (h : c.Faithful feed stream freed) (hopen : c.ended = none)
    (hmissing : c.window.ahead.size ≤ k) (hreach : c.window.position + k < maxCapacity) :
    ∃ later part, c.refill k = .ok later ∧ Later feed c stream freed part later ∧
      (part = [] → later.isExhausted) := by
  have hroom := h.room hopen
  by_cases hfits : c.window.position + k < c.capacity
  · have hplace : c.SamePlace (c.log [.toppingUp c.window.stop c.capacity]) :=
      ⟨rfl, rfl, rfl, Nat.le_refl _⟩
    have hspare : 0 < c.spare.size := by
      simp only [Window.stop] at hroom
      omega
    obtain ⟨hread, hend⟩ := (h.log [.toppingUp c.window.stop c.capacity]).later_read hopen hspare
    exact ⟨_, _, if_pos hfits, .of_samePlace hplace hread, hend⟩
  · have hmark : c.window.mark + k < maxCapacity := by
      simp only [Window.position] at hreach
      omega
    obtain ⟨events, pool, he, hex⟩ := h.toSound.exchange_eq hopen hmark
    have hcarried := h.carriedOver hopen hmark he
    have hplace := samePlace_carriedOver c (c.window.mark + k) pool events
    have hspare : 0 < (c.carriedOver (c.window.mark + k) pool events).spare.size := by
      have hlt := reach_lt_nextCapacity (h.capacity_pos hopen) hmark
      change 0 < nextCapacity c.capacity (c.window.mark + k) - c.window.kept.length
      rw [Window.length_kept]
      omega
    obtain ⟨hread, hend⟩ := hcarried.later_read hopen hspare
    refine ⟨_, _, ?_, .of_samePlace hplace hread, hend⟩
    rw [Cursor.refill, if_neg hfits, hex]
    rfl

theorem fill_of_done {refills : Nat}
    (hdone : c.isExhausted ∨ k < c.window.ahead.size) : c.fill k refills = .ok c := by
  cases refills with
  | zero => rfl
  | succ refills => exact if_pos (by simpa using hdone)

theorem fill_succ {refills : Nat} {next : Cursor σ}
    (hdone : ¬(c.isExhausted ∨ k < c.window.ahead.size)) (hrefill : c.refill k = .ok next) :
    c.fill k (refills + 1) = next.fill k refills := by
  rw [Cursor.fill, if_neg (by simpa using hdone), hrefill]
  rfl

/-- The missing bytes bound the refills: each brings one or ends the stream. -/
theorem fill {refills : Nat} (h : c.Faithful feed stream freed)
    (hbound : k < c.window.ahead.size + refills)
    (hreach : c.window.position + k < maxCapacity) :
    ∃ later part, c.fill k refills = .ok later ∧ Later feed c stream freed part later ∧
      (later.isExhausted ∨ k < later.window.ahead.size) := by
  -- A refill that brings nothing ends the stream, and any other one lowers the number of missing
  -- bytes, while the position does not grow.
  induction refills generalizing c stream with
  | zero => exact ⟨c, [], rfl, .refl h, .inr hbound⟩
  | succ refills ih =>
    by_cases hdone : c.isExhausted ∨ k < c.window.ahead.size
    · exact ⟨c, [], fill_of_done hdone, .refl h, hdone⟩
    · obtain ⟨hexhausted, hmissing⟩ := not_or.1 hdone
      have hopen : c.ended = none := by simpa [isExhausted] using hexhausted
      obtain ⟨next, part, hrefill, hnext, hend⟩ :=
        h.refill hopen (Nat.le_of_not_lt hmissing) hreach
      have hsize := hnext.size_ahead h
      have hposition := hnext.samePlace.position_le
      by_cases hnone : part = []
      · refine ⟨next, part, ?_, hnext, .inl (hend hnone)⟩
        rw [fill_succ hdone hrefill, fill_of_done (.inl (hend hnone))]
      · have hpart := List.length_pos_iff.2 hnone
        obtain ⟨later, more, hfill, hlater, hstop⟩ := ih hnext.faithful (by omega) (by omega)
        refine ⟨later, part ++ more, ?_, hnext.trans hlater, hstop⟩
        rw [fill_succ hdone hrefill, hfill]

/-- A byte that was delivered is seen without reading. -/
theorem peek_of_lt (h : c.Faithful feed stream freed) (hk : c.offset + k < stream.length) :
    c.peek k = .ok (stream[c.offset + k], c) := by
  rw [Cursor.peek, h.get?_eq, List.getElem?_eq_getElem hk]

theorem peek_of_getElem? (h : c.Faithful feed stream freed) {b : UInt8}
    (hb : stream[c.offset + k]? = some b) : c.peek k = .ok (b, c) := by
  obtain ⟨hlt, rfl⟩ := List.getElem?_eq_some_iff.1 hb
  exact h.peek_of_lt hlt

/-- A peek never fails. It shows the byte of the stream, or zero where the source delivered none,
and then either no buffer can hold that byte or the source has ended before it. -/
theorem peek (h : c.Faithful feed stream freed) (k : Nat) :
    ∃ later part, c.peek k = .ok ((stream ++ part)[c.offset + k]?.getD 0, later) ∧
      Later feed c stream freed part later ∧
      (maxCapacity ≤ c.window.position + k ∨ later.isExhausted ∨
        c.offset + k < (stream ++ part).length) := by
  by_cases hk : c.offset + k < stream.length
  · refine ⟨c, [], ?_, .refl h, .inr (.inr (by simpa using hk))⟩
    rw [h.peek_of_lt hk, List.append_nil, List.getElem?_eq_getElem hk, Option.getD_some]
  · have hnone : stream[c.offset + k]? = none := List.getElem?_eq_none (Nat.le_of_not_lt hk)
    by_cases hmax : maxCapacity ≤ c.window.position + k
    · refine ⟨c, [], ?_, .refl h, .inl hmax⟩
      rw [Cursor.peek, h.get?_eq, hnone, List.append_nil, hnone]
      exact if_pos hmax
    · have hreach := Nat.lt_of_not_le hmax
      have hbound : k < c.window.ahead.size + (k + 1 - c.window.ahead.size) := by omega
      obtain ⟨later, part, hfill, hlater, hstop⟩ := h.fill hbound hreach
      refine ⟨later, part, ?_, hlater, ?_⟩
      · rw [Cursor.peek, h.get?_eq, hnone]
        simp only [if_neg hmax, hfill, Except.map, hlater.faithful.get?_eq,
          hlater.samePlace.offset]
      · have hsize := hlater.faithful.offset_add_size
        rw [hlater.samePlace.offset] at hsize
        exact .inr (hstop.imp_right fun hlt => by omega)

end Faithful

/-- A cursor that has neither moved nor committed anything. -/
structure AtFront (c : Cursor σ) : Prop where
  tokenOffset : c.tokenOffset = 0
  mark : c.window.mark = 0
  pending : c.pending = 0

section OfSource

variable {feed : Feed σ} {source : σ}

theorem faithful_adopting {buffer : Buffer} (h : feed.Holds source (some .eof) buffer.bytes) :
    (adopting source buffer).Faithful feed buffer.bytes 0 := by
  refine ⟨⟨nofun, nofun, nofun, fun slot => ?_⟩, h, Nat.zero_le _, ?_, [], rfl,
    Pool.accounts_empty⟩
  · exact Nat.zero_le _
  · change [] ++ ([] ++ (Lookahead.ofBytes buffer.bytes).bytes) = buffer.bytes
    rw [Lookahead.bytes_ofBytes, List.nil_append, List.nil_append]

theorem faithful_unread {capacity : Nat} (h : feed.Holds source none []) (hpos : 0 < capacity)
    (hmax : capacity ≤ maxCapacity) : (unread source capacity).Faithful feed [] 0 := by
  refine ⟨⟨fun _ => ?_, fun _ => hpos, fun _ => hmax, fun slot => ?_⟩, h, Nat.le_refl _, rfl, [],
    rfl, Pool.accounts_empty⟩
  · exact Nat.zero_add capacity
  · exact Nat.zero_le _

/-- Only a first buffer that cannot be had keeps a cursor from being opened. -/
theorem buffering_faithful (h : feed.Holds source none []) (bufferSize : Nat) :
    (maxCapacity < bufferSize ∧ buffering source bufferSize = .error .capacity) ∨
      ∃ c stream, buffering source bufferSize = .ok c ∧ c.Faithful feed stream 0 ∧ c.AtFront := by
  by_cases hmax : maxCapacity < max bufferSize 1
  · have hpos := maxCapacity_pos
    refine .inl ⟨by omega, ?_⟩
    exact if_pos hmax
  · have hunread : (unread source (max bufferSize 1)).Faithful feed [] 0 :=
      faithful_unread h (by omega) (Nat.le_of_not_lt hmax)
    obtain ⟨c, part, hpeek, hlater, -⟩ := hunread.peek 0
    refine .inr ⟨c, [] ++ part, ?_, hlater.faithful, hlater.samePlace.tokenOffset,
      hlater.samePlace.mark, hlater.samePlace.pending⟩
    rw [buffering]
    simp only [if_neg hmax, hpeek, Except.map]

theorem ofSource_faithful (h : feed.Holds source none []) (options : Options) :
    (maxCapacity < options.bufferSize ∧ ofSource source options = .error .capacity) ∨
      ∃ c stream, ofSource source options = .ok c ∧ c.Faithful feed stream 0 ∧ c.AtFront := by
  unfold ofSource
  split
  · have htake := feed.takeAll h
    split
    next buffer rest hbuffer =>
      rw [hbuffer] at htake
      exact .inr ⟨_, _, rfl, faithful_adopting htake, rfl, rfl, rfl⟩
    next rest hnone =>
      rw [hnone] at htake
      exact buffering_faithful htake _
  · exact buffering_faithful h _

end OfSource
end Cursor
end StreamCursor
