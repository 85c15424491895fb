import StreamCursor.Proofs.Settings.Parser

/-! Settings files as items that were written one after another. Main statement: whatever they are
and however the file is delivered, a cursor reads back just the entries among them. -/

namespace StreamCursor.Settings

/-- Bytes all of which are in the class `go`. -/
structure Run (go : UInt8 → Bool) where
  bytes : Bytes
  all : bytes.all go

structure NonemptyRun (go : UInt8 → Bool) extends Run go where
  nonempty : bytes ≠ []

inductive Value where
  /-- A bare word goes on up to the space behind it. -/
  | bare (word : NonemptyRun Ascii.isAlphanumeric) (space : NonemptyRun Ascii.isSpace)
  | quoted (text : Run inQuotes)

inductive Item where
  | blank (space : Run Ascii.isSpace)
  | comment (text : Run inComment)
  | entry (key : NonemptyRun Ascii.isAlphanumeric) (before after : Run Ascii.isSpace)
      (value : Value)

def Value.bytes : Value → Bytes
  | bare word space => word.bytes ++ space.bytes
  | quoted text => 0x22 :: (text.bytes ++ [0x22])

/-- The item as it is written. -/
def Item.bytes : Item → Bytes
  | blank space => space.bytes
  | comment text => 0x23 :: (text.bytes ++ [0x0A])
  | entry key before after value =>
      key.bytes ++ before.bytes ++ 0x3D :: (after.bytes ++ value.bytes)

def document (items : List Item) : Bytes := items.flatMap Item.bytes

/-- What the value reads as, without its quotes. -/
def Value.text : Value → String
  | bare word _ => Text.ascii word.bytes
  | quoted text => Text.lossy text.bytes

/-- The entry that the item stands for, if it begins at `offset`. -/
def Item.entryAt (offset : Nat) : Item → Option Entry
  | blank _ => none
  | comment _ => none
  | entry key _ _ value => some ⟨offset, Text.ascii key.bytes, value.text⟩

/-- The entries among the items, the first of which begins at `offset`. -/
def entriesAt (offset : Nat) : List Item → List Entry
  | [] => []
  | item :: items =>
      (item.entryAt offset).toList ++ entriesAt (offset + item.bytes.length) items

/-- The bytes do not begin with one in the class. -/
def Stops (go : UInt8 → Bool) (bytes : Bytes) : Prop := ∀ b ∈ bytes.head?, go b = false

theorem stops_cons {go : UInt8 → Bool} {b : UInt8} (h : go b = false) (rest : Bytes) :
    Stops go (b :: rest) := by
  rintro _ ⟨⟩
  exact h

namespace Run

variable {go other : UInt8 → Bool} {rest : Bytes}

theorem of_mem (run : Run go) {b : UInt8} (hb : b ∈ run.bytes) : go b :=
  List.all_eq_true.1 run.all b hb

theorem stops_append (run : Run other) (h : ∀ {b}, other b → go b = false) (hrest : Stops go rest) :
    Stops go (run.bytes ++ rest) := by
  cases hrun : run.bytes with
  | nil => exact hrest
  | cons b bytes =>
    have hb : b ∈ run.bytes := by
      rw [hrun]
      exact List.mem_cons_self ..
    exact stops_cons (h (run.of_mem hb)) _

theorem takeWhile_append (run : Run go) (h : Stops go rest) :
    (run.bytes ++ rest).takeWhile go = run.bytes := by
  rw [List.takeWhile_append_of_pos fun _ => run.of_mem]
  cases rest with
  | nil => simp
  | cons b rest => simp [h b rfl]

theorem dropWhile_append (run : Run go) (h : Stops go rest) :
    (run.bytes ++ rest).dropWhile go = rest := by
  rw [List.dropWhile_append_of_pos fun _ => run.of_mem]
  cases rest with
  | nil => rfl
  | cons b rest => simp [h b rfl]

end Run

namespace NonemptyRun

variable {go other : UInt8 → Bool}

theorem exists_cons (run : NonemptyRun go) : ∃ b bytes, run.bytes = b :: bytes ∧ go b := by
  obtain ⟨b, bytes, hbytes⟩ := List.exists_cons_of_ne_nil run.nonempty
  refine ⟨b, bytes, hbytes, run.of_mem ?_⟩
  rw [hbytes]
  exact List.mem_cons_self ..

theorem stops_append (run : NonemptyRun other) (h : ∀ {b}, other b → go b = false)
    (rest : Bytes) : Stops go (run.bytes ++ rest) := by
  obtain ⟨b, bytes, hbytes, hb⟩ := run.exists_cons
  rw [hbytes]
  exact stops_cons (h hb) _

theorem headD_append (run : NonemptyRun go) (rest : Bytes) : go ((run.bytes ++ rest).headD 0) := by
  obtain ⟨b, bytes, hbytes, hb⟩ := run.exists_cons
  rw [hbytes]
  exact hb

theorem lossy_eq_ascii (word : NonemptyRun Ascii.isAlphanumeric) :
    Text.lossy word.bytes = Text.ascii word.bytes :=
  Text.lossy_eq_ascii fun _ hb => Ascii.lt_of_isAlphanumeric (word.of_mem hb)

end NonemptyRun

namespace Value

theorem stops_space (value : Value) (rest : Bytes) :
    Stops Ascii.isSpace (value.bytes ++ rest) := by
  cases value with
  | bare word space =>
    rw [bytes, List.append_assoc]
    exact word.stops_append Ascii.not_isSpace_of_isAlphanumeric _
  | quoted text => exact stops_cons rfl _

/-- The parser reads the value and nothing behind it but space. -/
theorem parseValue_bytes_append (value : Value) (rest : Bytes) :
    ∃ space : Run Ascii.isSpace,
      parseValue (value.bytes ++ rest) = (value.text, space.bytes ++ rest) := by
  cases value with
  | bare word space =>
    have hstops : Stops Ascii.isAlphanumeric (space.bytes ++ rest) :=
      space.stops_append Ascii.not_isAlphanumeric_of_isSpace rest
    have hquote : (word.bytes ++ (space.bytes ++ rest)).headD 0 ≠ 0x22 := by
      intro hquote
      have hhead := word.headD_append (space.bytes ++ rest)
      rw [hquote] at hhead
      cases hhead
    refine ⟨space.toRun, ?_⟩
    rw [bytes, List.append_assoc, parseValue, if_neg hquote, word.takeWhile_append hstops,
      word.dropWhile_append hstops, word.lossy_eq_ascii]
    rfl
  | quoted text =>
    have hstops : Stops inQuotes (0x22 :: rest) := stops_cons rfl _
    refine ⟨⟨[], rfl⟩, ?_⟩
    have hbytes : (quoted text).bytes ++ rest = 0x22 :: (text.bytes ++ 0x22 :: rest) := by
      simp [bytes]
    rw [hbytes, parseValue, List.headD_cons, if_pos rfl, List.tail_cons,
      text.takeWhile_append hstops, text.dropWhile_append hstops]
    rfl

end Value

/-- The parser reads the entry and nothing behind it but space. -/
theorem parseEntry_bytes_append (offset : Nat) (key : NonemptyRun Ascii.isAlphanumeric)
    (before after : Run Ascii.isSpace) (value : Value) (rest : Bytes) :
    ∃ space : Run Ascii.isSpace,
      parseEntry offset ((Item.entry key before after value).bytes ++ rest) =
        .ok (⟨offset, Text.ascii key.bytes, value.text⟩, space.bytes ++ rest) := by
  obtain ⟨space, hvalue⟩ := value.parseValue_bytes_append rest
  have hbytes : (Item.entry key before after value).bytes ++ rest =
      key.bytes ++ (before.bytes ++ 0x3D :: (after.bytes ++ (value.bytes ++ rest))) := by
    simp [Item.bytes]
  have hkey : Stops Ascii.isAlphanumeric
      (before.bytes ++ 0x3D :: (after.bytes ++ (value.bytes ++ rest))) :=
    before.stops_append Ascii.not_isAlphanumeric_of_isSpace (stops_cons rfl _)
  have hbefore : Stops Ascii.isSpace (0x3D :: (after.bytes ++ (value.bytes ++ rest))) :=
    stops_cons rfl _
  refine ⟨space, ?_⟩
  rw [hbytes]
  dsimp only [parseEntry]
  rw [key.takeWhile_append hkey, key.dropWhile_append hkey, before.dropWhile_append hbefore,
    List.headD_cons, if_pos rfl, List.drop_one, List.tail_cons,
    after.dropWhile_append (value.stops_space rest), hvalue, key.lossy_eq_ascii]

theorem parseFrom_run_append (size : Nat) (space : Run Ascii.isSpace) (rest : Bytes) :
    parseFrom size (space.bytes ++ rest) = parseFrom size rest := by
  have hblank : (space.bytes ++ rest).dropWhile Ascii.isSpace = rest.dropWhile Ascii.isSpace :=
    List.dropWhile_append_of_pos fun _ => space.of_mem
  rw [parseFrom, hblank, ← parseFrom]

/-- The parser reads one item, and then what is behind it. -/
theorem parseFrom_item_append (item : Item) (rest : Bytes) {offset size : Nat}
    (hsize : offset + (item.bytes ++ rest).length = size) :
    parseFrom size (item.bytes ++ rest) =
      (parseFrom size rest).map ((item.entryAt offset).toList ++ ·) := by
  cases item with
  | blank space =>
    rw [Item.bytes, parseFrom_run_append]
    cases parseFrom size rest <;> rfl
  | comment text =>
    have hbytes : (Item.comment text).bytes ++ rest = 0x23 :: (text.bytes ++ 0x0A :: rest) := by
      simp [Item.bytes]
    have htext : Stops inComment (0x0A :: rest) := stops_cons rfl _
    have hline : parseFrom size (0x0A :: rest) = parseFrom size rest :=
      parseFrom_run_append size ⟨[0x0A], rfl⟩ rest
    rw [hbytes, parseFrom_comment rfl, text.dropWhile_append htext, hline]
    cases parseFrom size rest <;> rfl
  | entry key before after value =>
    obtain ⟨space, hentry⟩ := parseEntry_bytes_append offset key before after value rest
    obtain ⟨b, bytes, hkey, hb⟩ := key.exists_cons
    obtain ⟨more, hbytes⟩ :
        ∃ more, (Item.entry key before after value).bytes ++ rest = b :: more := by
      simp [Item.bytes, hkey]
    have hblank : (b :: more).dropWhile Ascii.isSpace = b :: more := by
      simp [Ascii.not_isSpace_of_isAlphanumeric hb]
    have hcomment : b ≠ 0x23 := by
      rintro rfl
      cases hb
    rw [hbytes] at hentry hsize ⊢
    have hoffset : size - (b :: more).length = offset := by omega
    rw [parseFrom_entry hblank hcomment, hoffset, hentry]
    show (do return _ :: (← parseFrom size (space.bytes ++ rest))) = _
    rw [parseFrom_run_append]
    cases parseFrom size rest <;> rfl

theorem parseFrom_document (items : List Item) {offset size : Nat}
    (hsize : offset + (document items).length = size) :
    parseFrom size (document items) = .ok (entriesAt offset items) := by
  induction items generalizing offset with
  | nil =>
    rw [document, List.flatMap_nil, parseFrom_nil rfl]
    rfl
  | cons item items ih =>
    have hdocument : document (item :: items) = item.bytes ++ document items :=
      List.flatMap_cons
    have hrest : offset + item.bytes.length + (document items).length = size := by
      rw [← hsize, hdocument, List.length_append, Nat.add_assoc]
    rw [hdocument] at hsize ⊢
    rw [parseFrom_item_append item _ hsize]
    exact congrArg _ (ih hrest)

/-- However a file of such items is delivered, a cursor reads back each entry, where it begins and
what its key and its value are, and nothing else. Neither comments nor quoted texts matter for
what they look like. -/
theorem entries_of_document (items : List Item) (options : Options)
    (hdata : (document items).length < maxCapacity) :
    ForAnyDelivery (document items) options fun cursor =>
      (entries cursor).map (·.1) = .ok (entriesAt 0 items) := by
  apply forAnyDelivery_of_fresh hdata
  intro σ _ d cursor hd hcursor
  rw [← parseFrom_document items (Nat.zero_add _)]
  exact (entriesWithin_of_fresh hd hcursor hdata).1

theorem entries_of_document_torn :
    ∃ cursor,
      Cursor.ofSource
        (Packets.ofList [[0x23, 0x61], [0x3D, 0x0A, 0x6B], [0x31, 0x0A, 0x3D, 0x20, 0x22], [],
          [0x23, 0x3D], [0x22, 0x76, 0x3D, 0x37, 0x0A]])
        { bufferSize := 1, adopt := false } = .ok cursor ∧
      (entries cursor).map (·.1) = .ok [⟨4, "k1", "#="⟩, ⟨13, "v", "7"⟩] := by
  obtain ⟨-, -, -, hpackets⟩ := entries_of_document
    [.comment ⟨[0x61, 0x3D], rfl⟩,
      .entry ⟨⟨[0x6B, 0x31], rfl⟩, by simp⟩ ⟨[0x0A], rfl⟩ ⟨[0x20], rfl⟩
        (.quoted ⟨[0x23, 0x3D], rfl⟩),
      .entry ⟨⟨[0x76], rfl⟩, by simp⟩ ⟨[], rfl⟩ ⟨[], rfl⟩
        (.bare ⟨⟨[0x37], rfl⟩, by simp⟩ ⟨⟨[0x0A], rfl⟩, by simp⟩)]
    { bufferSize := 1, adopt := false } (by decide)
  obtain ⟨hopens, hreads⟩ := hpackets [[0x23, 0x61], [0x3D, 0x0A, 0x6B],
    [0x31, 0x0A, 0x3D, 0x20, 0x22], [], [0x23, 0x3D], [0x22, 0x76, 0x3D, 0x37, 0x0A]] [] rfl
  obtain ⟨cursor, hopen⟩ := hopens (by decide)
  exact ⟨cursor, hopen, hreads cursor hopen⟩

end StreamCursor.Settings
