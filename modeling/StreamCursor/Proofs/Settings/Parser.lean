import StreamCursor.Proofs.Opening
import StreamCursor.Proofs.Reading
import StreamCursor.Settings

/-! Settings as they stand in a byte string, read with no cursor. Main statement: however a settings
file is delivered, the cursor reads the same entries from it, or fails alike. -/

namespace StreamCursor.Settings

/-- The bytes that a comment may go on over. -/
def inComment (b : UInt8) : Bool := b != 0x0A && b != 0

/-- The bytes that a quoted text may go on over. -/
def inQuotes (b : UInt8) : Bool := b != 0x22 && b != 0

/-- The value at the front of the bytes, and the bytes behind it. -/
def parseValue (bytes : Bytes) : String × Bytes :=
  if bytes.headD 0 = 0x22 then
    (Text.lossy (bytes.tail.takeWhile inQuotes), (bytes.tail.dropWhile inQuotes).drop 1)
  else (Text.lossy (bytes.takeWhile Ascii.isAlphanumeric), bytes.dropWhile Ascii.isAlphanumeric)

/-- The entry at the front of the bytes, and the bytes behind it. -/
def parseEntry (offset : Nat) (bytes : Bytes) : Except Failure (Entry × Bytes) :=
  let key := Text.lossy (bytes.takeWhile Ascii.isAlphanumeric)
  let rest := (bytes.dropWhile Ascii.isAlphanumeric).dropWhile Ascii.isSpace
  if rest.headD 0 = 0x3D then
    let (value, more) := parseValue ((rest.drop 1).dropWhile Ascii.isSpace)
    .ok (⟨offset, key, value⟩, more)
  else .error (.missingEquals key (rest.headD 0))

theorem length_dropWhile_lt {go : UInt8 → Bool} {bytes : Bytes} (hne : bytes ≠ [])
    (hgo : go (bytes.headD 0)) : (bytes.dropWhile go).length < bytes.length := by
  cases bytes with
  | nil => exact absurd rfl hne
  | cons b bytes =>
    rw [List.headD_cons] at hgo
    rw [List.dropWhile_cons_of_pos hgo, List.length_cons]
    exact Nat.lt_succ_of_le (List.dropWhile_suffix go).length_le

theorem length_parseValue_le (bytes : Bytes) : (parseValue bytes).2.length ≤ bytes.length := by
  unfold parseValue
  split
  · have hdrop := (List.dropWhile_suffix inQuotes (l := bytes.tail)).length_le
    rw [List.length_tail] at hdrop
    rw [List.length_drop]
    omega
  · exact (List.dropWhile_suffix _).length_le

/-- An entry takes its equals sign at least. -/
theorem length_lt_of_parseEntry {offset : Nat} {bytes more : Bytes} {e : Entry}
    (h : parseEntry offset bytes = .ok (e, more)) : more.length < bytes.length := by
  dsimp only [parseEntry] at h
  split at h
  next hequals =>
    cases h
    have hkey := (List.dropWhile_suffix Ascii.isAlphanumeric (l := bytes)).length_le
    generalize bytes.dropWhile Ascii.isAlphanumeric = rest at hequals hkey
    have hblank := (List.dropWhile_suffix Ascii.isSpace (l := rest)).length_le
    generalize rest.dropWhile Ascii.isSpace = rest at hequals hblank
    have hvalue := length_parseValue_le ((rest.drop 1).dropWhile Ascii.isSpace)
    have hblank' := (List.dropWhile_suffix Ascii.isSpace (l := rest.drop 1)).length_le
    have hne : rest ≠ [] := by
      rintro rfl
      cases hequals
    have hpos := List.length_pos_iff.2 hne
    rw [List.length_drop] at hblank'
    omega
  · cases h

/-- All entries of `bytes`, which are the last bytes of a file of `size` bytes. -/
def parseFrom (size : Nat) (bytes : Bytes) : Except Failure (List Entry) :=
  let rest := bytes.dropWhile Ascii.isSpace
  if _ : rest = [] then .ok []
  else if _ : rest.headD 0 = 0x23 then parseFrom size (rest.dropWhile inComment)
  else
    match _ : parseEntry (size - rest.length) rest with
    | .error e => .error e
    | .ok (e, more) => return e :: (← parseFrom size more)
termination_by bytes.length
decreasing_by
  · rename_i hrest hcomment
    have hblank := (List.dropWhile_suffix Ascii.isSpace (l := bytes)).length_le
    have hgo : inComment (rest.headD 0) := by rw [hcomment]; rfl
    exact Nat.lt_of_lt_of_le (length_dropWhile_lt hrest hgo) hblank
  · rename_i hentry
    have hblank := (List.dropWhile_suffix Ascii.isSpace (l := bytes)).length_le
    exact Nat.lt_of_lt_of_le (length_lt_of_parseEntry hentry) hblank

/-- All entries of a settings file. -/
def parse (data : Bytes) : Except Failure (List Entry) := parseFrom data.length data

theorem parseFrom_nil {size : Nat} {bytes : Bytes} (h : bytes.dropWhile Ascii.isSpace = []) :
    parseFrom size bytes = .ok [] := by
  rw [parseFrom, dif_pos h]

theorem parseFrom_comment {size : Nat} {bytes more : Bytes}
    (h : bytes.dropWhile Ascii.isSpace = 0x23 :: more) :
    parseFrom size bytes = parseFrom size (more.dropWhile inComment) := by
  rw [parseFrom]
  simp only [h, reduceCtorEq, dite_false, List.headD_cons, dite_true]
  rfl

theorem parseFrom_entry {size : Nat} {bytes more : Bytes} {b : UInt8}
    (h : bytes.dropWhile Ascii.isSpace = b :: more) (hb : b ≠ 0x23) :
    parseFrom size bytes = do
      let (e, behind) ← parseEntry (size - (b :: more).length) (b :: more)
      return e :: (← parseFrom size behind) := by
  rw [parseFrom]
  generalize bytes.dropWhile Ascii.isSpace = rest at h
  subst h
  rw [dif_neg (by simp), dif_neg (by simpa using hb)]
  cases parseEntry (size - (b :: more).length) (b :: more) <;> rfl

section Reading

variable {σ : Type} [Source σ] {d : Delivery σ} {rest more : Bytes} {seen : Nat}

omit [Source σ] in
theorem scan_yields {α : Type} {P Q : Cursor σ → Prop} {s : Scan σ α} {a : α}
    (h : Yields P s a Q) : Yields P (scan s) a Q := by
  intro c hc
  obtain ⟨later, hrun, hlater⟩ := h c hc
  refine ⟨later, ?_, hlater⟩
  rw [scan, hrun]
  rfl

theorem skipBlank_yields :
    Yields (d.Fresh rest seen) skipBlank () (d.Fresh (rest.dropWhile Ascii.isSpace) 1) :=
  .bind (Scan.walkWhile_yields _) Scan.commit_yields

theorem skipComment_yields :
    Yields (d.Fresh rest seen) skipComment () (d.Fresh (rest.dropWhile inComment) 1) :=
  .bind (Scan.walkWhile_yields _) Scan.commit_yields

theorem word_yields :
    Yields (d.Fresh rest seen) word (Text.lossy (rest.takeWhile Ascii.isAlphanumeric))
      (d.Fresh (rest.dropWhile Ascii.isAlphanumeric) 1) :=
  .bind (Scan.walkWhile_yields _) (.map Scan.take_yields Text.lossy)

theorem quotedText_yields (hseen : 0 < seen) :
    Yields (d.Fresh rest seen) quotedText (Text.lossy (rest.tail.takeWhile inQuotes))
      (d.Fresh ((rest.tail.dropWhile inQuotes).drop 1) 0) := by
  rw [← List.drop_one]
  apply Yields.bind (Scan.move_yields (n := 1) hseen)
  apply Yields.bind Scan.commit_yields
  apply Yields.bind (Scan.walkWhile_yields inQuotes)
  apply Yields.bind Scan.take_yields
  apply Yields.bind (Scan.move_yields (n := 1) Nat.one_pos)
  exact .bind Scan.commit_yields (.pure fun _ hc => hc)

theorem value_yields :
    Yields (d.Fresh rest seen) value (parseValue (rest.dropWhile Ascii.isSpace)).1
      (d.Fresh (parseValue (rest.dropWhile Ascii.isSpace)).2 0) := by
  apply Yields.bind skipBlank_yields
  apply Yields.bind Scan.peek_zero_yields
  unfold parseValue
  split
  · exact quotedText_yields (by omega)
  · exact word_yields.weaken fun _ hc => hc.mono (Nat.zero_le _)

theorem entry_comesTo :
    ComesTo (d.Fresh rest seen) entry (parseEntry (d.data.length - rest.length) rest)
      (fun more => d.Fresh more 0) := by
  apply ComesTo.bind (scan_yields Scan.tokenOffset_yields)
  apply ComesTo.bind (scan_yields word_yields)
  apply ComesTo.bind (scan_yields skipBlank_yields)
  apply ComesTo.bind (scan_yields Scan.peek_zero_yields)
  dsimp only [parseEntry]
  -- The sign decides, for the reader as for the parser. Without it, both name the byte found.
  split
  · intro c _
    rfl
  next hequals =>
    rw [if_pos (Decidable.not_not.1 hequals)]
    apply Yields.bind (scan_yields (Scan.move_yields (n := 1) (Nat.le_max_right ..)))
    apply Yields.bind (scan_yields Scan.commit_yields)
    apply Yields.bind (scan_yields value_yields)
    exact .pure fun _ hc => hc

/-- After an entry come the entries behind it, if those can be read. -/
theorem entry_then_comesTo {limit : Nat}
    (hbehind : ∀ behind : Bytes, behind.length < rest.length →
      ComesTo (d.Fresh behind 0) (entriesWithin limit)
        ((parseFrom d.data.length behind).map (·, ([] : Bytes))) (fun more => d.Fresh more 1)) :
    ComesTo (d.Fresh rest seen)
      (do let e ← entry; scan Scan.release; return e :: (← entriesWithin limit))
      ((do
          let (e, behind) ← parseEntry (d.data.length - rest.length) rest
          return e :: (← parseFrom d.data.length behind)).map (·, ([] : Bytes)))
      (fun more => d.Fresh more 1) := by
  have hentry : ComesTo (d.Fresh rest seen) entry (parseEntry (d.data.length - rest.length) rest)
      (fun more => d.Fresh more 0) := entry_comesTo
  cases hparse : parseEntry (d.data.length - rest.length) rest with
  | error e =>
    rw [hparse] at hentry
    exact FailsWith.first hentry
  | ok parsed =>
    obtain ⟨e, behind⟩ := parsed
    rw [hparse] at hentry
    apply ComesTo.bind hentry
    apply ComesTo.bind (scan_yields Scan.release_yields)
    have htail := hbehind behind (length_lt_of_parseEntry hparse)
    show ComesTo _ _ ((do return e :: (← parseFrom d.data.length behind)).map (·, ([] : Bytes))) _
    cases hes : parseFrom d.data.length behind with
    | error e =>
      rw [hes] at htail
      exact FailsWith.first htail
    | ok es =>
      rw [hes] at htail
      exact Yields.map htail (e :: ·)

/-- Each round takes a byte at least, so that the limit has no part in where the loop stops. -/
theorem entriesWithin_comesTo {limit : Nat} (hlimit : rest.length < limit) :
    ComesTo (d.Fresh rest seen) (entriesWithin limit)
      ((parseFrom d.data.length rest).map (·, ([] : Bytes))) (fun more => d.Fresh more 1) := by
  induction limit generalizing rest seen with
  | zero => cases hlimit
  | succ limit ih =>
    have hblank := (List.dropWhile_suffix Ascii.isSpace (l := rest)).length_le
    apply ComesTo.bind (scan_yields skipBlank_yields)
    apply ComesTo.bind (scan_yields Scan.peek_zero_yields)
    apply ComesTo.bind (scan_yields (Scan.visibleEnd_yields (Nat.le_max_right ..)))
    cases hrest : rest.dropWhile Ascii.isSpace with
    | nil =>
      rw [parseFrom_nil hrest]
      exact .pure fun _ hc => hc
    | cons b more =>
      -- There is a byte to read, so that even a zero byte is not taken for the end.
      rw [hrest] at hblank
      rw [if_neg (by simp), List.headD_cons]
      by_cases hb : b = 0x23
      · subst hb
        have hcomment : ((0x23 :: more).dropWhile inComment).length < (0x23 :: more).length :=
          length_dropWhile_lt (by simp) rfl
        rw [parseFrom_comment hrest, if_pos rfl]
        apply ComesTo.bind (scan_yields skipComment_yields)
        apply ComesTo.bind (scan_yields Scan.release_yields)
        exact ih (by omega)
      · rw [parseFrom_entry hrest hb, if_neg hb]
        apply entry_then_comesTo
        intro behind hbehind
        exact ih (by omega)

/-- The loop reads all of the file and stops at its end, or fails where the parser does. -/
theorem entriesWithin_of_fresh {data : Bytes} {cursor : Cursor σ} (hd : d.data = data)
    (hcursor : d.Fresh data 0 cursor) {limit : Nat} (hlimit : data.length < limit) :
    (entriesWithin limit cursor).map (·.1) = parse data ∧
      (entriesWithin limit cursor).map (fun r => (r.1, r.2.visibleEnd.isSome)) =
        (parse data).map (·, true) := by
  have hentries : ComesTo (d.Fresh data 0) (entriesWithin limit)
      ((parse data).map (·, ([] : Bytes))) (fun more => d.Fresh more 1) := by
    rw [parse, ← hd]
    rw [← hd] at hlimit
    exact entriesWithin_comesTo hlimit
  cases hparse : parse data with
  | error e =>
    rw [hparse] at hentries
    rw [hentries cursor hcursor]
    exact ⟨rfl, rfl⟩
  | ok es =>
    rw [hparse] at hentries
    obtain ⟨later, hrun, hlater⟩ := hentries cursor hcursor
    have hend : later.visibleEnd = some d.cause := by
      rw [hlater.visibleEnd_eq Nat.one_pos, if_pos rfl]
    rw [hrun]
    simp [Except.map, hend]

end Reading

/-- However a settings file is delivered, and whatever it holds, a cursor reads just the entries
that stand in it, or stops at the first that lacks its equals sign. -/
theorem entries_of_any_delivery (data : Bytes) (options : Options)
    (hdata : data.length < maxCapacity) :
    ForAnyDelivery data options fun cursor =>
      (entries cursor).map (·.1) = parse data ∧
        ∀ limit, data.length < limit →
          (entriesWithin limit cursor).map (fun r => (r.1, r.2.visibleEnd.isSome)) =
            (parse data).map (·, true) := by
  apply forAnyDelivery_of_fresh hdata
  intro σ _ d cursor hd hcursor
  constructor
  · exact (entriesWithin_of_fresh hd hcursor hdata).1
  · intro limit hlimit
    exact (entriesWithin_of_fresh hd hcursor hlimit).2

theorem entries_of_any_delivery_broken :
    ∃ cursor,
      Cursor.ofSource
        ((Packets.ofList [[0x61, 0x3D, 0x62], [0x20, 0x63], [], [0x00, 0x3D]]).failWith "reset")
        { bufferSize := 1, adopt := false } = .ok cursor ∧
      (entries cursor).map (·.1) = .error (.missingEquals "c" 0) := by
  have hparse : parse [0x61, 0x3D, 0x62, 0x20, 0x63, 0x00, 0x3D] =
      .error (.missingEquals "c" 0) := by
    have hrest : parseFrom 7 [0x20, 0x63, 0x00, 0x3D] = .error (.missingEquals "c" 0) := by
      refine (parseFrom_entry rfl ?_).trans rfl
      decide
    refine (parseFrom_entry rfl (by decide)).trans ?_
    change (parseFrom 7 [0x20, 0x63, 0x00, 0x3D] >>= fun es => .ok (⟨0, "a", "b"⟩ :: es)) = _
    rw [hrest]
    rfl
  obtain ⟨-, -, -, hpackets⟩ := entries_of_any_delivery
    [0x61, 0x3D, 0x62, 0x20, 0x63, 0x00, 0x3D] { bufferSize := 1, adopt := false } (by decide)
  obtain ⟨hopens, hreads⟩ :=
    hpackets [[0x61, 0x3D, 0x62], [0x20, 0x63], [], [0x00, 0x3D]] ["reset"] rfl
  obtain ⟨cursor, hopen⟩ := hopens (by decide)
  refine ⟨cursor, hopen, ?_⟩
  rw [← hparse]
  exact (hreads cursor hopen).1

end StreamCursor.Settings
