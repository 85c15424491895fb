import StreamCursor.Proofs.Opening
import StreamCursor.Proofs.Reading

/-! Reading text by code points. Main statement: the code points that are read off the UTF-8 bytes
of a text are its characters, wherever a buffer splits their sequences. -/

namespace StreamCursor
namespace CodePoint

theorem sequenceWidth_ofNat {n : Nat} (h : n < 256) :
    sequenceWidth (UInt8.ofNat n) =
      if n < 0xC0 then 1 else if n < 0xE0 then 2 else if n < 0xF0 then 3 else 4 := by
  have hlt (m : Nat) (hm : m < 256) : UInt8.ofNat n < UInt8.ofNat m ↔ n < m := by
    rw [UInt8.lt_iff_toNat_lt, UInt8.toNat_ofNat_of_lt' h, UInt8.toNat_ofNat_of_lt' hm]
  unfold sequenceWidth
  simp only [← hlt 0xC0 (by decide), ← hlt 0xE0 (by decide), ← hlt 0xF0 (by decide)]
  rfl

theorem ofBytes_eq (bytes : Bytes) :
    ofBytes bytes = ofSequence (bytes.headD 0)
      ((List.range (sequenceWidth (bytes.headD 0) - 1)).map fun i => bytes[i + 1]?.getD 0) := by
  cases bytes <;> simp [ofBytes, decode]

/-- Bytes past the sequence that the leading one announces are not read. -/
theorem ofBytes_append {first : UInt8} {bytes : Bytes} (h : sequenceWidth first = bytes.length + 1)
    (more : Bytes) : ofBytes (first :: bytes ++ more) = ofSequence first bytes := by
  have hbytes : (List.range bytes.length).map (fun i => (bytes ++ more)[i]?.getD 0) = bytes := by
    apply List.ext_getElem
    · simp
    · intro i _ hi
      simp [hi, List.getElem?_append_left hi]
  simp [ofBytes, decode, h, hbytes]

/-- The encoding of a character announces its own length, and its bits make up the character. -/
theorem sequence_of_utf8EncodeChar {c : Char} {first : UInt8} {bytes : Bytes}
    (h : String.utf8EncodeChar c = first :: bytes) :
    sequenceWidth first = bytes.length + 1 ∧ (ofSequence first bytes).value = c.toNat := by
  have hmax : c.val.toNat < 0x110000 := by
    rcases c.valid with hlow | ⟨-, hhigh⟩
    · omega
    · exact hhigh
  show _ ∧ _ = c.val.toNat
  unfold String.utf8EncodeChar at h
  generalize c.val.toNat = v at h hmax
  dsimp only at h
  -- One case for each length that an encoding can have.
  split at h
  · cases h
    have hwidth : sequenceWidth (UInt8.ofNat v) = 1 := by
      rw [sequenceWidth_ofNat (by omega), if_pos (by omega)]
    refine ⟨hwidth, ?_⟩
    simp only [ofSequence, leadingBits, hwidth, List.foldl_nil, UInt8.toNat_ofNat']
    omega
  split at h
  · cases h
    have hwidth : sequenceWidth (UInt8.ofNat (v / 64 % 0x20 + 0xC0)) = 2 := by
      rw [sequenceWidth_ofNat (by omega), if_neg (by omega), if_pos (by omega)]
    refine ⟨hwidth, ?_⟩
    simp only [ofSequence, leadingBits, hwidth, List.foldl_cons, List.foldl_nil, UInt8.toNat_ofNat']
    omega
  split at h
  · cases h
    have hwidth : sequenceWidth (UInt8.ofNat (v / 4096 % 0x10 + 0xE0)) = 3 := by
      rw [sequenceWidth_ofNat (by omega), if_neg (by omega), if_neg (by omega), if_pos (by omega)]
    refine ⟨hwidth, ?_⟩
    simp only [ofSequence, leadingBits, hwidth, List.foldl_cons, List.foldl_nil, UInt8.toNat_ofNat']
    omega
  · cases h
    have hwidth : sequenceWidth (UInt8.ofNat (v / 262144 % 0x08 + 0xF0)) = 4 := by
      rw [sequenceWidth_ofNat (by omega), if_neg (by omega), if_neg (by omega), if_neg (by omega)]
    refine ⟨hwidth, ?_⟩
    simp only [ofSequence, leadingBits, hwidth, List.foldl_cons, List.foldl_nil, UInt8.toNat_ofNat']
    omega

theorem exists_sequence (c : Char) :
    ∃ first bytes, String.utf8EncodeChar c = first :: bytes ∧
      sequenceWidth first = c.utf8Size ∧ sequenceWidth first = bytes.length + 1 ∧
      ofSequence first bytes = ⟨c.toNat, c.utf8Size⟩ := by
  obtain ⟨first, bytes, hencode⟩ :=
    List.exists_cons_of_ne_nil (String.utf8EncodeChar_ne_nil (c := c))
  obtain ⟨hwidth, hvalue⟩ := sequence_of_utf8EncodeChar hencode
  have hlength := String.length_utf8EncodeChar c
  rw [hencode, List.length_cons] at hlength
  refine ⟨first, bytes, hencode, hwidth.trans hlength, hwidth, ?_⟩
  rw [← hvalue, ← hlength]
  rfl

theorem sequenceWidth_utf8EncodeChar_append (c : Char) (more : Bytes) :
    sequenceWidth ((String.utf8EncodeChar c ++ more).headD 0) = c.utf8Size := by
  obtain ⟨first, bytes, hencode, hsize, -⟩ := exists_sequence c
  rw [hencode]
  exact hsize

theorem ofBytes_utf8EncodeChar_append (c : Char) (more : Bytes) :
    ofBytes (String.utf8EncodeChar c ++ more) = ⟨c.toNat, c.utf8Size⟩ := by
  obtain ⟨first, bytes, hencode, -, hwidth, hsequence⟩ := exists_sequence c
  rw [hencode, ofBytes_append hwidth, hsequence]

theorem asChar?_toNat (c : Char) (width : Nat) : asChar? ⟨c.toNat, width⟩ = some c := by
  have hvalid : c.toNat.isValidChar := c.valid
  simp [asChar?, hvalid]

end CodePoint

namespace Scan

open Delivery (Stands)

variable {σ : Type} [Source σ] {d : Delivery σ} {token rest : Bytes} {offset seen : Nat}

/-- Reads code points up to the end of the stream, but at most `limit` of them. -/
def codePointsWithin : (limit : Nat) → Scan σ (List CodePoint)
  | 0 => return []
  | limit + 1 => do
      let p ← peekCodePoint 0
      if (← visibleEnd).isSome then return []
      move p.width
      return p :: (← codePointsWithin limit)

theorem peekCodePoint_yields (hwidth : CodePoint.sequenceWidth (rest.headD 0) ≤ rest.length + 1) :
    Yields (d.Stands offset token rest seen) (peekCodePoint 0) (CodePoint.ofBytes rest)
      (d.Stands offset token rest (max seen (CodePoint.sequenceWidth (rest.headD 0)))) := by
  have hpos := CodePoint.sequenceWidth_pos (rest.headD 0)
  rw [CodePoint.ofBytes_eq]
  apply Yields.bind peek_zero_yields
  generalize CodePoint.sequenceWidth (rest.headD 0) = width at hwidth hpos
  -- After `i` of the following bytes, the cursor has looked for `i + 1` bytes.
  have hfollowing : Yields (d.Stands offset token rest (max seen 1))
      ((List.range (width - 1)).mapM fun i => peek (0 + (i + 1)))
      ((List.range (width - 1)).map fun i => rest[i + 1]?.getD 0)
      (d.Stands offset token rest (max seen (width - 1 + 1))) := by
    apply Yields.mapM_range (P := fun i => d.Stands offset token rest (max seen (i + 1)))
    intro i hi c hc
    rw [Nat.zero_add]
    obtain ⟨later, hpeek, hlater⟩ := hc.peek (k := i + 1) (by omega)
    exact ⟨later, hpeek, hlater.mono (by omega)⟩
  rw [Nat.sub_add_cancel hpos] at hfollowing
  exact hfollowing.bind (.pure fun _ hc => hc)

theorem peekCodePoint_yields_char (c : Char) (more : Bytes) :
    Yields (d.Stands offset token (String.utf8EncodeChar c ++ more) seen) (peekCodePoint 0)
      ⟨c.toNat, c.utf8Size⟩
      (d.Stands offset token (String.utf8EncodeChar c ++ more) (max seen c.utf8Size)) := by
  have hwidth := CodePoint.sequenceWidth_utf8EncodeChar_append c more
  have hlength := String.length_utf8EncodeChar c
  rw [← CodePoint.ofBytes_utf8EncodeChar_append c more, ← hwidth]
  apply peekCodePoint_yields
  rw [hwidth, List.length_append, hlength]
  omega

/-- The loop stops by itself, at the end of the text. -/
theorem codePointsWithin_yields (cs : List Char) {limit : Nat} (hlimit : cs.length < limit) :
    Yields (d.Stands offset token (cs.flatMap String.utf8EncodeChar) seen) (codePointsWithin limit)
      (cs.map fun c => ⟨c.toNat, c.utf8Size⟩)
      (d.Stands offset (token ++ cs.flatMap String.utf8EncodeChar) [] 1) := by
  obtain ⟨limit, rfl⟩ := Nat.exists_eq_succ_of_ne_zero (Nat.ne_zero_of_lt hlimit)
  induction cs generalizing token seen limit with
  | nil =>
    apply Yields.bind (peekCodePoint_yields (by decide))
    apply Yields.bind (visibleEnd_yields (Nat.le_max_right ..))
    rw [List.flatMap_nil, List.append_nil]
    exact .pure fun _ hc => hc.mono (Nat.le_max_right ..)
  | cons c cs ih =>
    have hlength := String.length_utf8EncodeChar c
    have hpos := c.utf8Size_pos
    rw [List.length_cons, Nat.succ_lt_succ_iff] at hlimit
    obtain ⟨limit, rfl⟩ := Nat.exists_eq_succ_of_ne_zero (Nat.ne_zero_of_lt hlimit)
    rw [List.flatMap_cons, List.map_cons]
    apply Yields.bind (peekCodePoint_yields_char c _)
    apply Yields.bind (visibleEnd_yields (by omega))
    rw [if_neg (List.append_ne_nil_of_left_ne_nil String.utf8EncodeChar_ne_nil _)]
    apply Yields.bind (move_yields (Nat.le_max_right ..))
    rw [List.take_left' hlength, List.drop_left' hlength, ← List.append_assoc]
    exact (ih limit hlimit).map (_ :: ·)

/-- However the UTF-8 bytes of a text are delivered, code point after code point are its characters,
each of the width of its encoding. A zero character is no end of the text. -/
theorem codePoints_of_text (cs : List Char) (options : Options)
    (hdata : (cs.flatMap String.utf8EncodeChar).length < maxCapacity) :
    ForAnyDelivery (cs.flatMap String.utf8EncodeChar) options fun cursor =>
      ∀ limit, cs.length < limit →
        ∃ points later, codePointsWithin limit cursor = .ok (points, later) ∧
          points.map (fun p => (p.asChar?, p.width)) = cs.map (fun c => (some c, c.utf8Size)) ∧
          later.offset = (cs.flatMap String.utf8EncodeChar).length ∧
          later.visibleEnd.isSome := by
  apply forAnyDelivery_of_fresh hdata
  intro σ _ d cursor hdata hcursor limit hlimit
  obtain ⟨later, hrun, hlater⟩ := codePointsWithin_yields cs hlimit cursor hcursor
  refine ⟨_, later, hrun, ?_, ?_, ?_⟩
  · simp [CodePoint.asChar?_toNat]
  · rw [hlater.offset_eq, hdata, Nat.sub_self, Nat.zero_add, List.nil_append]
  · rw [hlater.visibleEnd_eq Nat.one_pos]
    rfl

theorem codePoints_of_text_split :
    ∃ cursor points later,
      Cursor.ofSource (Packets.ofList [[0x61, 0x00, 0xC3], [0xA9, 0xF0, 0x9F], [], [0x98, 0x80]])
        { bufferSize := 1, adopt := false } = .ok cursor ∧
      codePointsWithin 5 cursor = .ok (points, later) ∧
      points.map (fun p => (p.asChar?, p.width)) =
        [(some 'a', 1), (some (Char.ofNat 0), 1), (some 'é', 2), (some '😀', 4)] ∧
      later.offset = 8 ∧ later.visibleEnd.isSome := by
  obtain ⟨-, -, -, hpackets⟩ := codePoints_of_text ['a', Char.ofNat 0, 'é', '😀']
    { bufferSize := 1, adopt := false } (by decide)
  obtain ⟨hopens, hreads⟩ :=
    hpackets [[0x61, 0x00, 0xC3], [0xA9, 0xF0, 0x9F], [], [0x98, 0x80]] [] (by decide)
  obtain ⟨cursor, hopen⟩ := hopens (by decide)
  obtain ⟨points, later, hrun, hpoints, hoffset, hend⟩ := hreads cursor hopen 5 (by decide)
  exact ⟨cursor, points, later, hopen, hrun, hpoints, hoffset, hend⟩

end Scan
end StreamCursor
