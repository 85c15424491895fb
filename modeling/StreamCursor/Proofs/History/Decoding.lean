import Mathlib.Algebra.Group.Nat.Defs
import StreamCursor.Proofs.CodePoints
import StreamCursor.Proofs.History.Tracking
import StreamCursor.Proofs.Watch

/-! Decoding a code point wherever a history has led. Main statements: over any bytes, however they
are delivered, the code point peeked at is that of the bytes, zeros past the end, and nothing behind
it is looked at, so that the end is found just if the code point reaches behind it; and a loop over
code points comes to the end. -/

namespace StreamCursor

namespace CodePoint

variable {first : UInt8} {rest bytes bytes' : Bytes}

theorem width_ofBytes (bytes : Bytes) : (ofBytes bytes).width = sequenceWidth (bytes.headD 0) := by
  have hpos := sequenceWidth_pos (bytes.headD 0)
  rw [ofBytes_eq]
  change ((List.range _).map _).length + 1 = _
  rw [List.length_map, List.length_range]
  omega

/-- The sequence that the first byte announces is all that counts. -/
theorem ofBytes_congr
    (h : ∀ i < (ofBytes bytes).width, bytes[i]?.getD 0 = bytes'[i]?.getD 0) :
    ofBytes bytes = ofBytes bytes' := by
  have hpos := sequenceWidth_pos (bytes.headD 0)
  rw [width_ofBytes] at h
  have hfirst : bytes.headD 0 = bytes'.headD 0 := by
    have hzero := h 0 hpos
    rwa [← List.head?_eq_getElem?, ← List.head?_eq_getElem?, ← List.headD_eq_head?_getD,
      ← List.headD_eq_head?_getD] at hzero
  rw [ofBytes_eq, ofBytes_eq, ← hfirst]
  congr 1
  apply List.map_congr_left
  intro i hi
  rw [List.mem_range] at hi
  exact h (i + 1) (by omega)

theorem ofBytes_cons (h : rest.length + 1 = sequenceWidth first) :
    ofBytes (first :: rest) = ofSequence first rest := by
  have hall := ofBytes_append h.symm []
  rwa [List.append_nil] at hall

theorem foldl_bits_lt {value bound : Nat} (h : value < bound) (rest : Bytes) :
    rest.foldl (fun value b => value * 64 + b.toNat % 64) value < bound * 64 ^ rest.length := by
  induction rest generalizing value bound with
  | nil => simpa using h
  | cons b rest ih =>
    have hnext : value * 64 + b.toNat % 64 < bound * 64 := by omega
    have hlt := ih hnext
    rwa [List.length_cons, Nat.pow_succ', ← Nat.mul_assoc]

/-- The more bytes a leading byte announces, the fewer bits of the value it holds itself. -/
theorem leadingBits_lt (first : UInt8) :
    ∃ bound, leadingBits first < bound ∧ bound * 64 ^ (sequenceWidth first - 1) ≤ 2 ^ 21 := by
  have hbyte : first.toNat < 256 := first.toNat_lt
  have hle := sequenceWidth_le first
  have hpos := sequenceWidth_pos first
  unfold leadingBits
  split
  next hwidth => exact ⟨256, hbyte, by rw [hwidth]; decide⟩
  next hwidth => exact ⟨32, Nat.mod_lt _ (by decide), by rw [hwidth]; decide⟩
  next hwidth => exact ⟨16, Nat.mod_lt _ (by decide), by rw [hwidth]; decide⟩
  next hone htwo hthree =>
    have hwidth : sequenceWidth first = 4 := by
      have hone' : sequenceWidth first ≠ 1 := hone
      have htwo' : sequenceWidth first ≠ 2 := htwo
      have hthree' : sequenceWidth first ≠ 3 := hthree
      omega
    exact ⟨8, Nat.mod_lt _ (by decide), by rw [hwidth]; decide⟩

theorem value_ofBytes_lt (bytes : Bytes) : (ofBytes bytes).value < 2 ^ 21 := by
  rw [ofBytes_eq]
  obtain ⟨bound, hbound, hle⟩ := leadingBits_lt (bytes.headD 0)
  have hlt := foldl_bits_lt hbound
    ((List.range (sequenceWidth (bytes.headD 0) - 1)).map fun i => bytes[i + 1]?.getD 0)
  rw [List.length_map, List.length_range] at hlt
  exact Nat.lt_of_lt_of_le hlt hle

end CodePoint

namespace Watch

variable {σ α β ι : Type}

theorem bind_of_ok {s : Watch σ α} {f : α → Watch σ β} {w later : Watched σ} {a : α}
    (h : s w = .ok (a, later)) : (s >>= f) w = f a later := by
  change (s w >>= fun p => f p.1 p.2) = _
  rw [h]
  rfl

variable [Source σ] {I : Watched σ → Prop}

theorem peek_of_peek {k : Nat} {w : Watched σ} {b : UInt8} {later : Cursor σ}
    (h : w.cursor.peek k = .ok (b, later)) :
    peek k w = .ok (b, ⟨later, w.glances ++ [⟨w.cursor, k, b, later⟩]⟩) := by
  rw [peek, h]
  rfl

/-- Peeks one after the other go on record in this order. -/
theorem mapM_peek (hpeek : KeptByPeeks I) (distance : ι → Nat) (is : List ι) {w : Watched σ}
    (hw : I w) :
    ∃ new later, is.mapM (fun i => peek (distance i)) w = .ok (new.map (·.byte), later) ∧
      later.glances = w.glances ++ new ∧ new.map (·.distance) = is.map distance ∧ I later := by
  induction is generalizing w with
  | nil => exact ⟨[], w, rfl, (List.append_nil _).symm, rfl, hw⟩
  | cons i is ih =>
    obtain ⟨b, next, hfirst, hnext⟩ := hpeek (distance i) w hw
    obtain ⟨new, later, hrest, hglances, hdistances, hlater⟩ := ih hnext
    refine ⟨⟨w.cursor, distance i, b, next⟩ :: new, later, ?_, ?_, ?_, hlater⟩
    · rw [List.mapM_cons, bind_of_ok (peek_of_peek hfirst), bind_of_ok hrest]
      rfl
    · rw [hglances, List.append_assoc]
      rfl
    · rw [List.map_cons, hdistances, List.map_cons]

/-- Decoding peeks at the bytes of the code point, in order, and at no other ones. -/
theorem peekCodePoint_glances (hpeek : KeptByPeeks I) (k : Nat) {w : Watched σ} (hw : I w) :
    ∃ new later, peekCodePoint k w = .ok (CodePoint.ofBytes (new.map (·.byte)), later) ∧
      later.glances = w.glances ++ new ∧
      new.map (·.distance) =
        (List.range (CodePoint.ofBytes (new.map (·.byte))).width).map (k + ·) ∧ I later := by
  obtain ⟨b, next, hfirst, hnext⟩ := hpeek (k + 0) w hw
  obtain ⟨new, later, hrest, hglances, hdistances, hlater⟩ := mapM_peek hpeek (fun i => k + (i + 1))
    (List.range (CodePoint.sequenceWidth b - 1)) hnext
  obtain ⟨width, hwidth⟩ :=
    Nat.exists_eq_succ_of_ne_zero (Nat.ne_of_gt (CodePoint.sequenceWidth_pos b))
  have hlength := congrArg List.length hdistances
  rw [hwidth, List.length_map, List.length_map, List.length_range] at hlength
  refine ⟨⟨w.cursor, k + 0, b, next⟩ :: new, later, ?_, ?_, ?_, hlater⟩
  · have hdecoded : CodePoint.ofBytes (b :: new.map (·.byte)) =
        CodePoint.ofSequence b (new.map (·.byte)) := by
      apply CodePoint.ofBytes_cons
      rw [List.length_map, hwidth, hlength]
      rfl
    rw [List.map_cons, hdecoded, peekCodePoint, CodePoint.decode,
      bind_of_ok (peek_of_peek hfirst), bind_of_ok hrest]
    rfl
  · rw [hglances, List.append_assoc]
    rfl
  · rw [CodePoint.width_ofBytes, List.map_cons, List.map_cons, List.headD_cons, hdistances, hwidth,
      List.range_succ_eq_map, List.map_cons, List.map_map]
    rfl

end Watch

namespace Delivery

open Cursor (Faithful)

variable {σ : Type} [Source σ] {d : Delivery σ} {c later : Cursor σ} {stream : Bytes}
  {freed k : Nat} {p : CodePoint} {glances : List (Glance σ)}

/-- What peeks show of the data and learn of its end, as long as the cursor stays at its place. -/
structure Glancing (d : Delivery σ) (c : Cursor σ) (w : Watched σ) : Prop where
  faithful : ∃ stream freed, w.cursor.Faithful d.toFeed stream freed
  samePlace : c.SamePlace w.cursor
  before : ∀ g ∈ w.glances, g.before.offset = c.offset ∧
    g.before.window.position ≤ c.window.position
  isExhausted_iff : w.cursor.isExhausted ↔ c.isExhausted ∨
    ∃ g ∈ w.glances, g.index < maxCapacity ∧ d.data.length ≤ g.target
  byte_eq : ∀ g ∈ w.glances, g.index < maxCapacity → g.byte = d.data[g.target]?.getD 0
  seen : ∀ g ∈ w.glances, g.index < maxCapacity →
    w.cursor.isExhausted ∨ g.target < w.cursor.arrived

namespace Glancing

theorem keptByPeeks (d : Delivery σ) (c : Cursor σ) : KeptByPeeks (Glancing d c) := by
  rintro k w ⟨⟨stream, freed, hw⟩, hplace, hbefore, hended, hbytes, hseen⟩
  obtain ⟨b, later, part, hpeek, hlater, hexhausted, hlooked⟩ := d.peek_detects hw k
  have harrived : later.arrived = (stream ++ part).length := hlater.faithful.arrived_eq
  refine ⟨b, later, hpeek, ⟨_, freed, hlater.faithful⟩, hplace.trans hlater.samePlace, ?_, ?_, ?_,
    ?_⟩
  · simp only [List.forall_mem_append, List.forall_mem_singleton]
    exact ⟨hbefore, hplace.offset, hplace.position_le⟩
  · simp only [List.mem_append, List.mem_singleton, or_and_right, exists_or, exists_eq_left]
    rw [hexhausted, hended, or_assoc]
    rfl
  · simp only [List.forall_mem_append, List.forall_mem_singleton]
    exact ⟨hbytes, fun hindex => (hlooked hindex).1⟩
  · simp only [List.forall_mem_append, List.forall_mem_singleton]
    refine ⟨fun g hg hindex => ?_, fun hindex => ?_⟩
    · refine (hseen g hg hindex).imp (fun hdone => hexhausted.2 (.inl hdone)) fun hlt => ?_
      rw [hw.arrived_eq] at hlt
      rw [harrived, List.length_append]
      omega
    · rw [harrived]
      exact (hlooked hindex).2

theorem start (h : c.Faithful d.toFeed stream freed) : Glancing d c { cursor := c } := by
  refine ⟨⟨stream, freed, h⟩, .refl c, List.forall_mem_nil _, ?_, List.forall_mem_nil _,
    List.forall_mem_nil _⟩
  simp

theorem index_le {w : Watched σ} (h : Glancing d c w) {g : Glance σ} (hg : g ∈ w.glances) :
    g.index + c.offset ≤ c.window.position + g.target := by
  obtain ⟨hoffset, hposition⟩ := h.before g hg
  rw [Glance.index, Glance.target, hoffset]
  omega

end Glancing

/-- What a decoded code point tells of the data. -/
structure Decodes (d : Delivery σ) (c : Cursor σ) (k : Nat) (p : CodePoint) (later : Cursor σ)
    (glances : List (Glance σ)) : Prop where
  point_eq : p = CodePoint.ofBytes (glances.map (·.byte))
  targets_eq : glances.map Glance.target = (List.range p.width).map (c.offset + k + ·)
  glancing : Glancing d c ⟨later, glances⟩

theorem decodes (h : c.Faithful d.toFeed stream freed) (k : Nat) :
    ∃ p later glances, Scan.peekCodePoint k c = .ok (p, later) ∧
      Watch.peekCodePoint k { cursor := c } = .ok (p, { cursor := later, glances }) ∧
      Decodes d c k p later glances := by
  have hkept := Glancing.keptByPeeks d c
  obtain ⟨glances, w, hwatch, hglances, hdistances, hw⟩ :=
    Watch.peekCodePoint_glances hkept k (Glancing.start h)
  have hsteps : InStep (Accompanies (Glancing d c)) (Watch.peekCodePoint k)
      (Scan.peekCodePoint k) := .decode fun i => Watch.peek_inStep hkept (k + i)
  obtain ⟨p, w', later, hwatch', hscan, rfl, -⟩ := hsteps { cursor := c } c ⟨rfl, .start h⟩
  cases hwatch.symm.trans hwatch'
  rw [List.nil_append] at hglances
  obtain ⟨later, glances⟩ := w
  cases hglances
  refine ⟨_, later, _, hscan, hwatch, rfl, ?_, hw⟩
  have htargets : glances.map Glance.target =
      (glances.map (·.distance)).map (c.offset + ·) := by
    rw [List.map_map]
    exact List.map_congr_left fun g hg => congrArg (· + g.distance) (hw.before g hg).1
  rw [htargets, hdistances, List.map_map]
  exact List.map_congr_left fun i _ => (Nat.add_assoc ..).symm

namespace Decodes

theorem faithful (h : Decodes d c k p later glances) :
    ∃ stream freed, later.Faithful d.toFeed stream freed :=
  h.glancing.faithful

theorem samePlace (h : Decodes d c k p later glances) : c.SamePlace later := h.glancing.samePlace

theorem length_glances (h : Decodes d c k p later glances) : glances.length = p.width := by
  have hlength := congrArg List.length h.targets_eq
  rwa [List.length_map, List.length_map, List.length_range] at hlength

theorem target_getElem (h : Decodes d c k p later glances) {i : Nat} (hi : i < glances.length) :
    glances[i].target = c.offset + k + i := by
  have htarget := List.getElem_of_eq h.targets_eq (i := i) (by rwa [List.length_map])
  simpa using htarget

theorem width_pos (h : Decodes d c k p later glances) : 0 < p.width := by
  rw [h.point_eq, CodePoint.width_ofBytes]
  exact CodePoint.sequenceWidth_pos _

theorem width_le (h : Decodes d c k p later glances) : p.width ≤ 4 := by
  rw [h.point_eq, CodePoint.width_ofBytes]
  exact CodePoint.sequenceWidth_le _

theorem index_getElem_le (h : Decodes d c k p later glances) {i : Nat} (hi : i < glances.length) :
    glances[i].index ≤ c.window.position + k + i := by
  have hindex := h.glancing.index_le (List.getElem_mem hi)
  rw [h.target_getElem hi] at hindex
  omega

theorem index_lt (h : Decodes d c k p later glances)
    (hfits : c.window.position + k + p.width ≤ maxCapacity) :
    ∀ g ∈ glances, g.index < maxCapacity := by
  intro g hg
  obtain ⟨i, hi, rfl⟩ := List.getElem_of_mem hg
  have hindex := h.index_getElem_le hi
  have hlength := h.length_glances
  omega

/-- Wherever the code point was looked at, what is there has arrived, or the end has. -/
theorem seen (h : Decodes d c k p later glances) {i : Nat} (hi : i < glances.length)
    (hindex : glances[i].index < maxCapacity) :
    later.isExhausted ∨ c.offset + k + i < later.arrived := by
  have hseen := h.glancing.seen _ (List.getElem_mem hi) hindex
  rwa [h.target_getElem hi] at hseen

variable (hindex : ∀ g ∈ glances, g.index < maxCapacity)
include hindex

theorem point_eq_data (h : Decodes d c k p later glances) :
    p = CodePoint.ofBytes (d.data.drop (c.offset + k)) := by
  have hlength := h.length_glances
  rw [h.point_eq] at hlength ⊢
  apply CodePoint.ofBytes_congr
  intro i hi
  have hlt : i < glances.length := by rwa [hlength]
  have hmem := List.getElem_mem hlt
  rw [List.getElem?_map, List.getElem?_eq_getElem hlt, Option.map_some, Option.getD_some,
    h.glancing.byte_eq _ hmem (hindex _ hmem), h.target_getElem hlt, List.getElem?_drop]

/-- The end is found just if the code point reaches behind the data. -/
theorem isExhausted_iff (h : Decodes d c k p later glances) :
    later.isExhausted ↔ c.isExhausted ∨ d.data.length < c.offset + k + p.width := by
  have hlength := h.length_glances
  have hpos := h.width_pos
  refine h.glancing.isExhausted_iff.trans (or_congr_right ⟨?_, fun hbehind => ?_⟩)
  · rintro ⟨g, hg, -, htarget⟩
    obtain ⟨i, hi, rfl⟩ := List.getElem_of_mem hg
    change i < glances.length at hi
    rw [h.target_getElem hi] at htarget
    omega
  · have hlt : p.width - 1 < glances.length := by omega
    have hmem := List.getElem_mem hlt
    refine ⟨_, hmem, hindex _ hmem, ?_⟩
    rw [h.target_getElem hlt]
    omega

end Decodes

end Delivery

namespace Scan

theorem codePointsWithin_succ {σ : Type} [Source σ] {c next : Cursor σ} {p : CodePoint}
    (limit : Nat) (hpeek : peekCodePoint 0 c = .ok (p, next)) :
    codePointsWithin (limit + 1) c =
      if next.visibleEnd.isSome then .ok ([], next)
      else (codePointsWithin limit (next.move p.width)).map fun r => (p :: r.1, r.2) := by
  change (peekCodePoint 0 c >>= fun r => _) = _
  rw [hpeek]
  change ((if next.visibleEnd.isSome then return [] else do
    Scan.move p.width
    return p :: (← codePointsWithin limit) : Scan σ (List CodePoint)) next) = _
  split
  · rfl
  · change (codePointsWithin limit (next.move p.width) >>= fun r => .ok (p :: r.1, r.2)) = _
    cases codePointsWithin limit (next.move p.width) <;> rfl

end Scan

namespace Delivery

open Cursor (Faithful)

variable {σ : Type} [Source σ] {d : Delivery σ} {c : Cursor σ} {stream : Bytes} {freed : Nat}

/-- A cursor that has looked at its own place and has not come to the end can be moved on. -/
theorem lt_offset_move (h : c.Faithful d.toFeed stream freed)
    (hseen : c.isExhausted ∨ c.offset < c.arrived) (hgoing : c.visibleEnd = none) {n : Nat}
    (hn : 0 < n) : c.offset < (c.move n).offset := by
  rw [h.arrived_eq] at hseen
  have hvisible := d.visibleEnd_eq h hseen
  have hmove := h.offset_move n
  have hlt : c.offset < d.data.length := by
    refine Nat.lt_of_not_le fun hend => ?_
    rw [hgoing, if_neg (Nat.not_lt_of_le hend)] at hvisible
    cases hvisible
  have hstream : c.offset < stream.length := by
    rcases hseen with hended | hlt'
    · rwa [(d.stream_eq h hended).1]
    · exact hlt'
  omega

/-- One turn of a loop over code points. It comes to the end of the data, or it moves over a code
point, or over as much of it as there is. -/
theorem codePoint_turn (h : c.Faithful d.toFeed stream freed)
    (hroom : c.window.position + (d.data.length - c.offset) < maxCapacity) :
    ∃ p next, Scan.peekCodePoint 0 c = .ok (p, next) ∧ 0 < p.width ∧ p.width ≤ 4 ∧
      (∃ stream freed, next.Faithful d.toFeed stream freed) ∧ next.offset = c.offset ∧
      (next.visibleEnd = if c.offset < d.data.length then none else some d.cause) ∧
      (next.move p.width).offset = min (c.offset + p.width) d.data.length ∧
      (next.move p.width).window.position + c.offset ≤
        c.window.position + (next.move p.width).offset := by
  obtain ⟨p, next, glances, hscan, -, hdecodes⟩ := decodes h 0
  obtain ⟨stream', freed', hnext⟩ := hdecodes.faithful
  have hplace := hdecodes.samePlace
  have hpos := hdecodes.width_pos
  have hoffset : next.offset = c.offset := hplace.offset
  have harrived : next.arrived = stream'.length := hnext.arrived_eq
  have hle := d.length_stream_le hnext
  have hwithin := hnext.offset_le
  have hlength := hdecodes.length_glances
  -- Up to the place behind the data, no index is too large.
  have hseen : ∀ i < p.width, i ≤ d.data.length - c.offset →
      next.isExhausted ∨ c.offset + i < stream'.length := by
    intro i hi hle
    have hlt : i < glances.length := by rwa [hlength]
    have hindex := hdecodes.index_getElem_le hlt
    rw [← harrived]
    exact hdecodes.seen hlt (by omega)
  have hlooked := hseen 0 hpos (Nat.zero_le _)
  rw [Nat.add_zero, ← hoffset] at hlooked
  have hvisible := d.visibleEnd_eq hnext hlooked
  have hall : min (c.offset + p.width) d.data.length ≤ stream'.length := by
    rcases hseen (min (p.width - 1) (d.data.length - c.offset)) (by omega) (by omega) with
      hended | hlt
    · have hstream := (d.stream_eq hnext hended).1
      rw [hstream]
      exact Nat.min_le_right ..
    · omega
  have hmove := hnext.offset_move p.width
  have htoken := Faithful.tokenOffset_le next
  have hmoved : (next.move p.width).offset = min (c.offset + p.width) d.data.length := by omega
  have hplaces : (next.move p.width).offset = next.base + (next.move p.width).window.position ∧
      next.offset = next.base + next.window.position := ⟨rfl, rfl⟩
  have hposition := hplace.position_le
  rw [hoffset] at hvisible
  exact ⟨p, next, hscan, hpos, hdecodes.width_le, ⟨_, _, hnext⟩, hoffset, hvisible, hmoved,
    by omega⟩

/-- A loop over code points comes to the end of the data. The last code point may reach three bytes
behind it. -/
theorem codePointsWithin_ends {limit : Nat} (h : c.Faithful d.toFeed stream freed)
    (hroom : c.window.position + (d.data.length - c.offset) < maxCapacity)
    (hlimit : d.data.length - c.offset < limit) :
    ∃ points later, Scan.codePointsWithin limit c = .ok (points, later) ∧
      later.offset = d.data.length ∧ later.visibleEnd.isSome ∧
      points.length ≤ d.data.length - c.offset ∧
      d.data.length ≤ c.offset + (points.map (·.width)).sum ∧
      c.offset + (points.map (·.width)).sum ≤ d.data.length + 3 := by
  induction limit generalizing c stream freed with
  | zero => omega
  | succ limit ih =>
    obtain ⟨p, next, hscan, hpos, hwidth, ⟨stream', freed', hnext⟩, hoffset, hvisible, hmoved,
      hposition⟩ := codePoint_turn h hroom
    have hbefore : c.offset ≤ d.data.length := Nat.le_trans h.offset_le (d.length_stream_le h)
    rw [Scan.codePointsWithin_succ limit hscan, hvisible]
    by_cases hlt : c.offset < d.data.length
    · obtain ⟨points, later, hrun, hend, hsome, hcount, hmin, hmax⟩ :=
        ih (hnext.move p.width) (by omega) (by omega)
      have hnone : d.data.length - (next.move p.width).offset = 0 → points = [] := fun hzero =>
        List.length_eq_zero_iff.1 (by omega)
      rw [if_pos hlt, hrun]
      refine ⟨p :: points, later, rfl, hend, hsome, ?_, ?_, ?_⟩
      · rw [List.length_cons]
        omega
      · rw [List.map_cons, List.sum_cons]
        omega
      · rw [List.map_cons, List.sum_cons]
        by_cases hbehind : c.offset + p.width ≤ d.data.length
        · omega
        · rw [hnone (by omega), List.map_nil, List.sum_nil]
          omega
    · rw [if_neg hlt] at hvisible ⊢
      refine ⟨[], next, rfl, by omega, by rw [hvisible]; rfl, Nat.zero_le _, ?_, ?_⟩
      · rw [List.map_nil, List.sum_nil]
        omega
      · rw [List.map_nil, List.sum_nil]
        omega

end Delivery

/-- Over any bytes, however they are delivered and wherever a history has led, a code point that is
peeked at takes one to four bytes, looks at these in order and at no others, and has a value of 21
bits. If no buffer is too small for them, it is the code point of the bytes with zeros past the
end, and the end is found just if it reaches behind them. A loop over code points moves on with each
turn and comes to the end of the bytes, with no more than three places behind it counted. -/
theorem History.run_decodes (data : Bytes) (options : Options) :
    ForAnyDelivery data options fun cursor => ∀ ops : List Operation, ∃ h,
      run { cursor } ops = .ok h ∧
      (∀ k, ∃ p later glances,
        Scan.peekCodePoint k h.cursor = .ok (p, later) ∧
        Watch.peekCodePoint k { cursor := h.cursor } = .ok (p, { cursor := later, glances }) ∧
        0 < p.width ∧ p.width ≤ 4 ∧ p.value < 2 ^ 21 ∧
        glances.map Glance.target = (List.range p.width).map (h.cursor.offset + k + ·) ∧
        (h.cursor.window.position + k + p.width ≤ maxCapacity →
          ∀ g ∈ glances, g.index < maxCapacity) ∧
        ((∀ g ∈ glances, g.index < maxCapacity) →
          p = CodePoint.ofBytes (data.drop (h.cursor.offset + k)) ∧
          (later.isExhausted ↔
            h.cursor.isExhausted ∨ data.length < h.cursor.offset + k + p.width) ∧
          (k = 0 → later.visibleEnd = none → h.cursor.offset < (later.move p.width).offset))) ∧
      (h.cursor.window.position + (data.length - h.cursor.offset) < maxCapacity →
        ∀ limit, data.length - h.cursor.offset < limit →
          ∃ points later, Scan.codePointsWithin limit h.cursor = .ok (points, later) ∧
            later.offset = data.length ∧ later.visibleEnd.isSome ∧
            points.length ≤ data.length - h.cursor.offset ∧
            data.length ≤ h.cursor.offset + (points.map (·.width)).sum ∧
            h.cursor.offset + (points.map (·.width)).sum ≤ data.length + 3) := by
  apply forAnyDelivery_of_faithful
  rintro σ _ d cursor stream rfl hcursor hfront ops
  obtain ⟨h, part, hrun, hvalid⟩ := (valid_start hcursor hfront).run ops
  have hc := hvalid.faithful
  refine ⟨h, hrun, fun k => ?_, fun hroom limit hlimit => ?_⟩
  · obtain ⟨p, later, glances, hscan, hwatch, hdecodes⟩ := Delivery.decodes hc k
    have hvalue : p.value < 2 ^ 21 := by
      rw [hdecodes.point_eq]
      exact CodePoint.value_ofBytes_lt _
    refine ⟨p, later, glances, hscan, hwatch, hdecodes.width_pos, hdecodes.width_le, hvalue,
      hdecodes.targets_eq, hdecodes.index_lt, fun hindex => ⟨hdecodes.point_eq_data hindex,
        hdecodes.isExhausted_iff hindex, ?_⟩⟩
    rintro rfl hgoing
    obtain ⟨stream', freed', hlater⟩ := hdecodes.faithful
    have hoffset : later.offset = h.cursor.offset := hdecodes.samePlace.offset
    have hfirst : 0 < glances.length := by rw [hdecodes.length_glances]; exact hdecodes.width_pos
    have hseen := hdecodes.seen hfirst (hindex _ (List.getElem_mem hfirst))
    rw [← hoffset] at hseen ⊢
    exact Delivery.lt_offset_move hlater hseen hgoing hdecodes.width_pos
  · exact Delivery.codePointsWithin_ends hc hroom hlimit

/-- A sequence of four bytes that breaks off after two, in packets of one byte. The decoding finds
the end, and the loop stops behind one code point of four bytes. -/
theorem History.run_decodes_truncated :
    ∃ cursor h later points last,
      Cursor.ofSource (Packets.ofList [[0x61], [0xF0], [0x9F]])
        { bufferSize := 1, adopt := false } = .ok cursor ∧
      run { cursor } [.move 1, .commit] = .ok h ∧ h.cursor.offset = 1 ∧
      h.cursor.isExhausted = false ∧
      Scan.peekCodePoint 0 h.cursor = .ok (CodePoint.ofBytes [0xF0, 0x9F], later) ∧
      CodePoint.ofBytes [0xF0, 0x9F] = ⟨126976, 4⟩ ∧ later.isExhausted ∧
      Scan.codePointsWithin 3 h.cursor = .ok (points, last) ∧ last.offset = 3 ∧
      points.length ≤ 2 := by
  obtain ⟨-, -, -, hpackets⟩ := run_decodes [0x61, 0xF0, 0x9F] { bufferSize := 1, adopt := false }
  obtain ⟨-, hruns⟩ := hpackets [[0x61], [0xF0], [0x9F]] [] (by decide)
  obtain ⟨h, hrun, hdecodes, hloop⟩ := hruns _ rfl [.move 1, .commit]
  cases hrun
  obtain ⟨p, later, glances, hscan, -, -, hwidth, -, -, hfits, hdata⟩ := hdecodes 0
  have hroom : 1 + 0 + p.width ≤ maxCapacity :=
    Nat.le_trans (by omega) (show 5 ≤ maxCapacity by decide)
  obtain ⟨rfl, hended, -⟩ := hdata (hfits hroom)
  obtain ⟨points, last, hpoints, hoffset, -, hcount, -⟩ := hloop (by decide) 3 (by decide)
  exact ⟨_, _, later, points, last, rfl, rfl, rfl, rfl, hscan, rfl, hended.2 (.inr (by decide)),
    hpoints, hoffset, hcount⟩

end StreamCursor
