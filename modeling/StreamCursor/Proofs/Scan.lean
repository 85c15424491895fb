import StreamCursor.Cursor.Scan
import StreamCursor.Proofs.Cursor.Faithful

/-! Rules for scans: what holds of a cursor before a scan and after it. Main statement: decoding a
code point reads on and leaves the cursor where it was. -/

namespace StreamCursor
namespace Scan

variable {σ α β : Type} {P : Cursor σ → Prop} {Q : α → Cursor σ → Prop}

/-- From every cursor of which `P` holds, the scan succeeds, and `Q` holds of its result and of
the cursor it leaves. -/
def Meets (P : Cursor σ → Prop) (s : Scan σ α) (Q : α → Cursor σ → Prop) : Prop :=
  ∀ c, P c → ∃ a later, s c = .ok (a, later) ∧ Q a later

theorem Meets.pure {a : α} (h : ∀ c, P c → Q a c) : Meets P (Pure.pure a) Q :=
  fun c hc => ⟨a, c, rfl, h c hc⟩

theorem Meets.bind {s : Scan σ α} {f : α → Scan σ β} {Q' : β → Cursor σ → Prop}
    (hs : Meets P s Q) (hf : ∀ a, Meets (Q a) (f a) Q') : Meets P (s >>= f) Q' := by
  intro c hc
  obtain ⟨a, next, hrun, hnext⟩ := hs c hc
  obtain ⟨b, later, hrest, hlater⟩ := hf a next hnext
  refine ⟨b, later, ?_, hlater⟩
  change (s c >>= fun p => f p.1 p.2) = _
  rw [hrun]
  exact hrest

/-- What every step keeps, a sequence of steps keeps, and it yields one result for each. -/
theorem Meets.mapM {ι : Type} {f : ι → Scan σ α} {xs : List ι}
    (hf : ∀ i ∈ xs, Meets P (f i) fun _ => P) :
    Meets P (xs.mapM f) fun as c => as.length = xs.length ∧ P c := by
  induction xs with
  | nil =>
    rw [List.mapM_nil]
    exact .pure fun c hc => ⟨rfl, hc⟩
  | cons i xs ih =>
    rw [List.mapM_cons]
    apply Meets.bind (hf i (List.mem_cons_self ..))
    intro a
    apply Meets.bind (ih fun j hj => hf j (List.mem_cons_of_mem _ hj))
    intro as
    exact .pure fun c hc => ⟨congrArg (· + 1) hc.1, hc.2⟩

variable [Source σ] {feed : Feed σ} {c : Cursor σ} {stream : Bytes} {freed : Nat}

/-- What every peek keeps, decoding a code point keeps. -/
theorem peekCodePoint_meets (hpeek : ∀ k, Meets P (peek k) fun _ => P) (k : Nat) :
    Meets P (peekCodePoint k) fun p later => (0 < p.width ∧ p.width ≤ 4) ∧ P later := by
  unfold peekCodePoint CodePoint.decode
  apply Meets.bind (hpeek _)
  intro first
  apply Meets.bind (Meets.mapM fun i _ => hpeek _)
  intro rest
  apply Meets.pure
  rintro later ⟨hlength, hlater⟩
  have hwidth := CodePoint.sequenceWidth_le first
  rw [List.length_range] at hlength
  refine ⟨⟨Nat.succ_pos _, ?_⟩, hlater⟩
  change rest.length + 1 ≤ 4
  omega

/-- The cursor after more bytes were delivered, however many. -/
def ReadsOn (feed : Feed σ) (c : Cursor σ) (stream : Bytes) (freed : Nat) (later : Cursor σ) :
    Prop :=
  ∃ part, Cursor.Faithful.Later feed c stream freed part later

theorem peek_readsOn (k : Nat) :
    Meets (ReadsOn feed c stream freed) (peek k) fun _ => ReadsOn feed c stream freed := by
  rintro d ⟨part, hd⟩
  obtain ⟨later, more, hpeek, hlater, -⟩ := hd.faithful.peek k
  exact ⟨_, later, hpeek, part ++ more, hd.trans hlater⟩

theorem peekCodePoint_readsOn (k : Nat) :
    Meets (ReadsOn feed c stream freed) (peekCodePoint k) fun p later =>
      (0 < p.width ∧ p.width ≤ 4) ∧ ReadsOn feed c stream freed later :=
  peekCodePoint_meets peek_readsOn k

theorem stride_succ {b : UInt8} {next : Cursor σ} (n : Nat) (hpeek : c.peek 0 = .ok (b, next)) :
    stride (n + 1) c =
      if next.visibleEnd.isSome then .ok (0, next)
      else (stride n (next.move 1)).map fun p => (p.1 + 1, p.2) := by
  change (c.peek 0 >>= fun p => _) = _
  rw [hpeek]
  change ((if next.visibleEnd.isSome then return 0 else do
    Scan.move 1
    return (← stride n) + 1 : Scan σ Nat) next) = _
  split
  · rfl
  · change (stride n (next.move 1) >>= fun p => .ok (p.1 + 1, p.2)) = _
    cases stride n (next.move 1) <;> rfl

end Scan
end StreamCursor
