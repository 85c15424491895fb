import StreamCursor.Proofs.History
import StreamCursor.Proofs.Scan

/-! Rules for histories. Main statements: what holds of a cursor that has read nothing or has
adopted everything, and what every peek keeps, holds of every cursor opened; and where neither the
place of the cursor among its bytes nor the reports have a part in it, it holds after every history.
-/

namespace StreamCursor

variable {σ : Type} {P : Cursor σ → Prop}

/-- The statement is about no more than peeks can change: it stays true wherever the cursor stands
among its bytes, whatever is pending and whatever is reported consumed. -/
structure Lasting (P : Cursor σ → Prop) : Prop where
  reposition : ∀ (c : Cursor σ) (window : Window) (pending : Nat), P c →
    window.bytes = c.window.bytes → P { c with window, pending }
  consume : ∀ (c : Cursor σ) (n : Nat), P c → P (c.consume n)

namespace Cursor

variable [Source σ] {source : σ} {options : Options} {opened : Cursor σ}

/-- The two ways in which a cursor is opened. -/
inductive Opening (source : σ) (options : Options) (opened : Cursor σ) : Prop where
  | adopted {buffer : Buffer} {rest : σ} (hadopt : options.adopt = true)
      (htake : Source.takeAll source = (some buffer, rest))
      (hopened : opened = adopting rest buffer)
  | read {rest : σ} {b : UInt8}
      (hrest : options.adopt = false ∧ rest = source ∨
        options.adopt = true ∧ Source.takeAll source = (none, rest))
      (hmax : max options.bufferSize 1 ≤ maxCapacity)
      (hpeek : (unread rest (max options.bufferSize 1)).peek 0 = .ok (b, opened))

theorem peek_of_buffering {bufferSize : Nat} (hopen : buffering source bufferSize = .ok opened) :
    max bufferSize 1 ≤ maxCapacity ∧
      ∃ b, (unread source (max bufferSize 1)).peek 0 = .ok (b, opened) := by
  unfold buffering at hopen
  by_cases hmax : maxCapacity < max bufferSize 1
  · simp [hmax] at hopen
  · refine ⟨Nat.le_of_not_lt hmax, ?_⟩
    simp only [if_neg hmax] at hopen
    cases hpeek : (unread source (max bufferSize 1)).peek 0 with
    | error fault =>
      rw [hpeek] at hopen
      cases hopen
    | ok p =>
      rw [hpeek] at hopen
      cases hopen
      exact ⟨p.1, rfl⟩

theorem opening_of_ofSource (hopen : ofSource source options = .ok opened) :
    Opening source options opened := by
  unfold ofSource at hopen
  cases hadopt : options.adopt with
  | false =>
    simp only [hadopt] at hopen
    obtain ⟨hmax, b, hpeek⟩ := peek_of_buffering hopen
    exact .read (.inl ⟨hadopt, rfl⟩) hmax hpeek
  | true =>
    simp only [hadopt, if_true] at hopen
    rcases htake : Source.takeAll source with ⟨_ | buffer, rest⟩
    · rw [htake] at hopen
      obtain ⟨hmax, b, hpeek⟩ := peek_of_buffering hopen
      exact .read (.inr ⟨hadopt, htake⟩) hmax hpeek
    · rw [htake] at hopen
      exact .adopted hadopt htake (Except.ok.inj hopen).symm

theorem ofSource_keeps (hadopting : ∀ source buffer, P (adopting source buffer))
    (hunread : ∀ source capacity, 0 < capacity → capacity ≤ maxCapacity →
      P (unread source capacity))
    (hpeek : ∀ k, Scan.Meets P (Scan.peek k) fun _ => P)
    (hopen : ofSource source options = .ok opened) : P opened := by
  cases opening_of_ofSource hopen with
  | adopted _ _ hopened => exact hopened ▸ hadopting _ _
  | @read rest b _ hmax hread =>
    obtain ⟨b', later, hpeeked, hlater⟩ := hpeek 0 _ (hunread rest _ (by omega) hmax)
    cases hread.symm.trans hpeeked
    exact hlater

end Cursor

namespace Operation

/-- Whether the operation looks ahead. Only these may ask the source for more. -/
def looks : Operation → Bool
  | peek _ | codePoint _ => true
  | _ => false

variable [Source σ]

theorem perform_meets_of_not_looks (hP : Lasting P) {op : Operation} (hlooks : op.looks = false) :
    Scan.Meets P op.perform fun _ => P := by
  intro c hc
  cases op with
  | peek | codePoint => simp [looks] at hlooks
  | move n => exact ⟨_, _, rfl, hP.reposition c _ _ hc (Window.bytes_move ..)⟩
  | mark => exact ⟨_, _, rfl, hc⟩
  | rewind m => exact ⟨_, _, rfl, hP.reposition c _ _ hc (Window.bytes_rewind ..)⟩
  | take => exact ⟨_, _, rfl, hP.reposition c _ _ hc (Window.bytes_commit _)⟩
  | commit => exact ⟨_, _, rfl, hP.reposition c _ _ hc (Window.bytes_commit _)⟩
  | report => exact ⟨_, _, rfl, hP.reposition c _ _ hc rfl⟩
  | consume n => exact ⟨_, _, rfl, hP.consume c n hc⟩
  | release => exact ⟨_, _, rfl, hP.consume _ _ (hP.reposition c _ _ hc rfl)⟩

theorem perform_meets_of_looks (hpeek : ∀ k, Scan.Meets P (Scan.peek k) fun _ => P) {op : Operation}
    (hlooks : op.looks = true) : Scan.Meets P op.perform fun _ => P := by
  cases op with
  | peek k => exact .bind (hpeek k) fun b => .pure fun d hd => hd
  | codePoint k =>
    exact .bind (Scan.peekCodePoint_meets hpeek k) fun p => .pure fun d hd => hd.2
  | move | mark | rewind | take | commit | report | consume | release => cases hlooks

theorem perform_meets (hP : Lasting P) (hpeek : ∀ k, Scan.Meets P (Scan.peek k) fun _ => P)
    (op : Operation) : Scan.Meets P op.perform fun _ => P := by
  cases hlooks : op.looks with
  | false => exact perform_meets_of_not_looks hP hlooks
  | true => exact perform_meets_of_looks hpeek hlooks

end Operation

theorem History.run_keeps [Source σ] (hP : Lasting P)
    (hpeek : ∀ k, Scan.Meets P (Scan.peek k) fun _ => P) (ops : List Operation) {h : History σ}
    (hh : P h.cursor) : ∃ last, h.run ops = .ok last ∧ P last.cursor := by
  induction ops generalizing h with
  | nil => exact ⟨h, rfl, hh⟩
  | cons op ops ih =>
    obtain ⟨answer, later, hperform, hlater⟩ := Operation.perform_meets hP hpeek op h.cursor hh
    obtain ⟨last, hrun, hlast⟩ := ih (h := h.extend op answer later) hlater
    refine ⟨last, ?_, hlast⟩
    rw [run_cons, step_of_perform hperform]
    exact hrun

end StreamCursor
