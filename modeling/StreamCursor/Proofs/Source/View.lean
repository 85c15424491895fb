import StreamCursor.Cursor.Scan

/-! Two kinds of sources that answer alike. Main statement: cursors over the one and over the other
go through the same states, source apart, and show the same. -/

namespace StreamCursor

/-- A way to see a source of one kind as a source of another, which answers the same. -/
structure Source.View (σ τ : Type) [Source σ] [Source τ] where
  see : σ → τ
  read : ∀ source slot,
    Source.read (see source) slot = ((Source.read source slot).1, see (Source.read source slot).2)
  takeAll : ∀ source,
    Source.takeAll (see source) = ((Source.takeAll source).1, see (Source.takeAll source).2)

namespace Cursor

variable {σ τ : Type}

def mapSource (f : σ → τ) (c : Cursor σ) : Cursor τ :=
  { c with source := f c.source }

/-- The result of an operation with the source of its cursor seen as another one. -/
def mapResult {ε α : Type} (f : σ → τ) (result : Except ε (α × Cursor σ)) :
    Except ε (α × Cursor τ) :=
  result.map fun p => (p.1, p.2.mapSource f)

theorem exchange_mapSource (f : σ → τ) (c : Cursor σ) (reach : Nat) :
    (c.mapSource f).exchange reach = (c.exchange reach).map (mapSource f) := by
  simp only [exchange, mapSource, tokenOffset]
  generalize c.pool.exchange ⟨c.window.bytes, c.capacity⟩ c.window.start
    (nextCapacity c.capacity reach) = exchanged
  rcases exchanged with ⟨events, fault | ⟨fresh, pool⟩⟩ <;> rfl

variable [Source σ] [Source τ] (v : Source.View σ τ)

theorem read_mapSource (c : Cursor σ) : (c.mapSource v.see).read = c.read.mapSource v.see := by
  unfold read
  have hread := v.read c.source c.spare
  rcases hr : Source.read c.source c.spare with ⟨⟨written, cause | count⟩, source⟩
  · rw [hr] at hread
    simp only [mapSource, hread]
    rfl
  · rw [hr] at hread
    simp only [mapSource, hread]
    split <;> rfl

theorem refill_mapSource (c : Cursor σ) (k : Nat) :
    (c.mapSource v.see).refill k = (c.refill k).map (mapSource v.see) := by
  unfold refill
  by_cases hfits : c.window.position + k < c.capacity
  · rw [if_pos hfits]
    refine (if_pos hfits).trans ?_
    exact congrArg Except.ok (read_mapSource v (c.log [.toppingUp c.window.stop c.capacity]))
  · rw [if_neg hfits]
    refine (if_neg hfits).trans ?_
    rw [exchange_mapSource]
    change ((c.exchange (c.window.mark + k)).map (mapSource v.see)).map read = _
    cases c.exchange (c.window.mark + k) with
    | error fault => rfl
    | ok next => exact congrArg Except.ok (read_mapSource v next)

theorem fill_mapSource (c : Cursor σ) (k refills : Nat) :
    (c.mapSource v.see).fill k refills = (c.fill k refills).map (mapSource v.see) := by
  induction refills generalizing c with
  | zero => rfl
  | succ refills ih =>
    unfold fill
    by_cases hdone : (c.isExhausted || decide (k < c.window.ahead.size)) = true
    · rw [if_pos hdone]
      exact if_pos hdone
    · rw [if_neg hdone]
      refine (if_neg hdone).trans ?_
      rw [refill_mapSource]
      cases c.refill k with
      | error fault => rfl
      | ok next => exact ih next

theorem peek_mapSource (c : Cursor σ) (k : Nat) :
    (c.mapSource v.see).peek k = mapResult v.see (c.peek k) := by
  unfold peek
  have hwindow : (c.mapSource v.see).window = c.window := rfl
  rw [hwindow]
  cases c.window.ahead.get? k with
  | some b => rfl
  | none =>
    dsimp only
    by_cases hmax : maxCapacity ≤ c.window.position + k
    · rw [if_pos hmax, if_pos hmax]
      rfl
    · rw [if_neg hmax, if_neg hmax, fill_mapSource]
      cases c.fill k (k + 1 - c.window.ahead.size) <;> rfl

theorem buffering_mapSource (source : σ) (bufferSize : Nat) :
    buffering (v.see source) bufferSize = (buffering source bufferSize).map (mapSource v.see) := by
  unfold buffering
  dsimp only
  split
  · rfl
  · change (((unread source (max bufferSize 1)).mapSource v.see).peek 0).map (·.2) = _
    rw [peek_mapSource]
    cases (unread source (max bufferSize 1)).peek 0 <;> rfl

theorem ofSource_mapSource (source : σ) (options : Options) :
    ofSource (v.see source) options = (ofSource source options).map (mapSource v.see) := by
  unfold ofSource
  rw [v.takeAll]
  split
  · rcases Source.takeAll source with ⟨_ | buffer, rest⟩
    · exact buffering_mapSource v rest _
    · rfl
  · exact buffering_mapSource v source _

end Cursor

namespace Scan

open Cursor (mapSource mapResult)

variable {σ τ ε α β : Type}

/-- The two programs do the same, on cursors whose sources are seen as one another. -/
def Mirrors (f : σ → τ) (s : StateT (Cursor σ) (Except ε) α) (t : StateT (Cursor τ) (Except ε) α) :
    Prop :=
  ∀ c, t (c.mapSource f) = mapResult f (s c)

section Programs

variable {f : σ → τ} {s : StateT (Cursor σ) (Except ε) α} {t : StateT (Cursor τ) (Except ε) α}

theorem Mirrors.pure (f : σ → τ) (a : α) :
    Mirrors f (Pure.pure a : StateT (Cursor σ) (Except ε) α) (Pure.pure a) :=
  fun _ => rfl

theorem Mirrors.bind {s' : α → StateT (Cursor σ) (Except ε) β}
    {t' : α → StateT (Cursor τ) (Except ε) β} (h : Mirrors f s t)
    (h' : ∀ a, Mirrors f (s' a) (t' a)) : Mirrors f (s >>= s') (t >>= t') := by
  intro c
  change (t (c.mapSource f) >>= fun p => t' p.1 p.2) = mapResult f (s c >>= fun p => s' p.1 p.2)
  rw [h c]
  cases s c with
  | error fault => rfl
  | ok p => exact h' p.1 p.2

theorem Mirrors.ite {p : Prop} [Decidable p] {s' : StateT (Cursor σ) (Except ε) α}
    {t' : StateT (Cursor τ) (Except ε) α} (h : Mirrors f s t) (h' : Mirrors f s' t') :
    Mirrors f (if p then s else s') (if p then t else t') := by
  split
  · exact h
  · exact h'

end Programs

theorem Mirrors.mapM {f : σ → τ} {ι : Type} {s : ι → Scan σ α} {t : ι → Scan τ α}
    (h : ∀ i, Mirrors f (s i) (t i)) (xs : List ι) : Mirrors f (xs.mapM s) (xs.mapM t) := by
  induction xs with
  | nil => exact .pure f _
  | cons i xs ih =>
    rw [List.mapM_cons, List.mapM_cons]
    exact .bind (h i) fun a => .bind ih fun as => .pure f _

variable [Source σ] [Source τ] (v : Source.View σ τ)

theorem peek_mirrors (k : Nat) : Mirrors v.see (Scan.peek k) (Scan.peek k) :=
  fun c => Cursor.peek_mapSource v c k

theorem peekCodePoint_mirrors (k : Nat) :
    Mirrors v.see (Scan.peekCodePoint k) (Scan.peekCodePoint k) := by
  unfold peekCodePoint CodePoint.decode
  apply Mirrors.bind (peek_mirrors v _)
  intro first
  apply Mirrors.bind (Mirrors.mapM (fun i => peek_mirrors v _) _)
  intro rest
  exact .pure _ _

theorem walk_mirrors (go : UInt8 → Bool) (limit : Nat) :
    Mirrors v.see (walk go limit) (walk go limit) := by
  induction limit with
  | zero => exact .bind (peek_mirrors v 0) fun _ => .pure _ _
  | succ limit ih =>
    refine .bind (peek_mirrors v 0) fun b => .bind (fun _ => rfl) fun end? => ?_
    refine .ite (.pure _ _) (.bind (fun _ => rfl) fun _ => ?_)
    exact .bind ih fun n => .pure _ _

end Scan
end StreamCursor
