import StreamCursor.Proofs.Cursor.Standing
import StreamCursor.Proofs.Source.Finite

/-! Cursors opened over a fixed byte string. Main statement: what holds of every cursor that stands
at the front of the string holds however the string is delivered. -/

namespace StreamCursor

/-- A cursor can be opened over the source with any buffer there can be, and `P` holds of it. -/
def OpensTo {σ : Type} [Source σ] (source : σ) (options : Options) (P : Cursor σ → Prop) : Prop :=
  (options.bufferSize ≤ maxCapacity → ∃ c, Cursor.ofSource source options = .ok c) ∧
    ∀ c, Cursor.ofSource source options = .ok c → P c

/-- Whatever source brings `data`, in whatever parts, and however it ends then, `P` holds of a
cursor opened over it. -/
def ForAnyDelivery (data : Bytes) (options : Options)
    (P : ∀ {σ : Type} [Source σ], Cursor σ → Prop) : Prop :=
  (∀ (σ : Type) [Source σ] [Source.Finite σ] (source : σ), Source.Finite.Regular source →
      Source.Finite.left source = data → OpensTo source options P) ∧
    OpensTo data options P ∧
    (∀ capacity, OpensTo (⟨data, capacity⟩ : Buffer) options P) ∧
    ∀ (packets : List Bytes) (messages : List String), packets.flatten = data →
      OpensTo (messages.foldl Packets.failWith (Packets.ofList packets)) options P

theorem Delivery.opensTo_of_faithful {σ : Type} [Source σ] {d : Delivery σ} {source : σ}
    (hfed : d.Holds source none []) (options : Options) {P : Cursor σ → Prop}
    (h : ∀ c stream, c.Faithful d.toFeed stream 0 → c.AtFront → P c) :
    OpensTo source options P := by
  rcases Cursor.ofSource_faithful hfed options with ⟨hmax, hfail⟩ | ⟨c, stream, hopen, hc, hfront⟩
  · constructor
    · intro hbuffer
      omega
    · intro c hc
      cases hfail.symm.trans hc
  · constructor
    · intro _
      exact ⟨c, hopen⟩
    · intro c' hc'
      cases hopen.symm.trans hc'
      exact h c stream hc hfront

theorem Delivery.opensTo {σ : Type} [Source σ] {d : Delivery σ} {source : σ}
    (hfed : d.Holds source none []) (hshort : d.data.length < maxCapacity) (options : Options)
    {P : Cursor σ → Prop} (h : ∀ c, d.Fresh d.data 0 c → P c) :
    OpensTo source options P :=
  Delivery.opensTo_of_faithful hfed options fun c _ hc hfront =>
    h c (Delivery.fresh_front hc hfront hshort)

theorem Source.Finite.opensTo {σ : Type} [Source σ] [Source.Finite σ] {data : Bytes} {source : σ}
    (hregular : Regular source) (hleft : left source = data) (options : Options)
    {P : Cursor σ → Prop}
    (h : ∀ (d : Delivery σ) (c : Cursor σ) (stream : Bytes), d.data = data →
      c.Faithful d.toFeed stream 0 → c.AtFront → P c) :
    OpensTo source options P := by
  have hfed : (delivery σ data (finish source)).Holds source none [] := .going hregular hleft rfl
  exact Delivery.opensTo_of_faithful hfed options fun c stream => h _ c stream rfl

namespace Packets

theorem queue_foldl_failWith (source : Packets) (messages : List String) :
    (messages.foldl failWith source).queue = source.queue := by
  induction messages generalizing source with
  | nil => rfl
  | cons message messages ih => exact ih _

end Packets

theorem forAnyDelivery_of_faithful {data : Bytes} (options : Options)
    {P : ∀ {σ : Type} [Source σ], Cursor σ → Prop}
    (h : ∀ {σ : Type} [Source σ] (d : Delivery σ) (c : Cursor σ) (stream : Bytes), d.data = data →
      c.Faithful d.toFeed stream 0 → c.AtFront → P c) :
    ForAnyDelivery data options P := by
  refine ⟨?_, ?_, ?_, ?_⟩
  · intro σ _ _ source hregular hleft
    exact Source.Finite.opensTo hregular hleft options h
  · apply Source.Finite.opensTo trivial rfl options h
  · intro capacity
    exact Source.Finite.opensTo trivial rfl options h
  · intro packets messages hflatten
    have hqueue := Packets.queue_foldl_failWith (Packets.ofList packets) messages
    apply Source.Finite.opensTo ?_ ?_ options h
    · show [] ∉ (messages.foldl Packets.failWith (Packets.ofList packets)).queue
      rw [hqueue]
      intro hnil
      exact Packets.queue_ofList_ne_nil hnil rfl
    · show (messages.foldl Packets.failWith (Packets.ofList packets)).queue.flatten = data
      rw [hqueue, Packets.flatten_queue_ofList, hflatten]

/-- No buffer holds more than `maxCapacity` bytes, and data that long would leave no room to find
the end behind it. -/
theorem forAnyDelivery_of_fresh {data : Bytes} (hdata : data.length < maxCapacity)
    (options : Options) {P : ∀ {σ : Type} [Source σ], Cursor σ → Prop}
    (h : ∀ {σ : Type} [Source σ] (d : Delivery σ) (c : Cursor σ), d.data = data →
      d.Fresh data 0 c → P c) :
    ForAnyDelivery data options P := by
  refine forAnyDelivery_of_faithful options fun d c stream hd hc hfront => ?_
  have hfresh : d.Fresh d.data 0 c := Delivery.fresh_front hc hfront (by rwa [hd])
  rw [hd] at hfresh
  exact h d c hd hfresh

end StreamCursor
