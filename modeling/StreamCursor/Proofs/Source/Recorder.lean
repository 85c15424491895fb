import StreamCursor.Proofs.Cursor.Faithful
import StreamCursor.Proofs.Source.View

/-! A source that keeps a record of what it was asked and of what it answered. It answers like the
source that it records, so that a cursor over it does what one over that source does. -/

namespace StreamCursor

structure Recorder (σ : Type) where
  source : σ
  /-- What was taken over, if anything was. -/
  taken : Bytes := []
  /-- Every slot that was handed over to be read into, with the reply. -/
  reads : List (Slot × Reply) := []

namespace Recorder

variable {σ : Type}

/-- The bytes that a read counts for: as many as are claimed of the slot as the source left it, or
none if the read failed. -/
def received (slot : Slot) (reply : Reply) : Bytes :=
  match reply.outcome with
  | .ok count => (slot.overwrite reply.written).bytes.take (min count slot.size)
  | .error _ => []

/-- The stream as far as it was delivered. -/
def stream (r : Recorder σ) : Bytes :=
  r.taken ++ (r.reads.map fun entry => received entry.1 entry.2).flatten

theorem received_eq (slot : Slot) (reply : Reply) : received slot reply = reply.delivered slot := by
  rcases reply with ⟨written, cause | count⟩
  · rfl
  · change (slot.overwrite written).bytes.take (min count slot.size) =
      (slot.overwrite written).take count
    have hlength : (slot.overwrite written).bytes.length = slot.size := by simp
    rw [Slot.take_eq, ← hlength, ← List.take_take, List.take_length]

variable [Source σ]

instance : Source (Recorder σ) where
  read r slot :=
    let (reply, source) := Source.read r.source slot
    (reply, { r with source, reads := r.reads ++ [(slot, reply)] })
  takeAll r :=
    let (buffer?, source) := Source.takeAll r.source
    (buffer?, { r with source, taken := r.taken ++ (buffer?.map (·.bytes)).getD [] })

/-- A source on record hands over what the source itself does. -/
theorem takeAll_meets {source : σ} {P : Buffer → Prop}
    (h : ∀ buffer rest, Source.takeAll source = (some buffer, rest) → P buffer) (buffer : Buffer)
    (rest : Recorder σ) (htake : Source.takeAll ({ source } : Recorder σ) = (some buffer, rest)) :
    P buffer :=
  h buffer _ (Prod.ext (congrArg (·.1) htake) rfl)

/-- The record left out. -/
def view (σ : Type) [Source σ] : Source.View (Recorder σ) σ where
  see := source
  read _ _ := rfl
  takeAll _ := rfl

theorem stream_read (r : Recorder σ) (slot : Slot) :
    (Source.read r slot).2.stream =
      r.stream ++ (Source.read r.source slot).1.delivered slot := by
  simp only [Source.read, stream]
  rw [List.map_append, List.flatten_append, ← List.append_assoc]
  simp [received_eq]

/-- What a cursor is to be faithful to: the stream on record. -/
def feed (σ : Type) [Source σ] : Feed (Recorder σ) where
  Holds r _ delivered := r.stream = delivered
  takeAll := by
    intro r h
    obtain ⟨htaken, hreads⟩ := List.append_eq_nil_iff.1 h
    simp only [Source.takeAll]
    rcases Source.takeAll r.source with ⟨_ | buffer, rest⟩
    · simp only [stream, htaken, hreads]
      rfl
    · simp only [stream, htaken, hreads]
      simp
  read := by
    intro r delivered slot h _
    rw [stream_read, h]
    rfl

/-- The stream on record, and what is known of the source itself. -/
def recording (feed : Feed σ) : Feed (Recorder σ) where
  Holds r ended delivered := r.stream = delivered ∧ feed.Holds r.source ended delivered
  takeAll := by
    rintro r ⟨hstream, hsource⟩
    have hrecord := (Recorder.feed σ).takeAll hstream
    have htake := feed.takeAll hsource
    simp only [Source.takeAll] at hrecord ⊢
    generalize Source.takeAll r.source = taken at hrecord htake ⊢
    rcases taken with ⟨_ | buffer, rest⟩
    · exact ⟨hrecord, htake⟩
    · exact ⟨hrecord, htake⟩
  read h hslot := ⟨(Recorder.feed σ).read h.1 hslot, feed.read h.2 hslot⟩

end Recorder
end StreamCursor
