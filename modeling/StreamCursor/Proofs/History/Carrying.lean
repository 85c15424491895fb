import StreamCursor.Proofs.Cursor.Carrying
import StreamCursor.Proofs.History.Rules
import StreamCursor.Proofs.History.Tracking

/-! What the exchanges of a history cost. Main statement: however long the tokens are and however
far the history looks ahead, the bytes carried from one buffer to the next stay linear in the bytes
delivered, and no exchange follows one for the greatest buffer there is. -/

namespace StreamCursor

open Cursor (Frugal Sound)

variable {σ : Type} [Source σ]

namespace Cursor

omit [Source σ] in
theorem lasting_frugal : Lasting fun c : Cursor σ => c.Sound ∧ c.Frugal 0 where
  reposition _ _ pending h hbytes := ⟨h.1.reposition hbytes pending, h.2.reposition hbytes pending⟩
  consume _ n h := ⟨h.1.consume n, h.2.consume n⟩

theorem peek_frugal (k : Nat) :
    Scan.Meets (fun c : Cursor σ => c.Sound ∧ c.Frugal 0) (Scan.peek k)
      fun _ c => c.Sound ∧ c.Frugal 0 := by
  intro c hc
  obtain ⟨b, later, hpeek, hpeeked⟩ := hc.1.peeked k
  exact ⟨b, later, hpeek, hpeeked.sound hc.1, hc.2.peeked hc.1 hpeeked⟩

omit [Source σ] in
/-- Before the first exchange nothing was carried. -/
theorem frugal_of_quiet {c : Cursor σ} (hquiet : ∀ e ∈ c.journal, e.isExchange = false)
    (hdelivered : deliveredBytes c.journal = c.arrived) : c.Frugal 0 := by
  have hnone := carriedBytes_eq_zero hquiet
  have haffordable : Affordable (c.journal ++ []) := Affordable.nil.append hnone
  have hconclusive : Conclusive (c.journal ++ []) c.capacity := Conclusive.nil.append hquiet
  rw [List.append_nil] at haffordable hconclusive
  refine ⟨hdelivered, haffordable, hconclusive, 0, 0, hnone, ?_⟩
  exact ⟨Nat.zero_le _, fun _ => Nat.zero_le _, fun _ => Nat.zero_le _⟩

theorem ofSource_frugal {source : σ} {options : Options} {opened : Cursor σ}
    (hopen : ofSource source options = .ok opened) : opened.Sound ∧ opened.Frugal 0 := by
  refine ofSource_keeps ?_ ?_ peek_frugal hopen
  · intro source buffer
    have hadopting : (adopting source buffer).Faithful (.any σ) buffer.bytes 0 :=
      faithful_adopting trivial
    refine ⟨hadopting.toSound, frugal_of_quiet (by simp [adopting, Event.isExchange]) ?_⟩
    exact hadopting.arrived_eq.symm
  · intro source capacity hpos hmax
    have hunread : (unread source capacity).Faithful (.any σ) [] 0 :=
      faithful_unread trivial hpos hmax
    exact ⟨hunread.toSound, frugal_of_quiet (by simp [unread]) rfl⟩

end Cursor

namespace History

/-- Whatever the source does, the bytes that were carried up to any moment are no more than three
times those delivered by then, and an exchange for the greatest buffer there is is the last one. -/
theorem run_carries_linearly {source : σ} {options : Options} {opened : Cursor σ}
    (hopen : Cursor.ofSource source options = .ok opened) (ops : List Operation) :
    ∃ (start : Cursor (Recorder σ)) (h : History (Recorder σ)),
      Cursor.ofSource { source : Recorder σ } options = .ok start ∧
      run { cursor := start } ops = .ok h ∧
      run { cursor := opened } ops = .ok (h.mapSource Recorder.source) ∧
      deliveredBytes h.cursor.journal = h.cursor.source.stream.length ∧
      (∀ past, past <:+ h.cursor.journal → carriedBytes past ≤ 3 * deliveredBytes past) ∧
      ∀ newer older small, h.cursor.journal = newer ++ .growing small maxCapacity :: older →
        ∃ later offset carried, newer = later ++ [.swapping offset carried] ∧
          ∀ e ∈ later, e.isExchange = false := by
  obtain ⟨start, h, hstart, hrun, hplain, hvalid⟩ := run_recorded hopen ops
  obtain ⟨last, hlast, -, hfrugal⟩ := run_keeps Cursor.lasting_frugal Cursor.peek_frugal ops
    (h := { cursor := start }) (Cursor.ofSource_frugal hstart)
  cases hrun.symm.trans hlast
  refine ⟨start, h, hstart, hrun, hplain, ?_, hfrugal.affordable, ?_⟩
  · rw [hfrugal.delivered_eq, hvalid.faithful.arrived_eq]
  · intro newer older small hjournal
    exact (hfrugal.conclusive newer older small hjournal).2

/-- Far peeks into short reads. The last exchange carries more bytes than it retires. -/
theorem run_carries_linearly_growing :
    ∃ (start : Cursor (Recorder Script)) (h : History (Recorder Script)),
      Cursor.ofSource ({ source := overclaiming } : Recorder Script)
        { bufferSize := 1, adopt := false } = .ok start ∧
      run { cursor := start } [.peek 2, .move 1, .commit, .peek 9] = .ok h ∧
      carriedBytes h.cursor.journal = 3 ∧
      carriedBytes h.cursor.journal ≤ 3 * deliveredBytes h.cursor.journal := by
  have hopen : Cursor.ofSource overclaiming { bufferSize := 1, adopt := false } = .ok _ := rfl
  obtain ⟨start, h, hstart, hrun, -, -, hcarried, -⟩ :=
    run_carries_linearly hopen [.peek 2, .move 1, .commit, .peek 9]
  cases hstart
  cases hrun
  exact ⟨_, _, rfl, rfl, rfl, hcarried _ List.suffix_rfl⟩

end History
end StreamCursor
