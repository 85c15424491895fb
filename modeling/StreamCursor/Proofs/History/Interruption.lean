import StreamCursor.Proofs.History.Tracking
import StreamCursor.Proofs.Source.Calm

/-! Histories of a cursor over a device that is interrupted. Main statement: they are those over the
device without its interruptions, and they end for the reason that the device first fails for, if
they come to it. -/

namespace StreamCursor
namespace History

variable {σ τ : Type} [Source σ] [Source τ]

/-- Cursors whose sources are seen as the same one go through the same histories. -/
theorem run_mapSource_eq (v : Source.View σ τ) {c d : Cursor σ}
    (heq : c.mapSource v.see = d.mapSource v.see) {ops : List Operation} {h h' : History σ}
    (hrun : run { cursor := c } ops = .ok h) (hrun' : run { cursor := d } ops = .ok h') :
    h.answers = h'.answers ∧ v.see h.cursor.source = v.see h'.cursor.source ∧
      h.cursor.ended = h'.cursor.ended ∧ h.cursor.pool = h'.cursor.pool ∧
      h.cursor.window = h'.cursor.window ∧ h.cursor.capacity = h'.cursor.capacity ∧
      h.cursor.base = h'.cursor.base ∧ h.cursor.journal = h'.cursor.journal := by
  have hmap := run_mapSource v { cursor := c } ops
  have hmap' := run_mapSource v { cursor := d } ops
  have hstart : mapSource v.see { cursor := c } = mapSource v.see { cursor := d } :=
    congrArg (fun cursor => ({ cursor } : History τ)) heq
  rw [hrun] at hmap
  rw [hrun', ← hstart, hmap] at hmap'
  have hsame : h.mapSource v.see = h'.mapSource v.see := Except.ok.inj hmap'
  simp only [mapSource, Cursor.mapSource, History.mk.injEq, Cursor.mk.injEq] at hsame
  obtain ⟨⟨hsource, hended, hpool, hwindow, -, hcapacity, -, hbase, hjournal⟩, hanswers, -⟩ := hsame
  exact ⟨hanswers, hsource, hended, hpool, hwindow, hcapacity, hbase, hjournal⟩

/-- A history comes to the first failure of the device and ends with it, or it does not come so far
and ends, if it ends, because nothing was brought. -/
theorem run_heads_for {device : Script} {options : Options} {opened : Cursor Retrying}
    {ops : List Operation} {h : History Retrying}
    (hopen : Cursor.ofSource { device } options = .ok opened)
    (hrun : run { cursor := opened } ops = .ok h) {before after : List ScriptStep}
    {cause : StreamEnd} (hsteps : device.steps = before ++ .fail cause :: after)
    (hcause : cause.isInterruption = false) (hquiet : ∀ step ∈ before, step.fails = false) :
    (∃ left, h.cursor.source.device.steps = left ++ .fail cause :: after ∧
        (h.cursor.ended = none ∨ h.cursor.ended = some .eof)) ∨
      h.cursor.source.device.steps = after ∧ h.cursor.ended = some cause := by
  have hfed : (Retrying.headingFor hcause after).Holds { device } none [] :=
    .ahead before hsteps hquiet (.inl rfl)
  rcases Cursor.ofSource_faithful hfed options with ⟨-, hfail⟩ | ⟨start, stream, hstart, hc, hfront⟩
  · cases hfail.symm.trans hopen
  · cases hstart.symm.trans hopen
    obtain ⟨last, part, hlast, hvalid⟩ := (valid_start hc hfront).run ops
    cases hlast.symm.trans hrun
    have hheads : Retrying.HeadsFor cause after h.cursor.source h.cursor.ended :=
      hvalid.faithful.fed
    generalize h.cursor.source = source, h.cursor.ended = ended at hheads
    cases hheads with
    | ahead left hleft hquiet hended => exact .inl ⟨left, hleft, hended⟩
    | done hafter => exact .inr ⟨hafter, rfl⟩

/-- Whatever the device does and however often it is interrupted, a cursor over it answers as one
over the same device that never is, and stands, ends and keeps its buffers as that one does after
as many reads. The first failure that is no interruption ends it as it is. -/
theorem run_ignores_interruptions (device : Script) (options : Options) (ops : List Operation) :
    (maxCapacity < options.bufferSize ∧
        Cursor.ofSource ({ device } : Retrying) options = .error .capacity ∧
        Cursor.ofSource ({ device := device.uninterrupted } : Retrying) options =
          .error .capacity) ∨
      ∃ (opened opened' : Cursor Retrying) (h h' : History Retrying),
        Cursor.ofSource { device } options = .ok opened ∧
        Cursor.ofSource { device := device.uninterrupted } options = .ok opened' ∧
        run { cursor := opened } ops = .ok h ∧ run { cursor := opened' } ops = .ok h' ∧
        h.answers = h'.answers ∧
        h.cursor.offset = h'.cursor.offset ∧ h.cursor.tokenOffset = h'.cursor.tokenOffset ∧
        h.cursor.mark = h'.cursor.mark ∧ h.cursor.token = h'.cursor.token ∧
        h.cursor.capacity = h'.cursor.capacity ∧ h.cursor.ended = h'.cursor.ended ∧
        h.cursor.visibleEnd = h'.cursor.visibleEnd ∧ h.cursor.pool = h'.cursor.pool ∧
        h.cursor.journal = h'.cursor.journal ∧ h.cursor.source.calls = h'.cursor.source.calls ∧
        ∀ before cause after, device.steps = before ++ .fail cause :: after →
          cause.isInterruption = false → (∀ step ∈ before, step.fails = false) →
          (∃ left, h.cursor.source.device.steps = left ++ .fail cause :: after ∧
              (h.cursor.ended = none ∨ h.cursor.ended = some .eof)) ∨
            h.cursor.source.device.steps = after ∧ h.cursor.ended = some cause := by
  have hview := Cursor.ofSource_mapSource Calm.view { device } options
  have hview' := Cursor.ofSource_mapSource Calm.view { device := device.uninterrupted } options
  have hsee : Calm.view.see { device := device.uninterrupted } = Calm.view.see { device } :=
    Calm.ofRetrying_uninterrupted device 0
  rw [hsee, hview] at hview'
  have hfed : (Feed.any Retrying).Holds { device } none [] := trivial
  rcases Cursor.ofSource_faithful hfed options with ⟨hmax, hfail⟩ | ⟨opened, -, hopen, -, -⟩
  · left
    rw [hfail] at hview'
    cases hfail' : Cursor.ofSource ({ device := device.uninterrupted } : Retrying) options with
    | error fault =>
      rw [hfail'] at hview'
      cases hview'
      exact ⟨hmax, hfail, rfl⟩
    | ok opened' =>
      rw [hfail'] at hview'
      cases hview'
  · right
    rw [hopen] at hview'
    cases hopen' : Cursor.ofSource ({ device := device.uninterrupted } : Retrying) options with
    | error fault =>
      rw [hopen'] at hview'
      cases hview'
    | ok opened' =>
      rw [hopen'] at hview'
      obtain ⟨h, -, hrun, -⟩ := run_valid hopen ops
      obtain ⟨h', -, hrun', -⟩ := run_valid hopen' ops
      obtain ⟨hanswers, hcursor⟩ := run_mapSource_eq Calm.view (Except.ok.inj hview') hrun hrun'
      obtain ⟨hsource, hended, hpool, hwindow, hcapacity, hbase, hjournal⟩ := hcursor
      refine ⟨opened, opened', h, h', hopen, rfl, hrun, hrun', hanswers, ?_, ?_,
        congrArg Window.mark hwindow, congrArg Window.token hwindow, hcapacity, hended, ?_, hpool,
        hjournal, congrArg Calm.calls hsource, ?_⟩
      · rw [Cursor.offset, Cursor.offset, hwindow, hbase]
      · rw [Cursor.tokenOffset, Cursor.tokenOffset, hwindow, hbase]
      · rw [Cursor.visibleEnd, Cursor.visibleEnd, hwindow, hended]
      · intro before cause after hsteps hcause hquiet
        exact run_heads_for hopen hrun hsteps hcause hquiet

/-- A device that is interrupted before each of its pieces and before it fails. -/
def unsteady : Script where
  steps := [.fail (.device ⟨.interrupted, none⟩), .data [1, 2, 3],
    .fail (.device ⟨.interrupted, some "signal"⟩), .fail (.device ⟨.interrupted, none⟩), .data [4],
    .fail (.device ⟨.interrupted, none⟩), .fail (.device ⟨.connectionReset, some "gone"⟩),
    .data [5]]

/-- Eight tries are four reads. -/
theorem run_ignores_interruptions_unsteady :
    ∃ (opened opened' : Cursor Retrying) (h h' : History Retrying),
      Cursor.ofSource { device := unsteady } { bufferSize := 2 } = .ok opened ∧
      Cursor.ofSource { device := unsteady.uninterrupted } { bufferSize := 2 } = .ok opened' ∧
      run { cursor := opened } [.peek 2, .move 3, .take, .peek 0, .peek 1] = .ok h ∧
      run { cursor := opened' } [.peek 2, .move 3, .take, .peek 0, .peek 1] = .ok h' ∧
      h.answers = [.byte 3, .nothing, .bytes [1, 2, 3], .byte 4, .byte 0] ∧
      h.answers = h'.answers ∧ h.cursor.source.device.slots.length = 8 ∧
      h'.cursor.source.calls = 4 ∧ h.cursor.source.calls = h'.cursor.source.calls ∧
      h.cursor.ended = some (.device ⟨.connectionReset, some "gone"⟩) := by
  rcases run_ignores_interruptions unsteady { bufferSize := 2 }
    [.peek 2, .move 3, .take, .peek 0, .peek 1] with ⟨hmax, -⟩ |
    ⟨opened, opened', h, h', hopen, hopen', hrun, hrun', hanswers, -, -, -, -, -, -, -, -, -,
      hcalls, hfailure⟩
  · exact absurd hmax (by decide)
  · have hended := hfailure (unsteady.steps.take 6) (.device ⟨.connectionReset, some "gone"⟩)
      [.data [5]] rfl rfl (by decide)
    cases hopen
    cases hopen'
    cases hrun
    cases hrun'
    refine ⟨_, _, _, _, rfl, rfl, rfl, rfl, rfl, hanswers, rfl, rfl, hcalls, ?_⟩
    rcases hended with ⟨left, hleft, -⟩ | ⟨-, hended⟩
    · have hlength : 1 = (left ++ _).length := congrArg List.length hleft
      rw [List.length_append] at hlength
      simp at hlength
    · exact hended

end History
end StreamCursor
