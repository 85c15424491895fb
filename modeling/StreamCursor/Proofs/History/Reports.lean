import StreamCursor.Proofs.History.Tracking

/-! What a history reports as committed, and what it leaves in the pool. Main statement: however
often the buffer was exchanged in between, the reports add up to the start of the token, and the
pool waits for exactly those bytes of the retired buffers that were not reported consumed. -/

namespace StreamCursor

variable {σ : Type}

namespace Operation

/-- Whether the operation passes on what it reports as committed, and nothing else, to the pool. -/
def passesOnReports : Operation → Bool
  | report | consume _ => false
  | _ => true

theorem freed_of_passesOnReports (c : Cursor σ) {op : Operation}
    (hop : op.passesOnReports = true) : op.freed c = op.reported c := by
  cases op with
  | report => cases hop
  | consume n => cases hop
  | peek | codePoint | move | mark | rewind | take | commit | release => rfl

end Operation

namespace History

variable [Source σ] {h last : History σ}

/-- Where every report is passed on, the totals of reports and of consumption stay equal. -/
theorem freed_run {ops : List Operation} (hops : ∀ op ∈ ops, op.passesOnReports = true)
    (hfreed : h.freed = h.reported) (hrun : h.run ops = .ok last) : last.freed = last.reported := by
  induction ops generalizing h with
  | nil =>
    cases hrun
    exact hfreed
  | cons op ops ih =>
    rw [run_cons] at hrun
    cases hstep : h.step op with
    | error fault =>
      rw [hstep] at hrun
      cases hrun
    | ok next =>
      rw [hstep] at hrun
      refine ih (fun o ho => hops o (List.mem_cons_of_mem _ ho)) ?_ hrun
      obtain ⟨answer, later, -, rfl⟩ := step_eq_ok hstep
      change h.freed + op.freed h.cursor = h.reported + op.reported h.cursor
      rw [hfreed, Operation.freed_of_passesOnReports _ (hops op (List.mem_cons_self ..))]

/-- Nothing is pending after a release. -/
theorem pending_run_release {ops : List Operation}
    (hrun : h.run (ops ++ [.release]) = .ok last) : last.cursor.pending = 0 := by
  rw [run_append] at hrun
  cases hinit : h.run ops with
  | error fault =>
    rw [hinit] at hrun
    cases hrun
  | ok middle =>
    rw [hinit] at hrun
    cases hrun
    rfl

/-- The reports so far and the one that is due make up the committed bytes, through all refills.
The pool waits for the bytes that its buffers hold and that were not reported consumed, and for
none at all once the committed bytes were; so it is right after a release, if every report before
was passed on to the pool. -/
theorem run_reports_committed {source : σ} {options : Options} {opened : Cursor σ}
    (hopen : Cursor.ofSource source options = .ok opened) (ops : List Operation) :
    ∃ h, run { cursor := opened } ops = .ok h ∧
      h.reported + h.cursor.report.1 = h.cursor.tokenOffset ∧
      h.cursor.pool.occupancy.unconsumed = h.cursor.base - h.freed ∧
      (h.freed = h.cursor.tokenOffset →
        h.cursor.pool.occupancy.inFlight = 0 ∧ h.cursor.pool.occupancy.unconsumed = 0) ∧
      ((∀ op ∈ ops, op.passesOnReports = true) → ops.getLast? = some .release →
        h.freed = h.cursor.tokenOffset) := by
  obtain ⟨h, stream, hrun, hvalid⟩ := run_valid hopen ops
  have hreported := hvalid.reported_add
  obtain ⟨portions, hportions, haccounts⟩ := hvalid.faithful.accounts
  have hretired : portions.flatten.length = h.cursor.base := by
    rw [hportions, List.length_take_of_le hvalid.faithful.base_le]
  have hunconsumed : h.cursor.pool.occupancy.unconsumed = h.cursor.base - h.freed := by
    rw [haccounts.unconsumed_eq, hretired]
  refine ⟨h, hrun, hreported, hunconsumed, ?_, ?_⟩
  · intro hfreed
    have hbase : h.cursor.base ≤ h.cursor.tokenOffset := Nat.le_add_right ..
    have hidle := (haccounts.idle (by omega)).1
    refine ⟨?_, by omega⟩
    rw [Pool.occupancy, hidle]
    rfl
  · intro hops hlast
    obtain ⟨before, rfl⟩ := List.getLast?_eq_some_iff.1 hlast
    have hfreed := freed_run hops rfl hrun
    have hpending := pending_run_release hrun
    omega

/-- Two bytes are released before the buffer is exchanged and three behind it. -/
theorem run_reports_committed_overclaiming :
    ∃ (opened : Cursor Script) (h : History Script),
      Cursor.ofSource overclaiming { bufferSize := 4, adopt := false } = .ok opened ∧
      run { cursor := opened }
        [.move 2, .take, .release, .peek 3, .move 3, .commit, .release] = .ok h ∧
      h.cursor.base = 2 ∧ h.reported + h.cursor.report.1 = 5 ∧ h.freed = 5 ∧
      h.cursor.pool.occupancy.inFlight = 0 ∧ h.cursor.pool.occupancy.unconsumed = 0 := by
  have hopen : Cursor.ofSource overclaiming { bufferSize := 4, adopt := false } = .ok _ := rfl
  obtain ⟨h, hrun, hreported, -, hidle, hfreed⟩ := run_reports_committed hopen
    [.move 2, .take, .release, .peek 3, .move 3, .commit, .release]
  have hall := hfreed (by decide) rfl
  cases hrun
  exact ⟨_, _, rfl, rfl, rfl, hreported, hall, hidle hall⟩

end History
end StreamCursor
