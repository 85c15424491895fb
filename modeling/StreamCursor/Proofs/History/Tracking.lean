import StreamCursor.Proofs.History.Rules
import StreamCursor.Source.Script

/-! What any history of a cursor makes of its stream, whatever the source does. Main statements:
no history fails, the cursor shows the bytes that the source delivered, each once and in order,
and those committed stay stored until they are reported consumed. -/

namespace StreamCursor

open Cursor (Faithful)

variable {σ : Type} [Source σ] {feed : Feed σ} {stream : Bytes}

namespace Operation

variable {c : Cursor σ} {freed : Nat}

omit [Source σ] in
theorem length_tokens_take (c : Cursor σ) : (tokens c take).flatten.length = c.window.mark := by
  simp [tokens, Cursor.take, Cursor.token]

omit [Source σ] in
theorem length_tokens_commit (c : Cursor σ) :
    (tokens c commit).flatten.length = c.window.mark := by
  simp [tokens, Cursor.token]

/-- What an operation commits is the stream from the start of the token on. -/
theorem flatten_tokens (h : c.Faithful feed stream freed) (op : Operation) :
    (op.tokens c).flatten = (stream.drop c.tokenOffset).take (op.tokens c).flatten.length := by
  have htoken : c.token = (stream.drop c.tokenOffset).take c.window.mark := by
    rw [h.token_eq, Cursor.offset_eq, Nat.add_sub_cancel_left]
  cases op with
  | take =>
    rw [length_tokens_take, ← htoken]
    exact List.append_nil _
  | commit =>
    rw [length_tokens_commit, ← htoken]
    exact List.append_nil _
  | peek | codePoint | move | mark | rewind | report | consume | release => rfl

/-- What an operation did to a cursor that was faithful to `stream`. -/
structure Outcome (feed : Feed σ) (op : Operation) (c : Cursor σ) (stream : Bytes) (freed : Nat)
    (part : Bytes) (later : Cursor σ) : Prop where
  faithful : later.Faithful feed (stream ++ part) (freed + op.freed c)
  tokenOffset : later.tokenOffset = c.tokenOffset + (op.tokens c).flatten.length
  pending : later.pending + op.reported c = c.pending + (op.tokens c).flatten.length

omit [Source σ] in
theorem tokenOffset_reposition (c : Cursor σ) {window : Window} (pending : Nat)
    (hstart : window.start = c.window.start) :
    Cursor.tokenOffset { c with window, pending } = c.tokenOffset :=
  congrArg (c.base + ·) hstart

/-- An operation that looks ahead reads on and leaves the cursor at its place. -/
theorem perform_of_looks (h : c.Faithful feed stream freed) (op : Operation)
    (hlooks : op.looks = true) :
    ∃ answer later part, op.perform c = .ok (answer, later) ∧
      Faithful.Later feed c stream freed part later := by
  obtain ⟨answer, later, hperform, part, hlater⟩ :=
    perform_meets_of_looks Scan.peek_readsOn hlooks c ⟨[], .refl h⟩
  exact ⟨answer, later, part, hperform, hlater⟩

/-- No operation fails, and each one leaves a cursor that is faithful to the stream. -/
theorem perform_outcome (h : c.Faithful feed stream freed) (op : Operation) :
    ∃ answer later part, op.perform c = .ok (answer, later) ∧
      Outcome feed op c stream freed part later := by
  have hstream : c.Faithful feed (stream ++ []) freed := by rwa [List.append_nil]
  have hcommit : c.commit.Faithful feed (stream ++ []) freed :=
    hstream.reposition (Window.bytes_commit _) _
  have hoffset : c.commit.tokenOffset = c.tokenOffset + c.window.mark := by
    rw [← Cursor.offset_eq, Cursor.tokenOffset, Cursor.commit, Window.start_commit]
    rfl
  cases op with
  | peek k =>
    obtain ⟨answer, later, part, hperform, hlater⟩ := perform_of_looks h (peek k) rfl
    exact ⟨answer, later, part, hperform, hlater.faithful, hlater.samePlace.tokenOffset,
      hlater.samePlace.pending⟩
  | codePoint k =>
    obtain ⟨answer, later, part, hperform, hlater⟩ := perform_of_looks h (codePoint k) rfl
    exact ⟨answer, later, part, hperform, hlater.faithful, hlater.samePlace.tokenOffset,
      hlater.samePlace.pending⟩
  | move n =>
    exact ⟨_, _, [], rfl, hstream.reposition (Window.bytes_move _ n) _,
      tokenOffset_reposition c _ (Window.start_move _ n), rfl⟩
  | mark => exact ⟨_, _, [], rfl, hstream, rfl, rfl⟩
  | rewind m =>
    exact ⟨_, _, [], rfl, hstream.reposition (Window.bytes_rewind _ m) _,
      tokenOffset_reposition c _ (Window.start_rewind _ m), rfl⟩
  | take =>
    exact ⟨_, _, [], rfl, hcommit, by rw [length_tokens_take]; exact hoffset,
      by rw [length_tokens_take]; rfl⟩
  | commit =>
    exact ⟨_, _, [], rfl, hcommit, by rw [length_tokens_commit]; exact hoffset,
      by rw [length_tokens_commit]; rfl⟩
  | report =>
    exact ⟨_, _, [], rfl, hstream.reposition rfl 0, rfl, Nat.zero_add _⟩
  | consume n => exact ⟨_, _, [], rfl, hstream.consume n, rfl, rfl⟩
  | release =>
    exact ⟨_, _, [], rfl, (hstream.reposition rfl 0).consume _, rfl, Nat.zero_add _⟩

end Operation

namespace History

/-- The cursor is faithful to `stream`, of which the tokens are the bytes before the current one,
and every one of these was reported as committed or is still to be. -/
structure Valid (feed : Feed σ) (h : History σ) (stream : Bytes) : Prop where
  faithful : h.cursor.Faithful feed stream h.freed
  flatten_tokens : h.tokens.flatten = stream.take h.cursor.tokenOffset
  reported_add : h.reported + h.cursor.pending = h.cursor.tokenOffset

variable {h : History σ}

theorem valid_start {c : Cursor σ} (hc : c.Faithful feed stream 0) (hfront : c.AtFront) :
    Valid feed { cursor := c } stream := by
  refine ⟨hc, ?_, ?_⟩
  · change [] = stream.take c.tokenOffset
    rw [hfront.tokenOffset, List.take_zero]
  · change 0 + c.pending = c.tokenOffset
    rw [hfront.pending, hfront.tokenOffset]

theorem Valid.step (hv : Valid feed h stream) (op : Operation) :
    ∃ next part, h.step op = .ok next ∧ Valid feed next (stream ++ part) := by
  obtain ⟨answer, later, part, hperform, houtcome⟩ := Operation.perform_outcome hv.faithful op
  have hle := hv.faithful.tokenOffset_le_length
  refine ⟨_, part, by rw [History.step, hperform]; rfl, houtcome.faithful, ?_, ?_⟩
  · have htokens := Operation.flatten_tokens hv.faithful op
    have hwithin : later.tokenOffset ≤ stream.length := by
      have hlength := congrArg List.length htokens
      rw [List.length_take, List.length_drop] at hlength
      rw [houtcome.tokenOffset]
      omega
    change (h.tokens ++ op.tokens h.cursor).flatten = (stream ++ part).take later.tokenOffset
    rw [List.flatten_append, hv.flatten_tokens, htokens, List.take_append_of_le_length hwithin,
      houtcome.tokenOffset, List.take_add]
  · have hreported := hv.reported_add
    have hpending := houtcome.pending
    change h.reported + op.reported h.cursor + later.pending = later.tokenOffset
    rw [houtcome.tokenOffset]
    omega

theorem Valid.run (hv : Valid feed h stream) (ops : List Operation) :
    ∃ last part, h.run ops = .ok last ∧ Valid feed last (stream ++ part) := by
  induction ops generalizing h stream with
  | nil => exact ⟨h, [], rfl, by rwa [List.append_nil]⟩
  | cons op ops ih =>
    obtain ⟨next, part, hstep, hnext⟩ := hv.step op
    obtain ⟨last, more, hrun, hlast⟩ := ih hnext
    refine ⟨last, part ++ more, ?_, by rwa [← List.append_assoc]⟩
    change (h.step op >>= fun next => next.run ops) = _
    rw [hstep]
    exact hrun

/-- No history of an open cursor fails, whatever is known of its source. -/
theorem run_valid {source : σ} {options : Options} {opened : Cursor σ}
    (hopen : Cursor.ofSource source options = .ok opened) (ops : List Operation) :
    ∃ h stream, run { cursor := opened } ops = .ok h ∧ Valid (.any σ) h stream := by
  have hfed : (Feed.any σ).Holds source none [] := trivial
  rcases Cursor.ofSource_faithful hfed options with ⟨-, hfault⟩ | ⟨c, stream, hc, hfaithful, hfront⟩
  · rw [hfault] at hopen
    cases hopen
  · obtain rfl : opened = c := by
      cases hopen.symm.trans hc
      rfl
    obtain ⟨h, part, hrun, hvalid⟩ := (valid_start hfaithful hfront).run ops
    exact ⟨h, stream ++ part, hrun, hvalid⟩

/-- A cursor that can be opened can be opened on the recorded source as well. -/
theorem ofSource_recorded {source : σ} {options : Options} {opened : Cursor σ}
    (hopen : Cursor.ofSource source options = .ok opened) :
    ∃ start stream, Cursor.ofSource { source : Recorder σ } options = .ok start ∧
      start.mapSource Recorder.source = opened ∧ start.Faithful (Recorder.feed σ) stream 0 ∧
      start.AtFront := by
  have hview := Cursor.ofSource_mapSource (Recorder.view σ) { source } options
  have hfed : (Recorder.feed σ).Holds { source } none [] := rfl
  rcases Cursor.ofSource_faithful hfed options with
    ⟨-, hfault⟩ | ⟨start, stream, hstart, hc, hfront⟩
  · rw [hfault] at hview
    cases hopen.symm.trans hview
  · rw [hstart] at hview
    cases hopen.symm.trans hview
    exact ⟨start, stream, hstart, rfl, hc, hfront⟩

theorem Valid.on_record {h : History (Recorder σ)} (hvalid : Valid (Recorder.feed σ) h stream) :
    Valid (Recorder.feed σ) h h.cursor.source.stream := by
  have hstream : h.cursor.source.stream = stream := hvalid.faithful.fed
  rwa [hstream]

/-- A history of a cursor on the recorded source is one of the cursor on the source itself. -/
theorem run_recorded {source : σ} {options : Options} {opened : Cursor σ}
    (hopen : Cursor.ofSource source options = .ok opened) (ops : List Operation) :
    ∃ (start : Cursor (Recorder σ)) (h : History (Recorder σ)),
      Cursor.ofSource { source : Recorder σ } options = .ok start ∧
      run { cursor := start } ops = .ok h ∧
      run { cursor := opened } ops = .ok (h.mapSource Recorder.source) ∧
      Valid (Recorder.feed σ) h h.cursor.source.stream := by
  obtain ⟨start, stream, hstart, rfl, hc, hfront⟩ := ofSource_recorded hopen
  obtain ⟨h, part, hrun, hvalid⟩ := (valid_start hc hfront).run ops
  have hmap := run_mapSource (Recorder.view σ) { cursor := start } ops
  rw [hrun] at hmap
  exact ⟨start, h, hstart, hrun, hmap, hvalid.on_record⟩

/-- Whatever the source does, no history of a cursor fails, and the cursor stays in step with what
was delivered: it stands within it, shows it without reading again, and has committed all that is
before the token, each byte once and in order. -/
theorem run_tracks_stream {source : σ} {options : Options} {opened : Cursor σ}
    (hopen : Cursor.ofSource source options = .ok opened) (ops : List Operation) :
    ∃ (start : Cursor (Recorder σ)) (h : History (Recorder σ)),
      Cursor.ofSource { source : Recorder σ } options = .ok start ∧
      run { cursor := start } ops = .ok h ∧
      run { cursor := opened } ops = .ok (h.mapSource Recorder.source) ∧
      h.cursor.tokenOffset ≤ h.cursor.offset ∧
      h.cursor.offset ≤ h.cursor.source.stream.length ∧
      h.cursor.source.stream.slice? h.cursor.tokenOffset h.cursor.offset = some h.cursor.token ∧
      h.cursor.take.1 = h.cursor.token ∧
      (∀ k b, h.cursor.source.stream[h.cursor.offset + k]? = some b →
        h.cursor.peek k = .ok (b, h.cursor)) ∧
      h.tokens.flatten = h.cursor.source.stream.take h.cursor.tokenOffset := by
  obtain ⟨start, h, hstart, hrun, hplain, hvalid⟩ := run_recorded hopen ops
  have hfaithful := hvalid.faithful
  have hle := Faithful.tokenOffset_le h.cursor
  refine ⟨start, h, hstart, hrun, hplain, hle, hfaithful.offset_le, ?_, rfl, ?_,
    hvalid.flatten_tokens⟩
  · rw [Bytes.slice?, if_pos ⟨hle, hfaithful.offset_le⟩, ← hfaithful.token_eq]
  · intro k b hb
    obtain ⟨hlt, rfl⟩ := List.getElem?_eq_some_iff.1 hb
    exact hfaithful.peek_of_lt hlt

/-- A source that claims nine bytes for a slot of four, of which it wrote three and filled the
rest, and that fails in the end. -/
def overclaiming : Script where
  steps := [.claim [1, 2, 3] 9, .data [4, 5], .fail (.source "gone")]
  scribble := some 238

theorem run_tracks_stream_overclaiming :
    ∃ (start : Cursor (Recorder Script)) (h : History (Recorder Script)),
      Cursor.ofSource ({ source := overclaiming } : Recorder Script)
        { bufferSize := 4, adopt := false } = .ok start ∧
      run { cursor := start }
        [.move 2, .take, .peek 3, .move 3, .commit, .consume 1, .move 1, .peek 7] = .ok h ∧
      h.cursor.source.stream = [1, 2, 3, 238, 4, 5] ∧
      h.tokens.flatten = [1, 2, 3, 238, 4] ∧ some h.cursor.token = some [5] := by
  have hopen : Cursor.ofSource overclaiming { bufferSize := 4, adopt := false } = .ok _ := rfl
  obtain ⟨start, h, hstart, hrun, -, -, -, htoken, -, -, htokens⟩ := run_tracks_stream hopen
    [.move 2, .take, .peek 3, .move 3, .commit, .consume 1, .move 1, .peek 7]
  cases hstart
  cases hrun
  exact ⟨_, _, rfl, rfl, rfl, htokens, htoken.symm⟩

/-- Whatever the source does and whatever is reported, in excess as well, the committed bytes that
were not reported consumed are all stored, each once and in order: first those on the chain of the
pool, then those that the active buffer holds before the token. -/
theorem run_stores_unconsumed {source : σ} {options : Options} {opened : Cursor σ}
    (hopen : Cursor.ofSource source options = .ok opened) (ops : List Operation) :
    ∃ (start : Cursor (Recorder σ)) (h : History (Recorder σ)),
      Cursor.ofSource { source : Recorder σ } options = .ok start ∧
      run { cursor := start } ops = .ok h ∧
      run { cursor := opened } ops = .ok (h.mapSource Recorder.source) ∧
      h.cursor.tokenOffset ≤ h.cursor.source.stream.length ∧
      h.cursor.pool.retiredBytes.drop h.cursor.pool.consumed ++
          (h.cursor.window.bytes.take h.cursor.window.start).drop (h.freed - h.cursor.base) =
        (h.cursor.source.stream.take h.cursor.tokenOffset).drop h.freed := by
  obtain ⟨start, h, hstart, hrun, hplain, hvalid⟩ := run_recorded hopen ops
  have hfaithful := hvalid.faithful
  obtain ⟨portions, hportions, haccounts⟩ := hfaithful.accounts
  have hretired := haccounts.drop_retiredBytes
  have hbase : (h.cursor.source.stream.take h.cursor.base).length = h.cursor.base :=
    List.length_take_of_le hfaithful.base_le
  refine ⟨start, h, hstart, hrun, hplain, hfaithful.tokenOffset_le_length, ?_⟩
  rw [hretired, hportions, hfaithful.bytes_eq, Cursor.tokenOffset, List.take_add, List.drop_append,
    hbase]

theorem run_stores_unconsumed_overclaiming :
    ∃ (start : Cursor (Recorder Script)) (h : History (Recorder Script)),
      Cursor.ofSource ({ source := overclaiming } : Recorder Script)
        { bufferSize := 4, adopt := false } = .ok start ∧
      run { cursor := start } [.move 2, .take, .peek 3, .move 3, .commit, .consume 1] = .ok h ∧
      h.cursor.pool.chain = [0] ∧ h.cursor.base = 2 ∧
      h.cursor.pool.retiredBytes.drop h.cursor.pool.consumed ++
        (h.cursor.window.bytes.take h.cursor.window.start).drop (h.freed - h.cursor.base) =
          [2, 3, 238, 4] := by
  have hopen : Cursor.ofSource overclaiming { bufferSize := 4, adopt := false } = .ok _ := rfl
  obtain ⟨start, h, hstart, hrun, -, -, hstored⟩ := run_stores_unconsumed hopen
    [.move 2, .take, .peek 3, .move 3, .commit, .consume 1]
  cases hstart
  cases hrun
  exact ⟨_, _, rfl, rfl, rfl, rfl, hstored⟩

end History
end StreamCursor
