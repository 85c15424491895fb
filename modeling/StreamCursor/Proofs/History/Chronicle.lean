import StreamCursor.Proofs.Cursor.Chronicle
import StreamCursor.Proofs.Cursor.Growth
import StreamCursor.Proofs.History.Tracking
import StreamCursor.Proofs.Watch

/-! The journal of a history as an account of it. Main statement: whatever the source does, the
journal tells each read with the bytes that it brought, the end of the stream just once and where
it is, the blocks that were added in order, and every exchange with the place of the token and the
bytes buffered after it at that moment. -/

namespace StreamCursor

open Cursor (Chronicled Faithful Peeked)

/-- At each exchange in a journal, `P` holds of what the exchange reports and of the journal up to
it. -/
def Marked (P : Nat → Nat → List Event → Prop) (journal : List Event) : Prop :=
  ∀ newer offset carried older, journal = newer ++ .swapping offset carried :: older →
    P offset carried older

namespace Marked

variable {P Q : Nat → Nat → List Event → Prop} {journal events : List Event}

theorem nil : Marked P [] := by
  intro newer offset carried older hjournal
  simp at hjournal

theorem mono (h : Marked P journal)
    (himp : ∀ offset carried older, P offset carried older → Q offset carried older) :
    Marked Q journal :=
  fun newer offset carried older hjournal =>
    himp offset carried older (h newer offset carried older hjournal)

theorem append (h : Marked P journal) (hquiet : ∀ e ∈ events, e.isSwapping = false) :
    Marked P (events ++ journal) := by
  intro newer offset carried older hjournal
  rcases List.append_eq_append_iff.1 hjournal with ⟨middle, -, hrest⟩ | ⟨middle, hevents, hrest⟩
  · exact h middle offset carried older hrest
  · cases middle with
    | nil => exact h [] offset carried older hrest.symm
    | cons e middle =>
      rw [List.cons_append, List.cons.injEq] at hrest
      have hmem : e ∈ events := by simp [hevents]
      have hnone := hquiet e hmem
      rw [← hrest.1] at hnone
      cases hnone

theorem swapping (h : Marked P journal) {offset carried : Nat} (hmark : P offset carried journal) :
    Marked P (.swapping offset carried :: journal) := by
  intro newer offset' carried' older hjournal
  cases newer with
  | nil =>
    cases hjournal
    exact hmark
  | cons e newer =>
    rw [List.cons_append, List.cons.injEq] at hjournal
    exact h newer offset' carried' older hjournal.2

end Marked

variable {σ : Type} [Source σ]

/-- The exchange was made by one of the peeks, of a cursor whose token started at `offset` and from
there on had `carried` bytes, and whose journal was `older` but for an event that it grows. -/
def SwappedBy (glances : List (Glance (Recorder σ))) (offset carried : Nat) (older : List Event) :
    Prop :=
  ∃ g ∈ glances, offset = g.before.tokenOffset ∧
    offset + carried = g.before.source.stream.length ∧
    ∃ growth, (growth = [] ∨ ∃ capacity target, growth = [.growing capacity target]) ∧
      older = growth ++ g.before.journal

/-- The journal gives an account of the cursor and of the peeks that were made. -/
structure Chronicling (w : Watched (Recorder σ)) : Prop where
  faithful : ∃ stream freed, w.cursor.Faithful (Recorder.feed σ) stream freed
  chronicled : w.cursor.Chronicled
  swapped : Marked (SwappedBy w.glances) w.cursor.journal

namespace Chronicling

theorem keptByPeeks : KeptByPeeks (Chronicling (σ := σ)) := by
  rintro k ⟨c, glances⟩ ⟨⟨stream, freed, hc⟩, hchronicled, hswapped⟩
  obtain ⟨b, later, part, hpeek, hlater⟩ : ∃ b later part, c.peek k = .ok (b, later) ∧
      Faithful.Later (Recorder.feed σ) c stream freed part later := by
    obtain ⟨later, part, hpeek, hlater, -⟩ := hc.peek k
    exact ⟨_, later, part, hpeek, hlater⟩
  have hpeeked := hc.toSound.peeked_of_peek hpeek
  have hbefore : Marked (SwappedBy (glances ++ [⟨c, k, b, later⟩])) c.journal :=
    hswapped.mono fun offset carried older ⟨g, hg, hmark⟩ =>
      ⟨g, List.mem_append_left _ hg, hmark⟩
  refine ⟨b, later, hpeek, ⟨_, freed, hlater.faithful⟩, hchronicled.peeked hpeeked, ?_⟩
  change Marked _ later.journal
  by_cases hgrows : c.Outgrows k
  · obtain ⟨events, hexchange, -, reads, growth, hreads, hgrowth, hjournal⟩ := hpeeked.moved hgrows
    have harrived : c.tokenOffset + (c.window.mark + c.window.ahead.size) =
        c.source.stream.length := by
      have hstream : c.source.stream = stream := hc.fed
      rw [hstream, ← hc.offset_add_size, Cursor.offset_eq, Nat.add_assoc]
    have hmark : SwappedBy (glances ++ [⟨c, k, b, later⟩]) c.tokenOffset
        (c.window.mark + c.window.ahead.size) (growth ++ c.journal) :=
      ⟨_, List.mem_append_right _ List.mem_cons_self, rfl, harrived, growth,
        hgrowth.imp_right fun hgrowing => ⟨_, _, hgrowing⟩, rfl⟩
    have hgrowing : ∀ e ∈ growth, e.isSwapping = false := by
      rcases hgrowth with rfl | rfl
      · exact nofun
      · exact List.forall_mem_singleton.2 rfl
    have hpool : ∀ e ∈ events.reverse, e.isSwapping = false := fun e he =>
      Event.isSwapping_of_not_isExchange
        (Event.isOfPool_quiet (hexchange.isOfPool e (List.mem_reverse.1 he))).1
    rw [hjournal]
    refine Marked.append ?_ fun e he =>
      Event.isSwapping_of_not_isExchange (Event.isOfRead_quiet (hreads e he)).1
    exact ((hbefore.append hgrowing).swapping hmark).append hpool
  · obtain ⟨-, -, events, hjournal, hreads⟩ := hpeeked.unmoved hgrows
    rw [hjournal]
    exact hbefore.append fun e he =>
      Event.isSwapping_of_not_isExchange (Event.isOfRead_quiet (hreads e he)).1

theorem lasting (glances : List (Glance (Recorder σ))) :
    Lasting fun c => Chronicling { cursor := c, glances } where
  reposition _ _ pending h hbytes := by
    obtain ⟨stream, freed, hc⟩ := h.faithful
    exact ⟨⟨stream, freed, hc.reposition hbytes pending⟩, h.chronicled.reposition hbytes pending,
      h.swapped⟩
  consume _ n h := by
    obtain ⟨stream, freed, hc⟩ := h.faithful
    exact ⟨⟨stream, _, hc.consume n⟩, h.chronicled.consume n, h.swapped⟩

end Chronicling

theorem Watched.ofSource_chronicling {source : σ} {options : Options} {start : Cursor (Recorder σ)}
    (hstart : Cursor.ofSource { source : Recorder σ } options = .ok start) :
    ∃ first, ofSource { source : Recorder σ } options = .ok first ∧
      Accompanies Chronicling first start := by
  have hfed : (Recorder.feed σ).Holds { source } none [] := rfl
  have htaken := (Recorder.feed σ).takeAll hfed
  have hreads : (Source.takeAll ({ source } : Recorder σ)).2.reads = [] := rfl
  refine ofSource_accompanies Chronicling.keptByPeeks ?_ ?_ hstart
  · intro buffer rest _ htake
    rw [htake] at htaken hreads
    refine ⟨⟨_, 0, Cursor.faithful_adopting htaken⟩, ⟨?_, rfl, ?_, rfl, .other rfl rfl .nil⟩, ?_⟩
    · change [] = (rest.reads.map _).reverse
      rw [hreads]
      rfl
    · exact List.forall_mem_singleton.2 nofun
    · exact Marked.nil.append (List.forall_mem_singleton.2 rfl)
  · intro rest capacity hrest hpos hmax
    have hrest' : (Recorder.feed σ).Holds rest none [] ∧ rest.reads = [] := by
      rcases hrest with rfl | htake
      · exact ⟨hfed, rfl⟩
      · rw [htake] at htaken hreads
        exact ⟨htaken, hreads⟩
    refine ⟨⟨_, 0, Cursor.faithful_unread hrest'.1 hpos hmax⟩, ⟨?_, rfl, nofun, rfl, .nil⟩, .nil⟩
    change [] = (rest.reads.map _).reverse
    rw [hrest'.2]
    rfl

/-- Whatever the source does, the journal of a history gives an account of it. It tells each read
with the bytes that it brought, that nothing more is to come just once and only if that is so, with
the bytes delivered where it tells an offset, and the blocks of the pool as they were added. An
exchange is told with the start of the token and the bytes delivered from there on by the moment of
the peek that makes it, and one event of the pool belongs to it and follows at once. -/
theorem History.run_chronicles {source : σ} {options : Options} {opened : Cursor σ}
    (hopen : Cursor.ofSource source options = .ok opened) (ops : List Operation) :
    ∃ (first last : Watched (Recorder σ)) (h : History (Recorder σ)),
      Watched.ofSource { source : Recorder σ } options = .ok first ∧
      Cursor.ofSource { source : Recorder σ } options = .ok first.cursor ∧
      run { cursor := first.cursor } ops = .ok h ∧
      run { cursor := opened } ops = .ok (h.mapSource Recorder.source) ∧
      ops.mapM Operation.watch first = .ok (h.answers, last) ∧ last.cursor = h.cursor ∧
      let log := h.cursor.journal.reverse
      log.filterMap Event.delivered? = h.cursor.source.reads.map (fun entry =>
          (Recorder.received entry.1 entry.2).length) ∧
        h.cursor.source.taken.length + (log.filterMap Event.delivered?).sum =
          h.cursor.source.stream.length ∧
        log.countP Event.concludes = h.cursor.isExhausted.toNat ∧
        (∀ e ∈ log, ∀ offset, e.endOffset? = some offset →
          offset = h.cursor.source.stream.length) ∧
        (∀ before offset carried after, log = before ++ .swapping offset carried :: after →
          (∃ g ∈ last.glances, offset = g.before.tokenOffset ∧
            offset + carried = g.before.source.stream.length ∧
            ∃ growth, (growth = [] ∨ ∃ capacity target, growth = [.growing capacity target]) ∧
              before = g.before.journal.reverse ++ growth) ∧
          ∃ e rest, after = e :: rest ∧ e.isOfPool = true ∧
            ∀ f ∈ rest.takeWhile (!·.isSwapping), f.isOfPool = false) ∧
        log.filterMap Event.allocatedSlot? = List.range h.cursor.pool.blocks.size := by
  obtain ⟨start, h, hstart, hrun, hplain, hvalid⟩ := run_recorded hopen ops
  obtain ⟨first, hfirst, rfl, hfront⟩ := Watched.ofSource_chronicling hstart
  obtain ⟨answers, last, h', hrun', hwatch, hanswers, hcursor, hlast⟩ :=
    run_watched Chronicling.keptByPeeks Chronicling.lasting ops (h := { cursor := first.cursor })
      ⟨rfl, hfront⟩
  cases hrun.symm.trans hrun'
  have hchronicled := hlast.chronicled
  have hswapped := hlast.swapped
  rw [hcursor] at hchronicled hswapped
  have hdelivered : h.cursor.journal.reverse.filterMap Event.delivered? =
      h.cursor.source.reads.map fun entry => (Recorder.received entry.1 entry.2).length := by
    rw [List.filterMap_reverse, hchronicled.delivered_eq, List.reverse_reverse]
  refine ⟨first, last, h, hfirst, hstart, hrun, hplain, ?_, hcursor, hdelivered, ?_, ?_, ?_, ?_, ?_⟩
  · rw [hwatch, hanswers]
    rfl
  · rw [hdelivered, Recorder.stream, List.length_append, List.length_flatten, List.map_map]
    rfl
  · rw [List.countP_reverse]
    exact hchronicled.concluded_eq
  · intro e he offset hoffset
    rw [← hvalid.faithful.arrived_eq]
    exact hchronicled.endOffset_eq e (List.mem_reverse.1 he) offset hoffset
  · intro before offset carried after hlog
    have hjournal : h.cursor.journal =
        after.reverse ++ .swapping offset carried :: before.reverse := by
      rw [← List.reverse_reverse h.cursor.journal, hlog]
      simp
    obtain ⟨g, hg, hoffset, hcarried, growth, hgrowth, holder⟩ :=
      hswapped _ offset carried _ hjournal
    obtain ⟨e, rest, hafter, hpool⟩ := hchronicled.paired.after_swapping hjournal
    rw [List.reverse_reverse] at hafter
    refine ⟨⟨g, hg, hoffset, hcarried, growth, hgrowth, ?_⟩, e, rest, hafter, hpool⟩
    have hreverse : growth.reverse = growth := by
      rcases hgrowth with rfl | ⟨capacity, target, rfl⟩
      · rfl
      · rfl
    rw [← List.reverse_reverse before, holder, List.reverse_append, hreverse]
  · rw [List.filterMap_reverse, hchronicled.allocated_eq, List.reverse_reverse]

/-- A source that claims nine bytes for a slot of two. The second read goes into another buffer, and
the third one fails. -/
theorem History.run_chronicles_overclaiming :
    ∃ (first last : Watched (Recorder Script)) (h : History (Recorder Script))
      (g : Glance (Recorder Script)),
      Watched.ofSource { source := overclaiming } { bufferSize := 2, adopt := false } = .ok first ∧
      run { cursor := first.cursor } [.move 2, .commit, .release, .peek 3] = .ok h ∧
      h.cursor.journal.reverse =
        [.toppingUp 0 2, .delivered 2, .growing 2 7, .swapping 2 0, .allocated 7 0, .delivered 2,
          .toppingUp 2 7, .failed 4 (.source "gone"), .delivered 0] ∧
      h.cursor.source.reads.map (fun entry => (Recorder.received entry.1 entry.2).length) =
        [2, 2, 0] ∧
      h.cursor.source.stream.length = 4 ∧
      g ∈ last.glances ∧ g.before.tokenOffset = 2 ∧ g.before.source.stream.length = 2 := by
  have hopen : Cursor.ofSource overclaiming { bufferSize := 2, adopt := false } = .ok _ := rfl
  obtain ⟨first, last, h, hfirst, -, hrun, -, -, -, hdelivered, -, -, hend, hswapped, -⟩ :=
    run_chronicles hopen [.move 2, .commit, .release, .peek 3]
  cases hfirst
  cases hrun
  obtain ⟨⟨g, hg, hoffset, hcarried, -⟩, -⟩ :=
    hswapped [.toppingUp 0 2, .delivered 2, .growing 2 7] 2 0 _ rfl
  refine ⟨_, last, _, g, rfl, rfl, rfl, hdelivered.symm, ?_, hg, hoffset.symm, hcarried.symm⟩
  exact (hend (.failed 4 (.source "gone")) (by decide +kernel) 4 rfl).symm

end StreamCursor
