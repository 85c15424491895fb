import StreamCursor.Proofs.Checked.Pool
import StreamCursor.Proofs.Linked.Arena

/-! A pool and the links that keep its chain. Main statements: on the links of a pool in order no
operation fails that succeeds on the pool, none fails for another reason, and each leaves the links
of the pool that it should. -/

namespace StreamCursor

namespace Pool

/-- What comes after a block in a list of blocks. -/
def after? : (chain : List Nat) → (slot : Nat) → Option Nat
  | [], _ => none
  | first :: chain, slot => if first = slot then chain.head? else after? chain slot

theorem successor?_eq (pool : Pool) (slot : Nat) :
    pool.successor? slot = after? pool.chain slot := by
  rcases pool with ⟨blocks, chain, consumed⟩
  induction chain with
  | nil => rfl
  | cons first chain ih =>
    by_cases h : first = slot
    · cases chain <;> simp [successor?, after?, h]
    · simpa [successor?, after?, h] using ih

theorem after?_of_notMem {chain : List Nat} {slot : Nat} (h : slot ∉ chain) :
    after? chain slot = none := by
  induction chain with
  | nil => rfl
  | cons first chain ih =>
    rw [List.mem_cons, not_or] at h
    simp [after?, Ne.symm h.1, ih h.2]

/-- A block added behind comes after the one that was last. -/
theorem after?_append {chain : List Nat} {added : Nat} (hnodup : chain.Nodup)
    (hadded : added ∉ chain) (slot : Nat) :
    after? (chain ++ [added]) slot =
      if chain.getLast? = some slot then some added else after? chain slot := by
  induction chain with
  | nil => simp [after?]
  | cons first chain ih =>
    obtain ⟨hfirst, hchain⟩ := List.nodup_cons.1 hnodup
    have hrest := ih hchain fun hmem => hadded (List.mem_cons_of_mem _ hmem)
    cases chain with
    | nil => by_cases h : first = slot <;> simp [after?, h]
    | cons second chain =>
      rw [List.getLast?_cons_cons]
      by_cases h : first = slot
      · subst h
        have hlast : (second :: chain).getLast? ≠ some first :=
          fun hlast => hfirst (List.mem_of_getLast? hlast)
        simp [after?, hlast]
      · have hskip : after? (first :: second :: chain) slot = after? (second :: chain) slot :=
          if_neg h
        rw [List.cons_append, after?, if_neg h, hrest, hskip]

end Pool

namespace Arena

open Checked (require)

/-- The links are those of the pool's chain. -/
structure Represents (arena : Arena) (pool : Pool) : Prop where
  blocks : arena.nodes.map (·.toBlock) = pool.blocks
  next : ∀ slot, arena.next? slot = pool.successor? slot
  head : arena.head = pool.newest?
  tail : arena.tail = pool.oldest?
  consumed : arena.consumed = pool.consumed

theorem represents_empty : Represents {} {} := by
  constructor <;> simp [next?, Pool.successor?, Pool.newest?, Pool.oldest?]

section Put

variable {arena : Arena} {slot : Nat} {node : Node}

@[simp] theorem size_nodes_put : (arena.put slot node).nodes.size = arena.nodes.size := by
  simp [put]

theorem next?_put (hslot : slot < arena.nodes.size) (node : Node) (other : Nat) :
    (arena.put slot node).next? other = if slot = other then node.next else arena.next? other := by
  by_cases h : slot = other
  · subst h
    simp [next?, put, hslot]
  · simp [next?, put, h]

theorem blocks_put :
    (arena.put slot node).nodes.map (·.toBlock) =
      (arena.nodes.map (·.toBlock)).setIfInBounds slot node.toBlock := by
  simp [put, Array.map_setIfInBounds]

theorem node_eq (hslot : slot < arena.nodes.size) : arena.node slot = .ok arena.nodes[slot] := by
  simp [Arena.node, hslot]

end Put

variable {arena : Arena} {pool : Pool}

theorem Represents.size_eq (h : arena.Represents pool) :
    arena.nodes.size = pool.blocks.size := by
  simp [← h.blocks]

theorem blocks_put_retired {slot : Nat} (hslot : slot < arena.nodes.size) :
    (arena.put slot arena.nodes[slot].retired).nodes.map (·.toBlock) =
      (arena.nodes.map (·.toBlock)).modify slot ({ · with active := false }) := by
  rw [blocks_put]
  apply Array.ext_getElem?
  intro i
  rw [Array.getElem?_modify, Array.getElem?_setIfInBounds]
  by_cases h : slot = i
  · subst h
    simp [hslot, Node.retired]
  · simp [h]

theorem blocks_put_before {slot : Nat} (hslot : slot < arena.nodes.size) (next : Nat) :
    (arena.put slot (arena.nodes[slot].before next)).nodes.map (·.toBlock) =
      arena.nodes.map (·.toBlock) := by
  rw [blocks_put]
  apply Array.ext_getElem?
  intro i
  by_cases h : slot = i
  · subst h
    simp [hslot, Node.before]
  · simp [h]

/-- The loop along the links does what the recursion along the chain does. While it runs, the new
end may still be named, though the block there has left the chain. -/
theorem drainWithin_eq {blocks : Array Block} {chain : List Nat} {consumed turns : Nat}
    (hturns : chain.length < turns) (hnodup : chain.Nodup)
    (hrange : ∀ slot ∈ chain, slot < blocks.size)
    (hblocks : arena.nodes.map (·.toBlock) = blocks)
    (hnext : ∀ slot, arena.next? slot = Pool.after? chain slot)
    (hhead : chain ≠ [] → arena.head = chain.getLast?) (htail : arena.tail = chain.head?)
    (hconsumed : arena.consumed = consumed) :
    ∃ after, drainWithin turns arena = .ok after ∧
      after.Represents (Pool.reclaimFrom blocks chain consumed) := by
  induction turns generalizing arena blocks chain consumed with
  | zero => exact absurd hturns (Nat.not_lt_zero _)
  | succ turns ih =>
    cases chain with
    | nil =>
      refine ⟨{ arena with head := none }, ?_, hblocks, ?_, rfl, htail, hconsumed⟩
      · simp [drainWithin, htail]
      · intro slot
        rw [Pool.successor?_eq]
        exact hnext slot
    | cons slot chain =>
      obtain ⟨hslot, hchain⟩ := List.nodup_cons.1 hnodup
      have hsize : slot < arena.nodes.size := by
        have := hrange slot (List.mem_cons_self ..)
        simpa [← hblocks] using this
      have hbuffer : (blocks[slot]?.getD {}).buffer = arena.nodes[slot].buffer := by
        simp [← hblocks, hsize]
      have hlink : arena.nodes[slot].next = chain.head? := by
        have := hnext slot
        simpa [next?, Pool.after?, hsize] using this
      simp only [drainWithin, htail, List.head?_cons, node_eq hsize, Pool.reclaimFrom, hbuffer,
        hconsumed, bind, Except.bind]
      by_cases hlt : consumed < arena.nodes[slot].buffer.size
      · refine ⟨arena, if_pos hlt, ?_⟩
        rw [if_pos hlt]
        refine ⟨hblocks, ?_, hhead nofun, htail, hconsumed⟩
        intro other
        rw [Pool.successor?_eq]
        exact hnext other
      · simp only [if_neg hlt, Checked.sub_eq (Nat.le_of_not_lt hlt)]
        apply ih
        · exact Nat.lt_of_succ_lt_succ hturns
        · exact hchain
        · intro other hother
          rw [Array.size_modify]
          exact hrange other (List.mem_cons_of_mem _ hother)
        · rw [← hblocks]
          exact blocks_put_retired hsize
        · intro other
          refine (next?_put hsize arena.nodes[slot].retired other).trans ?_
          by_cases h : slot = other
          · subst h
            simp [Node.retired, Pool.after?_of_notMem hslot]
          · rw [if_neg h, hnext, Pool.after?, if_neg h]
        · intro hne
          obtain ⟨second, rest, rfl⟩ := List.exists_cons_of_ne_nil hne
          have := hhead nofun
          rwa [List.getLast?_cons_cons] at this
        · exact hlink
        · rfl

/-- No chain is longer than there are blocks. -/
theorem length_chain_le (hw : pool.WellFormed) : pool.chain.length ≤ pool.blocks.size := by
  have hsub : pool.chain ⊆ List.range pool.blocks.size :=
    fun slot hslot => List.mem_range.2 (hw.lt_size hslot)
  simpa using hw.nodup.length_le_of_subset hsub

theorem Represents.drain (h : arena.Represents pool) (hw : pool.WellFormed) :
    ∃ after, arena.drain = .ok after ∧ after.Represents pool.reclaim := by
  apply drainWithin_eq
  · have := length_chain_le hw
    rw [h.size_eq]
    omega
  · exact hw.nodup
  · exact fun slot => hw.lt_size
  · exact h.blocks
  · intro slot
    rw [h.next, Pool.successor?_eq]
  · exact fun _ => h.head
  · exact h.tail
  · exact h.consumed

theorem Represents.consume (h : arena.Represents pool) (hw : pool.WellFormed) (n : Nat) :
    ∃ after, arena.consume n = .ok after ∧ after.Represents (pool.consume n) := by
  have hmore : Represents { arena with consumed := arena.consumed + n }
      { pool with consumed := pool.consumed + n } :=
    ⟨h.blocks, h.next, h.head, h.tail, congrArg (· + n) h.consumed⟩
  exact hmore.drain ⟨hw.nodup, hw.mem_chain_iff⟩

section Intern

variable {slot : Nat} {buffer : Buffer}

/-- A block off the chain can be filled without any link being touched but its own. -/
theorem Represents.put (h : arena.Represents pool) (hslot : slot ∉ pool.chain)
    (hsize : slot < pool.blocks.size) (node : Node) (hnode : node.next = none) :
    (arena.put slot node).Represents
      { pool with blocks := pool.blocks.setIfInBounds slot node.toBlock } := by
  refine ⟨?_, ?_, h.head, h.tail, h.consumed⟩
  · rw [blocks_put, h.blocks]
  · intro other
    rw [next?_put (h.size_eq ▸ hsize), Pool.successor?_eq]
    by_cases ho : slot = other
    · subst ho
      simp [hnode, Pool.after?_of_notMem hslot]
    · rw [if_neg ho, h.next, Pool.successor?_eq]

theorem link_of_none (h : arena.head = none) :
    arena.link slot =
      .ok { arena with head := some slot, tail := some (arena.tail.getD slot) } := by
  simp [link, h, pure, Except.pure, bind, Except.bind]

theorem link_of_some {newest : Nat} (h : arena.head = some newest)
    (hnewest : newest < arena.nodes.size) :
    arena.link slot = .ok { arena.put newest (arena.nodes[newest].before slot) with
      head := some slot, tail := some (arena.tail.getD slot) } := by
  simp [link, h, node_eq hnewest, put, pure, Except.pure, bind, Except.bind]

/-- A block joins the chain behind the newest one, whose link now leads to it. -/
theorem Represents.link (h : arena.Represents pool) (hnodup : pool.chain.Nodup)
    (hrange : ∀ other ∈ pool.chain, other < pool.blocks.size) (hslot : slot ∉ pool.chain) :
    ∃ after, arena.link slot = .ok after ∧
      after.Represents { pool with chain := pool.chain ++ [slot] } := by
  have hafter := Pool.after?_append hnodup hslot
  cases hlast : pool.chain.getLast? with
  | none =>
    have hnil : pool.chain = [] := List.getLast?_eq_none_iff.1 hlast
    have htail : arena.tail = none := by rw [h.tail, Pool.oldest?, hnil, List.head?_nil]
    refine ⟨_, link_of_none (h.head.trans hlast), h.blocks, ?_, ?_, ?_, h.consumed⟩
    · intro other
      rw [Pool.successor?_eq, hafter, hlast, if_neg nofun, ← Pool.successor?_eq]
      exact h.next other
    · simp [Pool.newest?]
    · simp [Pool.oldest?, hnil, htail]
  | some newest =>
    have hmem : newest ∈ pool.chain := List.mem_of_getLast? hlast
    have hnewest : newest < arena.nodes.size := h.size_eq ▸ hrange newest hmem
    obtain ⟨oldest, rest, hchain⟩ := List.exists_cons_of_ne_nil (List.ne_nil_of_mem hmem)
    have htail : arena.tail = some oldest := by rw [h.tail, Pool.oldest?, hchain, List.head?_cons]
    refine ⟨_, link_of_some (h.head.trans hlast) hnewest, ?_, ?_, ?_, ?_, h.consumed⟩
    · exact (blocks_put_before hnewest slot).trans h.blocks
    · intro other
      refine (next?_put hnewest (arena.nodes[newest].before slot) other).trans ?_
      rw [Pool.successor?_eq, hafter, hlast, h.next, Pool.successor?_eq]
      simp [Node.before]
    · simp [Pool.newest?]
    · simp [Pool.oldest?, hchain, htail]

/-- Only a block that is not in use may take a buffer. -/
theorem Represents.intern (h : arena.Represents pool) (hw : pool.WellFormed)
    (hslot : slot ∉ pool.chain) (hsize : slot < pool.blocks.size) (buffer : Buffer) :
    ∃ after, arena.intern slot buffer = .ok after ∧
      after.Represents (pool.store slot buffer) := by
  have hnode := node_eq (h.size_eq.symm ▸ hsize)
  have hput (active : Bool) := h.put hslot hsize { buffer, active } rfl
  by_cases hactive : buffer.bytes.isEmpty = true
  · refine ⟨arena.put slot { buffer, active := false }, ?_, ?_⟩
    · simp [Arena.intern, hnode, hactive, bind, Except.bind, pure, Except.pure]
    · simpa [Pool.store, hactive] using hput false
  · obtain ⟨after, hlink, hafter⟩ := (hput true).link hw.nodup
      (fun other hother => by simpa using hw.lt_size hother) hslot
    refine ⟨after, ?_, ?_⟩
    · simpa [Arena.intern, hnode, hactive, bind, Except.bind] using hlink
    · simpa [Pool.store, hactive] using hafter

/-- Whatever was in the block before is lost. -/
theorem intern_put (node : Node) :
    (arena.put slot node).intern slot buffer = arena.intern slot buffer := by
  have hstored (stored : Node) : (arena.put slot node).put slot stored = arena.put slot stored := by
    simp [put]
  by_cases hslot : slot < arena.nodes.size
  · simp [intern, node_eq, hslot, hstored, bind, Except.bind]
  · simp [intern, Arena.node, put, hslot, bind, Except.bind]

theorem Represents.retire (h : arena.Represents pool) (hw : pool.WellFormed)
    (hslot : slot ∉ pool.chain) (hsize : slot < pool.blocks.size) (retired : Buffer)
    (carryFrom : Nat) :
    ∃ after, arena.retire slot retired carryFrom = .ok after ∧
      after.Represents (pool.retire slot retired carryFrom) := by
  obtain ⟨stored, hintern, hstored⟩ :=
    h.intern hw hslot hsize { retired with bytes := retired.bytes.take carryFrom }
  obtain ⟨after, hdrain, hafter⟩ := hstored.drain (hw.store hslot hsize)
  refine ⟨after, ?_, hafter⟩
  rw [Arena.retire, hintern]
  exact hdrain

end Intern

/-- A checked result is the plain one: both come to related values, or to the same fault. -/
inductive Outcome {α β : Type} (R : α → β → Prop) : Checked α → Except Fault β → Prop where
  | ok {a : α} {b : β} (h : R a b) : Outcome R (.ok a) (.ok b)
  | fault (fault : Fault) : Outcome R (.error (.fault fault)) (.error fault)

theorem Represents.reusable?_eq (h : arena.Represents pool) (needed : Nat) :
    arena.reusable? needed = pool.reusable? needed := by
  rw [Pool.reusable?, ← h.blocks, Array.toList_map, List.findIdx?_map]
  rfl

theorem Represents.grown (h : arena.Represents pool) :
    Represents { arena with nodes := arena.nodes.push {} } pool.grown := by
  refine ⟨?_, ?_, h.head, h.tail, h.consumed⟩
  · simp [Pool.grown, h.blocks]
  · intro slot
    refine Eq.trans ?_ (h.next slot)
    by_cases hslot : slot = arena.nodes.size
    · simp [next?, hslot]
    · simp [next?, Array.getElem?_push, hslot]

section Exchange

variable {retired : Buffer} {carryFrom needed : Nat}

/-- An exchange comes to the same buffer as that of the pool, and to the links of its pool. -/
abbrev SameExchange : Checked (Buffer × Arena) → Except Fault (Buffer × Pool) → Prop :=
  Outcome fun p q => p.1 = q.1 ∧ p.2.Represents q.2

theorem Represents.replace_claimed (h : arena.Represents pool) (hw : pool.WellFormed)
    (hstart : carryFrom ≤ retired.size) {slot : Nat} (hreuse : pool.reusable? needed = some slot) :
    SameExchange (arena.replace retired carryFrom needed)
      (.ok (⟨retired.bytes.drop carryFrom, (pool.bufferAt slot).capacity⟩,
        pool.retire slot retired carryFrom)) := by
  have hsize := (Pool.reusable?_some hreuse).1
  have hsize' : slot < arena.nodes.size := h.size_eq ▸ hsize
  have hblock : pool.blocks[slot]? = some arena.nodes[slot].toBlock := by
    rw [← h.blocks, Array.getElem?_map, Array.getElem?_eq_getElem hsize']
    rfl
  have hcapacity : (pool.bufferAt slot).capacity = arena.nodes[slot].buffer.capacity := by
    rw [Pool.bufferAt, hblock]
    rfl
  obtain ⟨after, hretire, hafter⟩ :=
    h.retire hw (hw.notMem_of_reusable? hreuse) hsize retired carryFrom
  have hvacated (node : Node) :
      (arena.put slot node).retire slot retired carryFrom = .ok after := by
    rw [← hretire, Arena.retire, Arena.retire, intern_put]
  simp only [Arena.replace, Pool.slice_carried hstart, h.reusable?_eq, hreuse, node_eq hsize',
    hvacated, hcapacity, bind, Except.bind]
  exact .ok ⟨rfl, hafter⟩

theorem Represents.inPlace_iff (h : arena.Represents pool) :
    (arena.tail.isNone ∧ carryFrom ≤ arena.consumed ∧ needed ≤ retired.capacity) ↔
      pool.chain.isEmpty ∧ carryFrom ≤ pool.consumed ∧ needed ≤ retired.capacity := by
  rw [h.tail, h.consumed, Pool.oldest?]
  simp

theorem Represents.replace_inPlace (h : arena.Represents pool) (hstart : carryFrom ≤ retired.size)
    (hreuse : pool.reusable? needed = none)
    (hplace : pool.chain.isEmpty ∧ carryFrom ≤ pool.consumed ∧ needed ≤ retired.capacity) :
    SameExchange (arena.replace retired carryFrom needed)
      (.ok (⟨retired.bytes.drop carryFrom, retired.capacity⟩,
        { pool with consumed := pool.consumed - carryFrom })) := by
  have hplace' := h.inPlace_iff.2 hplace
  simp only [Arena.replace, Pool.slice_carried hstart, h.reusable?_eq, hreuse, if_pos hplace',
    Checked.sub_eq hplace'.2.1, bind, Except.bind]
  exact .ok ⟨rfl, h.blocks, h.next, h.head, h.tail, congrArg (· - carryFrom) h.consumed⟩

theorem Represents.replace_fresh (h : arena.Represents pool) (hw : pool.WellFormed)
    (hstart : carryFrom ≤ retired.size) (hreuse : pool.reusable? needed = none)
    (hplace : ¬(pool.chain.isEmpty ∧ carryFrom ≤ pool.consumed ∧ needed ≤ retired.capacity)) :
    SameExchange (arena.replace retired carryFrom needed)
      (if maxCapacity < needed then .error .capacity
      else .ok (⟨retired.bytes.drop carryFrom, needed⟩,
        pool.grown.retire pool.blocks.size retired carryFrom)) := by
  have hplace' := mt h.inPlace_iff.1 hplace
  simp only [Arena.replace, Pool.slice_carried hstart, h.reusable?_eq, hreuse, if_neg hplace', bind,
    Except.bind]
  by_cases hmax : maxCapacity < needed
  · rw [if_pos hmax, require, if_neg (Nat.not_le.2 hmax)]
    exact .fault _
  · obtain ⟨after, hretire, hafter⟩ :=
      h.grown.retire hw.grown hw.size_notMem_grown Pool.size_lt_grown retired carryFrom
    rw [← h.size_eq] at hretire
    rw [if_neg hmax, Checked.require_eq (Nat.le_of_not_lt hmax)]
    simp only [hretire]
    exact .ok ⟨rfl, hafter⟩

theorem Represents.exchange (h : arena.Represents pool) (hw : pool.WellFormed) (retired : Buffer)
    (carryFrom needed : Nat) :
    SameExchange (arena.exchange retired carryFrom needed)
      (pool.exchange retired carryFrom needed).2 := by
  have hlength : (retired.bytes.drop carryFrom).length = retired.size - carryFrom :=
    List.length_drop
  by_cases hstart : carryFrom ≤ retired.size
  · simp only [Arena.exchange, Checked.require_eq hstart, Checked.sub_eq hstart, bind, Except.bind]
    by_cases hfits : retired.size - carryFrom ≤ needed
    · rw [Checked.require_eq hfits, Pool.exchange_eq hstart (hlength ▸ hfits), Pool.storageFor]
      cases hreuse : pool.reusable? needed with
      | some slot => exact h.replace_claimed hw hstart hreuse
      | none =>
        by_cases hplace :
            pool.chain.isEmpty ∧ carryFrom ≤ pool.consumed ∧ needed ≤ retired.capacity
        · simpa only [if_pos hplace] using h.replace_inPlace hstart hreuse hplace
        · simpa only [if_neg hplace] using h.replace_fresh hw hstart hreuse hplace
    · have hlong : needed < (retired.bytes.drop carryFrom).length := by omega
      simp only [require, if_neg hfits, Pool.exchange, if_neg (Nat.not_lt.2 hstart), if_pos hlong]
      exact .fault _
  · simp only [Arena.exchange, require, if_neg hstart, Pool.exchange,
      if_pos (Nat.lt_of_not_le hstart), bind, Except.bind]
    exact .fault _

end Exchange

end Arena
end StreamCursor
