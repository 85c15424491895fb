import StreamCursor.Proofs.Linked.Agreement

/-! Where the links of a pool lead. Main statement: after any calls, following the links from the
oldest block visits the blocks in use, each once, and ends at the newest one, so that every loop
along them ends and no difference falls below zero. -/

namespace StreamCursor

theorem Pool.after?_of_split {before rest : List Nat} {slot : Nat} (h : slot ∉ before) :
    after? (before ++ slot :: rest) slot = rest.head? := by
  induction before with
  | nil => simp [after?]
  | cons first before ih =>
    rw [List.mem_cons, not_or] at h
    simp [after?, Ne.symm h.1, ih h.2]

namespace Pool.Accounts

variable {pool : Pool} {portions : List Bytes} {freed : Nat}

/-- An empty portion never joins the chain. -/
theorem bytes_ne_nil (h : pool.Accounts portions freed) {slot : Nat} (hslot : slot ∈ pool.chain) :
    (pool.bufferAt slot).bytes ≠ [] := by
  have hmem : (pool.bufferAt slot).bytes ∈ pool.segments := List.mem_map_of_mem hslot
  rw [h.segments_eq] at hmem
  obtain ⟨e, he, heq⟩ := List.mem_map.1 hmem
  have hkept := (List.mem_filter.1 he).2
  simp only [decide_eq_true_eq] at hkept
  exact heq ▸ hkept.1

end Pool.Accounts

namespace Arena

variable {arena : Arena} {pool : Pool}

namespace Represents

theorem follow_eq (h : arena.Represents pool) (hw : pool.WellFormed) {before rest : List Nat}
    {turns : Nat} (hchain : pool.chain = before ++ rest) (hturns : rest.length < turns) :
    arena.follow turns rest.head? = .ok rest := by
  induction rest generalizing before turns with
  | nil =>
    obtain ⟨turns, rfl⟩ := Nat.exists_eq_succ_of_ne_zero (Nat.ne_of_gt hturns)
    rfl
  | cons slot rest ih =>
    obtain ⟨turns, rfl⟩ := Nat.exists_eq_succ_of_ne_zero (Nat.ne_of_gt (Nat.zero_lt_of_lt hturns))
    have hmem : slot ∈ pool.chain := by simp [hchain]
    have hsize : slot < arena.nodes.size := h.size_eq ▸ hw.lt_size hmem
    have hnew : slot ∉ before := by
      intro hbefore
      have hnodup := hw.nodup
      rw [hchain, List.nodup_append] at hnodup
      exact hnodup.2.2 slot hbefore slot (List.mem_cons_self ..) rfl
    have hnext : arena.nodes[slot].next = rest.head? := by
      have hlink := h.next slot
      rw [Pool.successor?_eq, hchain, Pool.after?_of_split hnew] at hlink
      simpa [next?, hsize] using hlink
    have hsplit : pool.chain = (before ++ [slot]) ++ rest := by simp [hchain]
    have hrest := ih hsplit (Nat.lt_of_succ_lt_succ hturns)
    simp [follow, node_eq hsize, hnext, hrest, bind, Except.bind, pure, Except.pure]

theorem chain_eq (h : arena.Represents pool) (hw : pool.WellFormed) :
    arena.chain = .ok pool.chain := by
  have hlength := length_chain_le hw
  have hturns : pool.chain.length < arena.nodes.size + 1 := by
    rw [h.size_eq]
    omega
  rw [chain, h.tail, Pool.oldest?]
  exact h.follow_eq hw (List.nil_append _).symm hturns

theorem toBlock_eq (h : arena.Represents pool) {slot : Nat} {node : Node}
    (hnode : arena.nodes[slot]? = some node) : pool.blocks[slot]? = some node.toBlock := by
  rw [← h.blocks, Array.getElem?_map, hnode]
  rfl

theorem buffer_eq (h : arena.Represents pool) {slot : Nat} {node : Node}
    (hnode : arena.nodes[slot]? = some node) : pool.bufferAt slot = node.buffer := by
  rw [Pool.bufferAt, h.toBlock_eq hnode]
  rfl

/-- Counting the bytes that were not consumed never fails. -/
theorem occupancy_eq (h : arena.Represents pool) {portions : List Bytes} {freed : Nat}
    (ha : pool.Accounts portions freed) : arena.occupancy = .ok pool.occupancy := by
  have hsizes : (pool.chain.mapM fun slot => (·.buffer.size) <$> arena.node slot) =
      (.ok (pool.chain.map fun slot => (pool.bufferAt slot).size) : Checked (List Nat)) := by
    apply Checked.mapM_eq
    intro slot hslot
    have hsize : slot < arena.nodes.size := h.size_eq ▸ ha.lt_size hslot
    rw [node_eq hsize, h.buffer_eq (Array.getElem?_eq_getElem hsize)]
    rfl
  have hretained : arena.nodes.toList.map (·.buffer.capacity) =
      pool.blocks.toList.map (·.buffer.capacity) := by
    simp [← h.blocks]
  rw [occupancy, h.chain_eq ha.toWellFormed]
  simp only [hsizes, hretained, h.size_eq, h.tail, h.consumed, Pool.oldest?, bind, Except.bind]
  by_cases hchain : pool.chain = []
  · simp [Pool.occupancy, hchain, pure, Except.pure]
  · have hsub := Checked.sub_eq (ha.consumed_le hchain)
    simp [Pool.occupancy, hchain, hsub, pure, Except.pure]

end Represents

/-- The links lead through `chain`, and through nothing else. -/
structure Chained (arena : Arena) (chain : List Nat) : Prop where
  /-- Following the links from the oldest block comes to an end. -/
  chain_eq : arena.chain = .ok chain
  nodup : chain.Nodup
  lt_size : ∀ slot ∈ chain, slot < arena.nodes.size
  head?_eq : chain.head? = arena.tail
  getLast?_eq : chain.getLast? = arena.head
  ends : arena.head = none ↔ arena.tail = none
  mem_iff : ∀ (slot : Nat) (node : Node), arena.nodes[slot]? = some node →
    (slot ∈ chain ↔ node.active = true)
  bytes_ne_nil : ∀ slot ∈ chain, ∀ node : Node, arena.nodes[slot]? = some node →
    node.buffer.bytes ≠ []
  next_eq_none : ∀ (slot : Nat) (node : Node), arena.nodes[slot]? = some node →
    node.active = false → node.next = none
  consumed_lt : ∀ (slot : Nat) (node : Node), arena.tail = some slot →
    arena.nodes[slot]? = some node → arena.consumed < node.buffer.size

theorem Represents.mem_chain_iff (h : arena.Represents pool) (hw : pool.WellFormed) {slot : Nat}
    {node : Node} (hnode : arena.nodes[slot]? = some node) :
    slot ∈ pool.chain ↔ node.active = true := by
  rw [hw.mem_chain_iff, Pool.activeAt, h.toBlock_eq hnode]
  rfl

theorem Represents.chained (h : arena.Represents pool) {portions : List Bytes} {freed : Nat}
    (ha : pool.Accounts portions freed) : arena.Chained pool.chain where
  chain_eq := h.chain_eq ha.toWellFormed
  nodup := ha.nodup
  lt_size slot hslot := h.size_eq ▸ ha.lt_size hslot
  head?_eq := h.tail.symm
  getLast?_eq := h.head.symm
  ends := by
    rw [h.head, h.tail, Pool.newest?, Pool.oldest?, List.getLast?_eq_none_iff,
      List.head?_eq_none_iff]
  mem_iff slot node hnode := h.mem_chain_iff ha.toWellFormed hnode
  bytes_ne_nil slot hslot node hnode := h.buffer_eq hnode ▸ ha.bytes_ne_nil hslot
  next_eq_none slot node hnode hidle := by
    have hslot : slot ∉ pool.chain := by simp [h.mem_chain_iff ha.toWellFormed hnode, hidle]
    have hlink := h.next slot
    rw [Pool.successor?_eq, Pool.after?_of_notMem hslot] at hlink
    simpa [next?, hnode] using hlink
  consumed_lt slot node hslot hnode := by
    rw [h.tail, Pool.oldest?] at hslot
    obtain ⟨rest, hchain⟩ := List.head?_eq_some_iff.1 hslot
    rw [h.consumed, ← h.buffer_eq hnode]
    exact ha.consumed_lt hchain

theorem Outcome.links {p : Checked (Buffer × Arena)} {q : Except Fault (Buffer × Pool)}
    (h : SameExchange p q) : Outcome Represents ((·.2) <$> p) (q.map (·.2)) := by
  cases h with
  | ok h => exact .ok h.2
  | fault fault => exact .fault fault

theorem Represents.perform (h : arena.Represents pool) (hw : pool.WellFormed)
    (call : Pool.Call) :
    Outcome Represents (arena.perform call) (call.perform pool) := by
  cases call with
  | swap retired needed => exact (h.exchange hw retired retired.size needed).links
  | exchange retired carryFrom needed => exact (h.exchange hw retired carryFrom needed).links
  | consume n =>
    obtain ⟨after, hconsume, hafter⟩ := h.consume hw n
    rw [Arena.perform, hconsume]
    exact .ok hafter

theorem Represents.run (h : arena.Represents pool) {portions : List Bytes} {freed : Nat}
    (ha : pool.Accounts portions freed) (calls : List Pool.Call) :
    Outcome Represents (run calls arena) (Pool.run calls pool) := by
  induction calls generalizing arena pool portions freed with
  | nil => exact .ok h
  | cons call calls ih =>
    have hcall := h.perform ha.toWellFormed call
    rw [Arena.run, Pool.run, List.foldlM_cons, List.foldlM_cons]
    generalize hresult : call.perform pool = result at hcall ⊢
    generalize arena.perform call = checked at hcall ⊢
    cases hcall with
    | ok hnext => exact ih hnext (Pool.Call.perform_accounts ha hresult)
    | fault fault => exact .fault fault

/-- Calls on the links fail only as they fail on the pool, never because a link leads nowhere, a
loop does not end or a difference falls below zero. Where they succeed, the links lead from the
oldest block through the blocks in use, each once, to the newest. All of these hold bytes, the
oldest one some that were not consumed, and no other block names a next one. -/
theorem run_keeps_chain (calls : List Pool.Call) :
    (∃ fault, Pool.run calls = .error fault ∧ run calls = .error (.fault fault)) ∨
      ∃ pool arena, Pool.run calls = .ok pool ∧ run calls = .ok arena ∧
        arena.Represents pool ∧ arena.Chained pool.chain ∧
        arena.occupancy = .ok pool.occupancy := by
  have houtcome := represents_empty.run Pool.accounts_empty calls
  generalize hpool : Pool.run calls = result at houtcome
  generalize harena : run calls = checked at houtcome
  cases houtcome with
  | ok h =>
    have ha := Pool.accounts_run Pool.accounts_empty hpool
    exact .inr ⟨_, _, rfl, rfl, h, h.chained ha, h.occupancy_eq ha⟩
  | fault fault => exact .inl ⟨fault, rfl, rfl⟩

/-- The first block is claimed again while the second is in use, so that the chain leads back from
the second block to the first. -/
example : (run [.swap ⟨[1, 2], 4⟩ 4, .swap ⟨[3], 4⟩ 4, .consume 2, .swap ⟨[4, 5], 4⟩ 2] >>= chain) =
    .ok [1, 0] :=
  rfl

end Arena
end StreamCursor
