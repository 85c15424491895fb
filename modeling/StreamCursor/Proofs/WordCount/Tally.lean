import Mathlib.Data.List.Dedup
import StreamCursor.WordCount

/-! Tallies of words. Main statement: a tally holds each of the words with the number of its
occurrences, and ranking it puts frequent words first and equally frequent ones in their order. -/

namespace StreamCursor.Tally

/-- The tally holds just the words of the list, in ascending order, each with its count. -/
structure Counts (tally : Tally) (words : List String) : Prop where
  ascending : tally.Pairwise (·.1 < ·.1)
  mem_iff : ∀ w n, (w, n) ∈ tally ↔ w ∈ words ∧ n = words.count w

variable {tally : Tally} {words : List String} {word : String}

theorem counts_nil : Counts [] [] :=
  ⟨.nil, by simp⟩

theorem Counts.perm {others : List String} (h : tally.Counts words) (hperm : words.Perm others) :
    tally.Counts others := by
  refine ⟨h.ascending, fun w n => ?_⟩
  rw [h.mem_iff, hperm.mem_iff, hperm.count_eq]

theorem Counts.key_mem (h : tally.Counts words) {entry : String × Nat} (hentry : entry ∈ tally) :
    entry.1 ∈ words :=
  ((h.mem_iff entry.1 entry.2).1 hentry).1

theorem Counts.again {n : Nat} (h : Counts ((word, n) :: tally) words) :
    Counts ((word, n + 1) :: tally) (word :: words) := by
  obtain ⟨hfirst, hrest⟩ := List.pairwise_cons.1 h.ascending
  have hcount : n = words.count word := ((h.mem_iff word n).1 (List.mem_cons_self ..)).2
  refine ⟨List.pairwise_cons.2 ⟨hfirst, hrest⟩, fun w k => ?_⟩
  by_cases hw : w = word
  · subst hw
    have hnot : (w, k) ∉ tally := fun hk => String.lt_irrefl w (hfirst _ hk)
    simp [hnot, hcount]
  · have hmem := h.mem_iff w k
    simp only [List.mem_cons, Prod.mk.injEq, hw, false_and, false_or] at hmem ⊢
    rw [hmem, List.count_cons_of_ne (Ne.symm hw)]

/-- A word that is less than all so far goes to the front. -/
theorem Counts.first (h : tally.Counts words) (hle : ∀ w ∈ words, word ≤ w) (hnew : word ∉ words) :
    Counts ((word, 1) :: tally) (word :: words) := by
  have hlt (entry : String × Nat) (hentry : entry ∈ tally) : word < entry.1 := by
    have hkey := h.key_mem hentry
    apply String.not_le.1
    intro hge
    rw [String.le_antisymm (hle _ hkey) hge] at hnew
    exact hnew hkey
  refine ⟨List.pairwise_cons.2 ⟨hlt, h.ascending⟩, fun w k => ?_⟩
  by_cases hw : w = word
  · subst hw
    have hnot : (w, k) ∉ tally := fun hk => hnew (h.key_mem hk)
    simp [hnot, List.count_eq_zero_of_not_mem hnew]
  · have hmem := h.mem_iff w k
    simp only [List.mem_cons, Prod.mk.injEq, hw, false_and, false_or]
    rw [hmem, List.count_cons_of_ne (Ne.symm hw)]

theorem Counts.prepend (h : tally.Counts words) (hle : ∀ w ∈ words, word ≤ w) :
    (prepend word tally).Counts (word :: words) := by
  cases tally with
  | nil =>
    apply h.first hle
    intro hword
    cases (h.mem_iff word (words.count word)).2 ⟨hword, rfl⟩
  | cons entry tally =>
    obtain ⟨other, n⟩ := entry
    obtain ⟨hfirst, -⟩ := List.pairwise_cons.1 h.ascending
    rw [Tally.prepend]
    split
    next heq =>
      subst heq
      exact h.again
    next hne =>
      apply h.first hle
      intro hword
      have hmem := (h.mem_iff word (words.count word)).2 ⟨hword, rfl⟩
      rcases List.mem_cons.1 hmem with heq | htail
      · exact hne (Prod.mk.inj heq).1
      · have hother : other ∈ words := h.key_mem (List.mem_cons_self ..)
        exact String.not_le.2 (hfirst _ htail) (hle other hother)

theorem pairwise_sort (words : List String) : (words.mergeSort (· ≤ ·)).Pairwise (· ≤ ·) := by
  have hsort : (words.mergeSort (· ≤ ·)).Pairwise fun a b => decide (a ≤ b) := by
    apply List.pairwise_mergeSort
    · intro a b c hab hbc
      rw [decide_eq_true_eq] at *
      exact String.le_trans hab hbc
    · intro a b
      rw [Bool.or_eq_true, decide_eq_true_eq, decide_eq_true_eq]
      exact String.le_total a b
  exact hsort.imp of_decide_eq_true

theorem counts_foldr_prepend (hsorted : words.Pairwise (· ≤ ·)) :
    Counts (words.foldr Tally.prepend []) words := by
  induction words with
  | nil => exact counts_nil
  | cons word words ih =>
    rw [List.pairwise_cons] at hsorted
    exact (ih hsorted.2).prepend hsorted.1

theorem counts_ofWords (words : List String) : (ofWords words).Counts words :=
  (counts_foldr_prepend (pairwise_sort words)).perm (List.mergeSort_perm ..)

/-- The first entry has the greater count, or the lesser word of two that are equally frequent. -/
def Precedes (a b : String × Nat) : Prop := b.2 < a.2 ∨ a.2 = b.2 ∧ a.1 < b.1

/-- Of two entries with different words, which is ranked before the other. -/
theorem ranksBefore_iff {a b : String × Nat} (hne : a.1 ≠ b.1) :
    ranksBefore a b ↔ Precedes a b := by
  have hle : a.1 ≤ b.1 ↔ a.1 < b.1 := by
    constructor
    · intro hle
      apply String.not_le.1
      intro hge
      exact hne (String.le_antisymm hle hge)
    · intro hlt hgt
      exact String.lt_asymm hlt hgt
  simp [ranksBefore, Precedes, hle]

theorem ranksBefore_trans (a b c : String × Nat) (hab : ranksBefore a b) (hbc : ranksBefore b c) :
    ranksBefore a c := by
  simp only [ranksBefore, Bool.or_eq_true, Bool.and_eq_true, decide_eq_true_eq] at *
  rcases hab with hab | ⟨hab, hab'⟩
  · exact .inl (by omega)
  · rcases hbc with hbc | ⟨hbc, hbc'⟩
    · exact .inl (by omega)
    · exact .inr ⟨hab.trans hbc, String.le_trans hab' hbc'⟩

theorem ranksBefore_total (a b : String × Nat) : ranksBefore a b || ranksBefore b a := by
  have htotal := String.le_total a.1 b.1
  simp only [ranksBefore, Bool.or_eq_true, Bool.and_eq_true, decide_eq_true_eq]
  rcases Nat.lt_trichotomy a.2 b.2 with h | h | h
  · exact .inr (.inl h)
  · rcases htotal with hle | hle
    · exact .inl (.inr ⟨h, hle⟩)
    · exact .inr (.inr ⟨h.symm, hle⟩)
  · exact .inl (.inl h)

/-- The ranking holds just the words of the list, each with its count, and has them in its order. -/
structure Ranks (ranked : Tally) (words : List String) : Prop where
  ordered : ranked.Pairwise Precedes
  mem_iff : ∀ w n, (w, n) ∈ ranked ↔ w ∈ words ∧ n = words.count w
  total_eq : ranked.total = words.length
  length_eq : ranked.length = words.dedup.length

theorem Precedes.asymm {a b : String × Nat} (h : Precedes a b) : ¬ Precedes b a := by
  rintro (hlt | ⟨heq, hword⟩)
  · rcases h with h | ⟨h, -⟩ <;> omega
  · rcases h with h | ⟨-, h⟩
    · omega
    · exact String.lt_asymm h hword

/-- There is one ranking only. -/
theorem Ranks.eq {ranked others : Tally} (h : ranked.Ranks words) (h' : others.Ranks words) :
    ranked = others := by
  have hnodup {ranked : Tally} (h : ranked.Ranks words) : ranked.Nodup :=
    h.ordered.imp fun hab heq => by
      rw [heq] at hab
      exact hab.asymm hab
  have hperm : ranked.Perm others := by
    apply (List.perm_ext_iff_of_nodup (hnodup h) (hnodup h')).2
    rintro ⟨w, n⟩
    rw [h.mem_iff, h'.mem_iff]
  apply List.Perm.eq_of_pairwise ?_ h.ordered h'.ordered hperm
  intro a b _ _ hab hba
  exact absurd hba hab.asymm

theorem Counts.length_eq (h : tally.Counts words) : tally.length = words.dedup.length := by
  have hnodup : (tally.map (·.1)).Nodup := by
    apply List.pairwise_map.2
    exact h.ascending.imp String.ne_of_lt
  have hkeys : (tally.map (·.1)).Perm words.dedup := by
    apply (List.perm_ext_iff_of_nodup hnodup (List.nodup_dedup words)).2
    intro w
    rw [List.mem_dedup, List.mem_map]
    constructor
    · rintro ⟨entry, hentry, rfl⟩
      exact h.key_mem hentry
    · intro hw
      exact ⟨_, (h.mem_iff w _).2 ⟨hw, rfl⟩, rfl⟩
  rw [← hkeys.length_eq, List.length_map]

theorem ranks_ofWords {others : List String} (hwords : words.Perm others) :
    Ranks ((ofWords words).mergeSort ranksBefore) others := by
  have hcounts := (counts_ofWords words).perm hwords
  have hperm := List.mergeSort_perm (ofWords words) ranksBefore
  have hsorted := List.pairwise_mergeSort ranksBefore_trans ranksBefore_total (ofWords words)
  have hdistinct : ((ofWords words).mergeSort ranksBefore).Pairwise fun a b => a.1 ≠ b.1 := by
    have hne := hcounts.ascending.imp String.ne_of_lt
    exact hperm.symm.pairwise hne fun h => h.symm
  constructor
  · exact (hsorted.and hdistinct).imp fun h => (ranksBefore_iff h.2).1 h.1
  · intro w n
    rw [List.mem_mergeSort]
    exact hcounts.mem_iff w n
  · rw [← hwords.length_eq, ← total_ofWords words]
    exact (hperm.map _).sum_nat
  · rw [hperm.length_eq]
    exact hcounts.length_eq

end StreamCursor.Tally
