import StreamCursor.Proofs.Opening
import StreamCursor.Proofs.Reading
import StreamCursor.Proofs.Source.Retrying
import StreamCursor.Proofs.WordCount.Tally

/-! Counting what a stream holds. Main statement: whatever the pieces in which the bytes come, the
command counts all their lines and words and shows the most frequent ones. -/

namespace StreamCursor.WordCount

/-- The longest runs of bytes that are not space. -/
def runs (bytes : Bytes) : List Bytes := (bytes.splitOnP Ascii.isSpace).filter (!·.isEmpty)

/-- The words of the bytes, in their order. -/
def wordsOf (bytes : Bytes) : List String :=
  (runs bytes).map fun run => Text.lowercase (Text.lossy run)

theorem runs_space_cons {b : UInt8} (hb : Ascii.isSpace b) (bytes : Bytes) :
    runs (b :: bytes) = runs bytes := by
  rw [runs, List.splitOnP_cons_eq_if_modifyHead, if_pos hb]
  rfl

theorem runs_dropWhile (bytes : Bytes) : runs (bytes.dropWhile Ascii.isSpace) = runs bytes := by
  induction bytes with
  | nil => rfl
  | cons b bytes ih =>
    cases hb : Ascii.isSpace b with
    | true => rw [List.dropWhile_cons_of_pos hb, runs_space_cons hb, ih]
    | false => simp [hb]

theorem runs_append {run rest : Bytes} (hrun : ∀ b ∈ run, Ascii.isSpace b = false) (hne : run ≠ [])
    (hrest : ∀ b ∈ rest.head?, Ascii.isSpace b) : runs (run ++ rest) = run :: runs rest := by
  cases rest with
  | nil =>
    rw [List.append_nil, runs, List.splitOnP_eq_singleton hrun]
    simp [hne, runs]
  | cons b rest =>
    have hb := hrest b rfl
    rw [runs_space_cons hb, runs, List.splitOnP_append_cons_of_forall_mem hrun b hb]
    simp [hne, runs]

theorem not_isSpace_of_mem_takeWhile {b : UInt8} {bytes : Bytes}
    (hb : b ∈ bytes.takeWhile (!Ascii.isSpace ·)) : Ascii.isSpace b = false := by
  have hall := List.all_eq_true.1 List.all_takeWhile b hb
  rwa [Bool.not_eq_true'] at hall

theorem isSpace_of_head?_dropWhile {b : UInt8} {bytes : Bytes}
    (hb : b ∈ (bytes.dropWhile (!Ascii.isSpace ·)).head?) : Ascii.isSpace b := by
  have hhead := List.head?_dropWhile_not (!Ascii.isSpace ·) bytes
  rw [Option.mem_def.1 hb] at hhead
  simpa using hhead

/-- The first run goes as far as there is no space. -/
theorem runs_eq_cons {bytes more : Bytes} {b : UInt8}
    (h : bytes.dropWhile Ascii.isSpace = b :: more) (hb : Ascii.isSpace b = false) :
    runs bytes = (b :: more).takeWhile (!Ascii.isSpace ·) ::
      runs ((b :: more).dropWhile (!Ascii.isSpace ·)) := by
  have hsplit : (b :: more).takeWhile (!Ascii.isSpace ·) ++
      (b :: more).dropWhile (!Ascii.isSpace ·) = b :: more := List.takeWhile_append_dropWhile
  have hne : (b :: more).takeWhile (!Ascii.isSpace ·) ≠ [] := by simp [hb]
  rw [← runs_append (fun _ => not_isSpace_of_mem_takeWhile) hne
    (fun _ => isSpace_of_head?_dropWhile), hsplit, ← h, runs_dropWhile]

/-- A word has no line end in it. -/
theorem count_lines_dropWhile (bytes : Bytes) :
    (bytes.dropWhile (!Ascii.isSpace ·)).count 0x0A = bytes.count 0x0A := by
  have hword : (bytes.takeWhile (!Ascii.isSpace ·)).count 0x0A = 0 := by
    apply List.count_eq_zero_of_not_mem
    intro hmem
    cases not_isSpace_of_mem_takeWhile hmem
  have hsplit : (bytes.takeWhile (!Ascii.isSpace ·) ++
      bytes.dropWhile (!Ascii.isSpace ·)).count 0x0A = bytes.count 0x0A := by
    rw [List.takeWhile_append_dropWhile]
  rwa [List.count_append, hword, Nat.zero_add] at hsplit

variable {σ : Type} [Source σ] {d : Delivery σ} {rest more : Bytes} {seen : Nat}

theorem blank_yields :
    Yields (d.Fresh rest seen) blank ((rest.takeWhile Ascii.isSpace).count 0x0A)
      (d.Fresh (rest.dropWhile Ascii.isSpace) 1) :=
  .bind (Scan.walkWhile_yields _) (.map Scan.take_yields (List.count 0x0A))

theorem word_yields :
    Yields (d.Fresh rest seen) word
      (Text.lowercase (Text.lossy (rest.takeWhile (!Ascii.isSpace ·))))
      (d.Fresh (rest.dropWhile (!Ascii.isSpace ·)) 1) :=
  .bind (Scan.walkWhile_yields _) (.map Scan.take_yields fun run => Text.lowercase (Text.lossy run))

/-- An ordinary end is no failure. -/
theorem failure?_yields (hcause : d.cause = .eof) :
    Yields (d.Fresh [] 1) failure? none (d.Fresh [] 1) := by
  apply Yields.bind (Scan.visibleEnd_yields Nat.one_pos)
  rw [if_pos rfl, hcause]
  exact .pure fun _ hc => hc

/-- The count with what is in `bytes`, which an ordinary end is behind. -/
def adding (count : WordCount) (bytes : Bytes) : WordCount where
  lines := count.lines + bytes.count 0x0A
  words := (wordsOf bytes).reverse ++ count.words
  failure := none

theorem adding_of_blank (count : WordCount) {bytes : Bytes}
    (h : bytes.dropWhile Ascii.isSpace = []) :
    count.adding bytes =
      ⟨count.lines + (bytes.takeWhile Ascii.isSpace).count 0x0A, count.words, none⟩ := by
  have hsplit : bytes.takeWhile Ascii.isSpace ++ bytes.dropWhile Ascii.isSpace = bytes :=
    List.takeWhile_append_dropWhile
  have hwords : wordsOf bytes = [] := by
    rw [wordsOf, ← runs_dropWhile, h]
    rfl
  rw [h, List.append_nil] at hsplit
  rw [adding, hsplit, hwords]
  rfl

theorem adding_of_word (count : WordCount) {bytes more : Bytes} {b : UInt8}
    (h : bytes.dropWhile Ascii.isSpace = b :: more) (hb : Ascii.isSpace b = false) :
    count.adding bytes =
      adding
        { count with
          lines := count.lines + (bytes.takeWhile Ascii.isSpace).count 0x0A
          words := Text.lowercase (Text.lossy ((b :: more).takeWhile (!Ascii.isSpace ·))) ::
            count.words }
        ((b :: more).dropWhile (!Ascii.isSpace ·)) := by
  have hlines : (bytes.takeWhile Ascii.isSpace ++ bytes.dropWhile Ascii.isSpace).count 0x0A =
      bytes.count 0x0A := by
    rw [List.takeWhile_append_dropWhile]
  rw [h, List.count_append] at hlines
  rw [adding, adding, count_lines_dropWhile, ← hlines, wordsOf, wordsOf, runs_eq_cons h hb]
  simp [Nat.add_assoc]

/-- Each round takes a byte at least, so that the limit has no part in where the loop stops. -/
theorem countWithin_yields (hcause : d.cause = .eof) {limit : Nat} (hlimit : rest.length < limit)
    (count : WordCount) :
    Yields (d.Fresh rest seen) (countWithin limit count) (count.adding rest) (d.Fresh [] 1) := by
  induction limit generalizing rest seen count with
  | zero => cases hlimit
  | succ limit ih =>
    have hblank := (List.dropWhile_suffix Ascii.isSpace (l := rest)).length_le
    apply Yields.bind blank_yields
    apply Yields.bind Scan.peek_zero_yields
    apply Yields.bind (Scan.visibleEnd_yields (Nat.le_max_right ..))
    cases hrest : rest.dropWhile Ascii.isSpace with
    | nil =>
      rw [adding_of_blank count hrest]
      exact .bind (failure?_yields hcause) (.pure fun _ hc => hc)
    | cons b more =>
      have hb : Ascii.isSpace b = false := by
        have hhead := List.head?_dropWhile_not Ascii.isSpace rest
        rwa [hrest] at hhead
      -- The word has its first byte at least, even if that is zero.
      have hword : ((b :: more).dropWhile (!Ascii.isSpace ·)).length < (b :: more).length := by
        simp only [List.dropWhile_cons, hb, Bool.not_false, if_true, List.length_cons]
        exact Nat.lt_succ_of_le (List.dropWhile_suffix _).length_le
      rw [hrest] at hblank
      rw [if_neg (by simp), adding_of_word count hrest hb]
      apply Yields.bind word_yields
      apply Yields.bind Scan.release_yields
      exact ih (by omega) _

/-- What the command shows of the bytes, if their words are ranked like this. -/
def shown (data : Bytes) (ranked : Tally) : Output where
  code := 0
  stdout :=
    let lines := data.count 0x0A
    let words := (wordsOf data).length
    let distinct := (wordsOf data).dedup.length
    String.join
      ((s!"{lines} lines, {words} words, {distinct} distinct" ::
        (ranked.take 10).map fun (word, n) => inColumn n ++ " " ++ word).map (· ++ "\n"))
  stderr := ""

theorem output_adding (data : Bytes) :
    ∃ ranked : Tally, ranked.Ranks (wordsOf data) ∧
      (adding {} data).output = shown data ranked := by
  have hwords : (adding {} data).words.Perm (wordsOf data) := by
    rw [adding, List.append_nil]
    exact List.reverse_perm _
  have hranks := Tally.ranks_ofWords hwords
  have hperm := List.mergeSort_perm (Tally.ofWords (adding {} data).words) Tally.ranksBefore
  have htotal : (Tally.ofWords (adding {} data).words).total = (wordsOf data).length := by
    rw [Tally.total_ofWords, hwords.length_eq]
  have hdistinct : (Tally.ofWords (adding {} data).words).length = (wordsOf data).dedup.length := by
    rw [← hranks.length_eq, hperm.length_eq]
  have hlines : (adding {} data).lines = data.count 0x0A := Nat.zero_add _
  refine ⟨_, hranks, ?_⟩
  rw [output, shown, summary, htotal, hdistinct, hlines]
  rfl

/-- Whatever the pieces in which the bytes come, and however often the device is interrupted, the
command counts all lines and words, and each word as often as it occurs. -/
theorem run_of_steady (device : Script) (calls : Nat) (hsteady : device.Steady)
    (hdata : device.left.length < maxCapacity) :
    ∃ ranked : Tally, ranked.Ranks (wordsOf device.left) ∧
      run (⟨device, calls⟩ : Retrying) = .ok (shown device.left ranked) ∧
      ∀ cursor, Cursor.ofSource (⟨device, calls⟩ : Retrying) { bufferSize := 256 } = .ok cursor →
        ∀ limit, device.left.length < limit →
          (countWithin limit {} cursor).map (·.1.output) = .ok (shown device.left ranked) := by
  obtain ⟨ranked, hranks, houtput⟩ := output_adding device.left
  have hfed : (Retrying.delivery device.left).Holds ⟨device, calls⟩ none [] :=
    .going hsteady (List.nil_append _)
  obtain ⟨hopens, hcounts⟩ := Delivery.opensTo hfed hdata { bufferSize := 256 }
    fun cursor hcursor limit (hlimit : device.left.length < limit) =>
      countWithin_yields rfl hlimit {} cursor hcursor
  have hshown (cursor : Cursor Retrying)
      (hopen : Cursor.ofSource (⟨device, calls⟩ : Retrying) { bufferSize := 256 } = .ok cursor)
      (limit : Nat) (hlimit : device.left.length < limit) :
      (countWithin limit {} cursor).map (·.1.output) = .ok (shown device.left ranked) := by
    obtain ⟨later, hrun, -⟩ := hcounts cursor hopen limit hlimit
    rw [hrun, ← houtput]
    rfl
  refine ⟨ranked, hranks, ?_, hshown⟩
  obtain ⟨cursor, hopen⟩ := hopens (by decide)
  obtain ⟨later, hrun, -⟩ := hcounts cursor hopen maxCapacity hdata
  have hcount : count.run cursor = .ok (adding {} device.left, later) := hrun
  rw [run, hopen, ← houtput]
  show (do let (counted, _) ← count.run cursor; return counted.output) = _
  rw [hcount]
  rfl

theorem run_of_steady_interrupted :
    run (⟨{ steps := [.data [0x62, 0x63, 0x0A], .data [0x61, 0x20, 0x42],
        .fail (.device ⟨.interrupted, none⟩), .data [0x43]], scribble := some 0xFF }, 0⟩ :
        Retrying) =
      .ok ⟨0, "1 lines, 3 words, 2 distinct\n       2 bc\n       1 a\n", ""⟩ := by
  have hwords : wordsOf [0x62, 0x63, 0x0A, 0x61, 0x20, 0x42, 0x43] = ["bc", "a", "bc"] := by
    decide +kernel
  have hranked : Tally.Ranks [("bc", 2), ("a", 1)] ["bc", "a", "bc"] := by
    refine ⟨by simp [Tally.Precedes], fun w n => ?_, rfl, by decide⟩
    by_cases hbc : w = "bc"
    · simp [hbc]
    · by_cases ha : w = "a"
      · simp [ha]
      · simp [hbc, ha]
  obtain ⟨ranked, hranks, hrun, -⟩ := run_of_steady
    { steps := [.data [0x62, 0x63, 0x0A], .data [0x61, 0x20, 0x42],
        .fail (.device ⟨.interrupted, none⟩), .data [0x43]], scribble := some 0xFF } 0
    (by simp [Script.Steady, ScriptStep.Steady, StreamEnd.isInterruption]) (by decide)
  change ranked.Ranks (wordsOf [0x62, 0x63, 0x0A, 0x61, 0x20, 0x42, 0x43]) at hranks
  rw [hwords] at hranks
  rw [hrun, hranks.eq hranked]
  decide +kernel

end StreamCursor.WordCount
