import StreamCursor.Ascii
import StreamCursor.Cursor.Scan
import StreamCursor.Text.Lowercase

/-! Counting lines and words of a stream, and how often each word occurs. A word is a longest run
of bytes that are not ASCII space; words that differ in case only are the same. -/

namespace StreamCursor

/-- Words with the number of their occurrences, in ascending order. -/
abbrev Tally := List (String × Nat)

namespace Tally

/-- One more occurrence of a word that no word of the tally precedes. -/
def prepend (word : String) : Tally → Tally
  | [] => [(word, 1)]
  | (other, n) :: tally =>
      if word = other then (other, n + 1) :: tally else (word, 1) :: (other, n) :: tally

/-- Sorting brings equal words together. -/
def ofWords (words : List String) : Tally := (words.mergeSort (· ≤ ·)).foldr prepend []

def total (tally : Tally) : Nat := (tally.map (·.2)).sum

/-- Frequent words come first, and of equally frequent ones the lesser. -/
def ranksBefore (a b : String × Nat) : Bool := b.2 < a.2 || (a.2 = b.2 && a.1 ≤ b.1)

def top (tally : Tally) (n : Nat) : Tally := (tally.mergeSort ranksBefore).take n

theorem total_prepend (word : String) (tally : Tally) :
    (prepend word tally).total = tally.total + 1 := by
  cases tally with
  | nil => rfl
  | cons entry tally =>
    simp only [prepend, total]
    split <;> simp only [List.map_cons, List.sum_cons] <;> omega

theorem total_ofWords (words : List String) : (ofWords words).total = words.length := by
  have h (sorted : List String) : (total (sorted.foldr prepend [])) = sorted.length := by
    induction sorted with
    | nil => rfl
    | cons word sorted ih => rw [List.foldr_cons, total_prepend, ih, List.length_cons]
  rw [ofWords, h, List.length_mergeSort]

end Tally

structure WordCount where
  lines : Nat := 0
  /-- The words met, the latest first. -/
  words : List String := []
  /-- Where and why reading failed, if it did. -/
  failure : Option (Nat × StreamEnd) := none

namespace WordCount

/-- What a run of the command shows. -/
structure Output where
  code : Nat
  stdout : String
  stderr : String
  deriving DecidableEq

variable {σ : Type} [Source σ]

/-- How many lines end in the white space at the cursor, which is skipped. -/
def blank : Scan σ Nat := do
  let _ ← Scan.walkWhile Ascii.isSpace
  return (← Scan.take).count 0x0A

def word : Scan σ String := do
  let _ ← Scan.walkWhile (!Ascii.isSpace ·)
  return Text.lowercase (Text.lossy (← Scan.take))

/-- The end of the stream as a failure, unless it is an ordinary end. -/
def failure? : Scan σ (Option (Nat × StreamEnd)) := do
  match (← Scan.visibleEnd).filter (!·.isEof) with
  | none => return none
  | some cause => return some (← Scan.offset, cause)

/-- Counts on from `count`, over at most `limit` words. -/
def countWithin : (limit : Nat) → (count : WordCount) → Scan σ WordCount
  | 0, count => return count
  | limit + 1, count => do
      let lines := count.lines + (← blank)
      if (← Scan.peek 0) = 0 ∧ (← Scan.visibleEnd).isSome then
        return { count with lines, failure := ← failure? }
      let w ← word
      Scan.release
      countWithin limit { count with lines, words := w :: count.words }

/-- Counts to the end of the stream. Each word takes a byte at least, and no stream has more bytes
than the limit set here. -/
def count : Scan σ WordCount := countWithin maxCapacity {}

/-- The number in eight columns, or as many as it takes. -/
def inColumn (n : Nat) : String := String.ofList ((toString n).toList.leftpad 8 ' ')

def summary (lines : Nat) (tally : Tally) : String :=
  s!"{lines} lines, {tally.total} words, {tally.length} distinct"

def ranking (tally : Tally) : List String :=
  (tally.top 10).map fun (word, n) => inColumn n ++ " " ++ word

def warning : Option (Nat × StreamEnd) → String
  | none => ""
  | some (offset, cause) => s!"read failed at byte {offset}: {cause.text}\n"

def output (count : WordCount) : Output :=
  let tally := Tally.ofWords count.words
  { code := 0
    stdout := String.join ((summary count.lines tally :: ranking tally).map (· ++ "\n"))
    stderr := warning count.failure }

/-- Counts what a source delivers, through a buffer that holds a few words. -/
def run (source : σ) : Except Fault Output := do
  let cursor ← Cursor.ofSource source { bufferSize := 256 }
  let (counted, _) ← count.run cursor
  return counted.output

end WordCount
end StreamCursor
