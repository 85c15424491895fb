import StreamCursor.Source.Retrying
import StreamCursor.WordCount

/-! The command: counts the words on its standard input. -/

namespace StreamCursor

/-- Reads the input to its end or to a failure that is no interruption, the last read first. -/
partial def readSteps (input : IO.FS.Stream) (steps : List ScriptStep) : IO (List ScriptStep) := do
  match ← (input.read 4096).toBaseIO with
  | .ok chunk =>
      if chunk.isEmpty then return steps
      else readSteps input (.data chunk.toList :: steps)
  | .error (.interrupted ..) => readSteps input steps
  | .error failure => return .fail (.device ⟨.other, some failure.toString⟩) :: steps

end StreamCursor

open StreamCursor

def main : IO UInt32 := do
  let steps ← readSteps (← IO.getStdin) []
  match WordCount.run (Retrying.mk { steps := steps.reverse } 0) with
  | .ok output =>
      IO.print output.stdout
      IO.eprint output.stderr
      return output.code.toUInt32
  | .error fault =>
      IO.eprintln fault.message
      return 101
