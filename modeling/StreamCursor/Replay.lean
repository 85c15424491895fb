import StreamCursor.Cuts
import StreamCursor.Cursor.Scan
import StreamCursor.Source.InMemory
import StreamCursor.Source.Packets

/-! Replaying actions on a cursor beside two positions in a flat byte string. The cursor has to
show what the positions say, however the bytes arrive. -/

namespace StreamCursor

inductive Action where
  | peek (n : Nat)
  | codePoint (n : Nat)
  | advance (n : Nat)
  | back (n : Nat)
  | mark
  /-- Back to the mark, if one was set since the last commitment. -/
  | rewind
  | take
  | commit
  | release
  deriving DecidableEq

/-- A cursor over a flat byte string: where the token starts, where the cursor is, and how much
was committed and reported. -/
structure Flat where
  start : Nat := 0
  position : Nat := 0
  mark : Option Nat := none
  committed : Nat := 0
  reported : Nat := 0
  deriving DecidableEq

def Flat.commit (flat : Flat) : Flat :=
  { flat with
    start := flat.position
    mark := none
    committed := flat.committed + (flat.position - flat.start) }

/-- How a cursor may differ from the flat byte string. -/
inductive Discrepancy where
  | byte (found expected : UInt8)
  | width (found : Nat)
  | bytes (found expected : Bytes)
  | number (found expected : Nat)
  /-- The flat positions do not lie in the byte string. -/
  | range (start stop size : Nat)
  | buffer (fault : Fault)
  deriving DecidableEq

namespace Discrepancy

def message : Discrepancy → String
  | byte found expected => s!"saw byte {found.toNat} instead of {expected.toNat}"
  | width found => s!"read a code point of {found} bytes"
  | bytes found expected => s!"saw {Text.byteList found} instead of {Text.byteList expected}"
  | number found expected => s!"counted {found} instead of {expected}"
  | range start stop size => s!"no bytes from {start} to {stop} in a string of {size}"
  | buffer fault => fault.message

end Discrepancy

structure Replay (σ : Type) where
  cursor : Cursor σ
  flat : Flat := {}

/-- A program over both. What happened before a discrepancy stays in the journal. -/
abbrev Check (σ : Type) := ExceptT Discrepancy (StateM (Replay σ))

namespace Replay

variable {σ : Type}

def scan {α : Type} (s : Scan σ α) : Check σ α := do
  let replay ← get
  match s replay.cursor with
  | .ok (a, cursor) =>
      set { replay with cursor }
      return a
  | .error fault => throw (.buffer fault)

def changeFlat (f : Flat → Flat) : Check σ Unit :=
  modify fun replay => { replay with flat := f replay.flat }

def expectBytes (found expected : Bytes) : Check σ Unit :=
  if found = expected then pure () else throw (.bytes found expected)

def expectNumber (found expected : Nat) : Check σ Unit :=
  if found = expected then pure () else throw (.number found expected)

/-- The bytes between the flat positions. -/
def flatToken (data : Bytes) : Check σ Bytes := do
  let flat := (← get).flat
  match data.slice? flat.start flat.position with
  | some bytes => return bytes
  | none => throw (.range flat.start flat.position data.length)

variable [Source σ]

def perform (data : Bytes) : Action → Check σ Unit
  | .peek n => do
      let expected := data[(← get).flat.position + n]?.getD 0
      let found ← scan (Scan.peek n)
      if found ≠ expected then throw (.byte found expected)
  | .codePoint n => do
      let width := (← scan (Scan.peekCodePoint n)).width
      if width = 0 ∨ 4 < width then throw (.width width)
  | .advance n => do
      let moved ← scan (Scan.stride n)
      changeFlat fun flat => { flat with position := flat.position + moved }
  | .back n => do
      scan (Scan.move (-n))
      changeFlat fun flat => { flat with position := max (flat.position - n) flat.start }
  | .mark => do
      let mark := (← get).cursor.mark
      changeFlat fun flat => { flat with mark := some mark }
  | .rewind => do
      if let some mark := (← get).flat.mark then
        scan (modify (·.rewind mark))
        changeFlat fun flat => { flat with position := flat.start + mark }
  | .take => do
      let found ← scan Scan.take
      expectBytes found (← flatToken data)
      changeFlat Flat.commit
  | .commit => do
      scan Scan.commit
      changeFlat Flat.commit
  | .release => do
      let n ← scan (modifyGet (·.report))
      changeFlat fun flat => { flat with reported := flat.reported + n }
      scan (modify (·.consume n))
      let flat := (← get).flat
      expectNumber flat.reported flat.committed

/-- The cursor stands where the flat positions are and sees the same token. -/
def compare (data : Bytes) : Check σ Unit := do
  let replay ← get
  expectBytes replay.cursor.token (← flatToken data)
  expectNumber replay.cursor.offset replay.flat.position
  expectNumber replay.cursor.tokenOffset replay.flat.start

/-- Compares after every action. In the end all that was committed is released, and no block of
the pool may be in use. -/
def check (data : Bytes) (actions : List Action) : Check σ Unit := do
  actions.forM fun action => do
    perform data action
    compare data
  scan Scan.release
  expectNumber (← get).cursor.pool.occupancy.inFlight 0

/-- What the cursor reported of a replay, and whether it passed. -/
def run (data : Bytes) (actions : List Action) (opened : Except Fault (Cursor σ)) :
    List Event × Except Discrepancy Unit :=
  match opened with
  | .ok cursor =>
      let (verdict, replay) := (check data actions).run.run { cursor }
      (replay.cursor.journal.reverse, verdict)
  | .error fault => ([], .error (.buffer fault))

end Replay

/-- A replay with all that it depends on. -/
structure Trial where
  data : Bytes
  /-- Where the data is cut into packets, unless the cursor takes it over whole. -/
  cuts : Bytes
  options : Options
  actions : List Action

def Trial.run (trial : Trial) : List Event × Except Discrepancy Unit :=
  if trial.options.adopt then
    Replay.run trial.data trial.actions (Cursor.ofSource trial.data trial.options)
  else
    Replay.run trial.data trial.actions
      (Cursor.ofSource (Packets.ofList (trial.data.cutBy trial.cuts)) trial.options)

end StreamCursor
