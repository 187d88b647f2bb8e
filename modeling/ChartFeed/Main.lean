import ChartFeed.Command.Run
import Std.Time.DateTime.Timestamp

/-!
# The program

`main` runs `Command.run` on the machine.
-/

set_option autoImplicit false

namespace ChartFeed

/-- The number and the words for a failure. -/
def failureOf : IO.Error → Nat × String
  | .alreadyExists _ code text | .interrupted _ code text | .noFileOrDirectory _ code text
  | .invalidArgument _ code text | .permissionDenied _ code text | .resourceExhausted _ code text
  | .inappropriateType _ code text | .noSuchThing _ code text | .otherError code text
  | .resourceBusy code text | .resourceVanished code text | .unsupportedOperation code text
  | .hardwareFault code text | .unsatisfiedConstraints code text | .illegalOperation code text
  | .protocolError code text | .timeExpired code text => (code.toNat, text)
  | .unexpectedEof => (0, "unexpected end of file")
  | .userError text => (0, text)

/-- The number of a failure, which some calls give below zero. -/
def failureNumber (code : Nat) : Nat :=
  if code < 0x80000000 then code else 0x100000000 - code

/-- The file fault behind a failure. -/
def FileFault.ofFailure (e : IO.Error) : FileFault :=
  let (code, text) := failureOf e
  match failureNumber code with
  | 2 => .absent
  | 20 => .insideFile
  | 21 => .directory
  | number => .other number text.capitalize

/-- What is open; a directory cannot be read. -/
def entryOf (handle : IO.FS.Handle) : IO Entry := do
  try
    let _ ← handle.read 1
    return .file
  catch _ => return .directory

/-- What a path of the machine leads to. -/
def entryAt (path : String) : IO (Option Entry) := do
  try
    return some (← entryOf (← IO.FS.Handle.mk path .read))
  catch e =>
    match FileFault.ofFailure e with
    | .other _ _ => return some .file
    | _ => return none

/-- The text of a file of the machine. -/
def contentAt (path : String) : IO (Except FileFault String) := do
  try
    match String.fromUTF8? (← IO.FS.readBinFile path) with
    | some text => return .ok text
    | none => return .error .notText
  catch e => return .error (.ofFailure e)

/-- The time on the clock of the machine. -/
def clock : IO Instant := do
  let passed := (← Std.Time.Timestamp.now).val
  return ⟨passed.second.val, passed.nano.val.toNat⟩

/-- The machine. -/
def machine : Host IO where
  directory := do return (← IO.currentDir).toString
  valueOf? name := IO.getEnv name
  entry? := entryAt
  read := contentAt
  now := clock

end ChartFeed

/-- Runs the program on the machine. -/
def main (args : List String) : IO UInt32 := do
  let outcome ← ChartFeed.Command.run ChartFeed.machine args
  IO.print outcome.output
  IO.eprint outcome.errors
  return UInt32.ofNat outcome.exitCode
