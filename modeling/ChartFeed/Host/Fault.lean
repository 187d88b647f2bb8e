/-!
# Files that cannot be read

`FileFault` lists why a file has no text, `FileFault.message` words it.
-/

set_option autoImplicit false

namespace ChartFeed

/-- Why a file has no text. -/
inductive FileFault where
  | absent
  /-- There is a directory of this name. -/
  | directory
  /-- A part of the path that should be a directory is a file. -/
  | insideFile
  /-- The bytes of the file are not UTF-8. -/
  | notText
  /-- Something else, with the number and the words of the machine. -/
  | other (code : Nat) (text : String)
deriving DecidableEq

/-- The wording of a file fault. -/
def FileFault.message : FileFault → String
  | .absent => "No such file or directory (os error 2)"
  | .directory => "Is a directory (os error 21)"
  | .insideFile => "Not a directory (os error 20)"
  | .notText => "stream did not contain valid UTF-8"
  | .other code text => text ++ " (os error " ++ Nat.repr code ++ ")"

end ChartFeed
