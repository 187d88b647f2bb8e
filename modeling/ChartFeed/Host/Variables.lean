import ChartFeed.Host.Basic
import ChartFeed.Text.Blank

/-!
# Files of variables

A file of variables holds lines such as `LIMIT=10`.  Values may be quoted, may go on over several
lines inside quotes, and may refer to other variables by a dollar sign.  What is set already stays
as it is.

* `Variables.lines` cuts a text into its logical lines;
* `Variables.readLine` reads one line;
* `Variables.load` finds the file in the current directory or above it and gives its variables.  It
  ends at the first line that cannot be read, and keeps what came before.
-/

set_option autoImplicit false

namespace ChartFeed.Variables

/-! ## Lines -/

/-- Where in a line the reader is. -/
inductive Place where
  | plain
  /-- Behind a blank, where a comment may begin. -/
  | blank
  | comment
  /-- Inside quotes of this kind. -/
  | quoted (quote : Char)
  /-- Behind a backslash, after which the reader is at the other place. -/
  | escaped (behind : Option Char)
deriving DecidableEq

/-- The place after a character. -/
def Place.next (place : Place) (c : Char) : Place :=
  match place with
  | .comment => .comment
  | .escaped none => .plain
  | .escaped (some quote) => .quoted quote
  | .quoted quote =>
    if c = '\\' then .escaped (some quote) else if c = quote then .plain else .quoted quote
  | .plain | .blank =>
    if place = .blank ∧ c = '#' then .comment
    else if c = '\\' then .escaped none
    else if c = '"' ∨ c = '\'' then .quoted c
    else if place = .plain ∧ Text.isBlank c ∧ c ≠ '\n' ∧ c ≠ '\r' then .blank
    else .plain

/-- A line without the break at its end. -/
def dropBreak (line : List Char) : List Char :=
  match line.reverse with
  | '\n' :: '\r' :: rest => rest.reverse
  | '\n' :: rest => rest.reverse
  | _ => line

/-- Whether a line holds nothing but a comment. -/
def isComment (line : List Char) : Bool := (Text.trimStart line).head? == some '#'

/-- Cuts a text into its physical lines, each with its break. -/
def physicalLines : List Char → List (List Char)
  | [] => []
  | '\n' :: rest => ['\n'] :: physicalLines rest
  | c :: rest =>
    match physicalLines rest with
    | [] => [[c]]
    | line :: lines => if rest.head? = some '\n' then [c, '\n'] :: lines else (c :: line) :: lines

/-- What a physical line holds before a comment, and the place at its end. -/
def scan (place : Place) : List Char → List Char × Place
  | [] => ([], place)
  | c :: rest =>
    match place.next c with
    | .comment => ([], .comment)
    | next =>
      let (kept, last) := scan next rest
      (c :: kept, last)

/-- Joins physical lines to logical ones; `done` is what the logical line holds so far.  The last
one is missing when the text ends inside quotes. -/
def joinLines (done : List Char) (place : Place) : List (List Char) → List (Option (List Char))
  | [] => if place = .plain then [] else [none]
  | line :: rest =>
    if done.isEmpty && isComment line then some [] :: joinLines [] .plain rest
    else
      let (kept, last) := scan place line
      match last with
      | .plain => some (dropBreak (done ++ kept)) :: joinLines [] .plain rest
      | .comment => some (done ++ kept) :: joinLines [] .plain rest
      | last => joinLines (done ++ kept) last rest

/-- A text without the byte order mark that it may begin with. -/
def dropMark : List Char → List Char
  | c :: rest => if c = Char.ofNat 0xFEFF then rest else c :: rest
  | [] => []

/-- The logical lines of a text. -/
def lines (text : String) : List (Option (List Char)) :=
  joinLines [] .plain (physicalLines (dropMark text.toList))

/-! ## Values -/

/-- A part of a value. -/
inductive Piece where
  | char (c : Char)
  /-- The value of a variable. -/
  | reference (name : String)
deriving DecidableEq

/-- The state of reading a value. -/
structure Value where
  /-- The parts so far, the last one first. -/
  pieces : List Piece := []
  /-- The quotes around the next character. -/
  quote : Option Char := none
  escaped : Bool := false
  /-- Whether the value has ended, so that only a comment may follow. -/
  ended : Bool := false
  /-- The name of a variable being read, and whether it stands in braces. -/
  name : Option (Bool × List Char) := none

namespace Value

/-- Adds a character. -/
def push (v : Value) (c : Char) : Value := { v with pieces := .char c :: v.pieces }

/-- The name being read is complete. -/
def endName (v : Value) : Value :=
  match v.name with
  | some (_, name) => { v with pieces := .reference (String.ofList name) :: v.pieces, name := none }
  | none => v

/-- Whether a character goes on with a name.  Outside of ASCII all but blanks do. -/
def isNameChar (c : Char) : Bool := c.isAlphanum || (128 ≤ c.toNat && !Text.isBlank c)

/-- A character after a backslash. -/
def stepEscaped (v : Value) (c : Char) : Option Value :=
  if c = 'n' then some { v.push '\n' with escaped := false }
  else if c ∈ ['\\', '\'', '"', '$', ' '] then some { v.push c with escaped := false }
  else none

/-- A character of a name, or the one that ends it. -/
def stepName (v : Value) (braces : Bool) (name : List Char) (c : Char) : Value :=
  if isNameChar c then { v with name := some (braces, name ++ [c]) }
  else if braces then
    if c = '}' then v.endName else { v with name := some (true, name ++ [c]) }
  else if c = '{' ∧ name.isEmpty then { v with name := some (true, []) }
  else if c = '$' then { v.endName with name := some (false, []) }
  else v.endName.push c

/-- A character outside of single quotes, names and escapes. -/
def stepOpen (v : Value) (c : Char) : Value :=
  if c = '$' then { v with name := some (false, []) }
  else if c = '\\' then { v with escaped := true }
  else if v.quote = some '"' then if c = '"' then { v with quote := none } else v.push c
  else if c = '\'' ∨ c = '"' then { v with quote := some c }
  else if c = ' ' ∨ c = '\t' then { v with ended := true }
  else v.push c

/-- Reads one more character. -/
def step (v : Value) (c : Char) : Option Value :=
  if v.escaped then v.stepEscaped c
  else if v.quote = some '\'' then
    some (if c = '\'' then { v with quote := none } else v.push c)
  else match v.name with
    | some (braces, name) => some (v.stepName braces name c)
    | none => some (v.stepOpen c)

/-- The parts of a value that is complete. -/
def finish (v : Value) : Option (List Piece) :=
  if v.quote.isSome || v.name.any Prod.fst then none else some v.endName.pieces.reverse

/-- Reads characters to their end or to a comment. -/
def run (v : Value) : List Char → Option (List Piece)
  | [] => v.finish
  | c :: rest =>
    if v.ended then
      if c = ' ' ∨ c = '\t' then v.run rest else if c = '#' then v.finish else none
    else (v.step c).bind fun v ↦ v.run rest

end Value

/-- The parts of a value; nothing and a comment are the empty value. -/
def readValue (cs : List Char) : Option (List Piece) :=
  if cs.isEmpty || cs.head? == some '#' then some [] else Value.run {} cs

/-! ## Assignments -/

/-- A name, and the rest. -/
def readName (cs : List Char) : Option (List Char × List Char) :=
  match cs with
  | [] => none
  | c :: _ =>
    if c.isAlpha || c == '_' then
      some (cs.span fun c ↦ c.isAlphanum || c == '_' || c == '.')
    else none

/-- What follows an equals sign. -/
def afterEquals : List Char → Option (List Char)
  | '=' :: rest => some (Text.trimStart rest)
  | _ => none

/-- A name with the text of its value.  The word `export` may stand in front, and may be a name
itself. -/
def readAssignment (cs : List Char) : Option (List Char × List Char) := do
  let (name, rest) ← readName cs
  let rest := Text.trimStart rest
  match afterEquals rest with
  | some value => some (name, value)
  | none =>
    if name = "export".toList then
      let (name, rest) ← readName rest
      let value ← afterEquals (Text.trimStart rest)
      some (name, value)
    else none

/-- Reads a line: nothing, or a variable with the parts of its value. -/
def readLine (line : List Char) : Option (Option (String × List Piece)) :=
  let line := Text.trim line
  if line.isEmpty || line.head? == some '#' then some none
  else do
    let (name, value) ← readAssignment line
    let pieces ← readValue value
    some (some (String.ofList name, pieces))

/-! ## Loading -/

section

variable {m : Type → Type} [Monad m]

/-- The text of a value. -/
def textOf (h : Host m) : List Piece → m String
  | [] => return ""
  | .char c :: rest => return String.singleton c ++ (← textOf h rest)
  | .reference name :: rest => do
    return (← h.valueOf? name).getD "" ++ (← textOf h rest)

/-- Sets the variables of lines that are not set yet, up to the first line that cannot be read. -/
def assignAll (h : Host m) (set : List (String × String)) :
    List (Option (List Char)) → m (List (String × String))
  | [] => return set
  | line :: rest =>
    match line.bind readLine with
    | none => return set
    | some none => assignAll h set rest
    | some (some (name, pieces)) => do
      let known := h.withVariables set
      let value ← textOf known pieces
      let set := if (← known.valueOf? name).isSome then set else set ++ [(name, value)]
      assignAll h set rest

/-- The name of the file. -/
def fileName : String := ".env"

/-- The first of the paths that leads to a file. -/
def firstFile (h : Host m) : List String → m (Option String)
  | [] => return none
  | path :: rest => do
    if (← h.entry? path) = some .file then return some path else firstFile h rest

/-- The variables that a file sets. -/
def load (h : Host m) : m (List (String × String)) := do
  let directories := Path.ancestors (← h.directory)
  match ← firstFile h (directories.map fun directory ↦ Path.join directory fileName) with
  | none => return []
  | some path =>
    match ← h.read path with
    | .error _ => return []
    | .ok text => assignAll h [] (lines text)

end

end ChartFeed.Variables
