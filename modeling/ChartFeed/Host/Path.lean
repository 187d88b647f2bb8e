import ChartFeed.Text.Blank

/-!
# Paths

Paths are texts with slashes between their parts.

* `Path.join` goes on from a directory;
* `Path.expand` makes a path that a user wrote absolute: a tilde stands for the home directory, and
  other paths go on from the current directory;
* `Path.ancestors` lists a directory and those above it.
-/

set_option autoImplicit false

namespace ChartFeed.Path

/-- Whether a path does not depend on the current directory. -/
def isAbsolute (path : String) : Bool := path.toList.head? == some '/'

/-- The path that one gets to from a directory; an absolute path stays as it is. -/
def join (directory path : String) : String :=
  if isAbsolute path then path
  else if directory.isEmpty || directory.toList.getLast? == some '/' then directory ++ path
  else directory ++ "/" ++ path

/-- Puts the home directory in the place of a tilde. -/
def expandHome (home : Option String) (path : List Char) : String :=
  match path, home with
  | ['~'], some home => home
  | '~' :: '/' :: rest, some home => join home (String.ofList rest)
  | path, _ => String.ofList path

/-- Makes a path absolute; blanks around it do not matter, and an empty path is the current
directory. -/
def expand (home : Option String) (directory path : String) : String :=
  match Text.trim path.toList with
  | [] => directory
  | path => join directory (expandHome home path)

/-- The directory above the path with these characters in reverse order; the root has none. -/
def parentOf (reversed : List Char) : List Char :=
  match (reversed.dropWhile (· != '/')).dropWhile (· == '/') with
  | [] => ['/']
  | above => above

/-- Directories from one upwards, at most so many; the characters are in reverse order. -/
def ancestorsFrom : Nat → List Char → List (List Char)
  | 0, _ => []
  | count + 1, reversed =>
    if reversed = ['/'] then [reversed] else reversed :: ancestorsFrom count (parentOf reversed)

/-- An absolute directory and all directories above it. -/
def ancestors (directory : String) : List String :=
  (ancestorsFrom (directory.length + 1) directory.toList.reverse).map fun reversed ↦
    String.ofList reversed.reverse

end ChartFeed.Path
