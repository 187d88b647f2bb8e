import ChartFeed.Json.Basic
import ChartFeed.Decimal.Layout

/-!
# JSON text

* `Json.text` is the compact text: no spaces, fields in order;
* `Json.prettyText` breaks lines and indents by two;
* `escapeChar` says which characters of a string are written as escapes.

Both are written over lists of characters.
-/

set_option autoImplicit false

namespace ChartFeed

/-- The text of a number: integers in decimal, doubles under `Decimal.jsonLayout`. -/
def Number.text : Number → String
  | .int n => if n < 0 then "-" ++ Nat.repr n.natAbs else Nat.repr n.natAbs
  | .float x => Decimal.jsonLayout.render x

namespace Json

/-- One digit to base sixteen, in small letters. -/
def hexDigit (n : Nat) : Char := Nat.digitChar (n % 16)

/-- Quotes, backslashes and controls are escaped; everything else stands for itself. -/
def escapeChar (c : Char) : List Char :=
  if c = '\"' then ['\\', '\"']
  else if c = '\\' then ['\\', '\\']
  else if c = '\n' then ['\\', 'n']
  else if c = '\r' then ['\\', 'r']
  else if c = '\t' then ['\\', 't']
  else if c.toNat = 8 then ['\\', 'b']
  else if c.toNat = 12 then ['\\', 'f']
  else if c.toNat < 32 then
    ['\\', 'u', '0', '0', hexDigit (c.toNat / 16), hexDigit c.toNat]
  else [c]

/-- A string between quotes. -/
def quoted (s : String) : List Char := '\"' :: s.toList.flatMap escapeChar ++ ['\"']

/-- The characters of null and the truth values. -/
def wordChars : Option Bool → List Char
  | none => ['n', 'u', 'l', 'l']
  | some true => ['t', 'r', 'u', 'e']
  | some false => ['f', 'a', 'l', 's', 'e']

mutual

/-- The characters of the compact text. -/
def chars : Json → List Char
  | .null => wordChars none
  | .bool b => wordChars (some b)
  | .num n => n.text.toList
  | .str s => quoted s
  | .arr items => '[' :: charsItems items ++ [']']
  | .obj fields => '{' :: charsFields fields ++ ['}']

/-- The items with commas between them. -/
def charsItems : List Json → List Char
  | [] => []
  | [v] => chars v
  | v :: w :: rest => chars v ++ ',' :: charsItems (w :: rest)

/-- The fields with commas between them. -/
def charsFields : List (String × Json) → List Char
  | [] => []
  | [(k, v)] => quoted k ++ ':' :: chars v
  | (k, v) :: w :: rest => quoted k ++ ':' :: chars v ++ ',' :: charsFields (w :: rest)

end

/-- The compact text. -/
def text (v : Json) : String := String.ofList (chars v)

/-- A line break and the indentation of a nesting depth. -/
def lineBreak (depth : Nat) : List Char := '\n' :: List.replicate (2 * depth) ' '

mutual

/-- The characters of the indented text at a nesting depth; empty containers stay on one line. -/
def prettyChars (depth : Nat) : Json → List Char
  | .null => wordChars none
  | .bool b => wordChars (some b)
  | .num n => n.text.toList
  | .str s => quoted s
  | .arr [] => ['[', ']']
  | .arr (v :: rest) =>
    '[' :: lineBreak (depth + 1) ++ prettyChars (depth + 1) v ++ prettyItems depth rest
      ++ lineBreak depth ++ [']']
  | .obj [] => ['{', '}']
  | .obj ((k, v) :: rest) =>
    '{' :: lineBreak (depth + 1) ++ quoted k ++ ':' :: ' ' :: prettyChars (depth + 1) v
      ++ prettyFields depth rest ++ lineBreak depth ++ ['}']

/-- The items after the first, each behind a comma on a line of its own. -/
def prettyItems (depth : Nat) : List Json → List Char
  | [] => []
  | v :: rest =>
    ',' :: lineBreak (depth + 1) ++ prettyChars (depth + 1) v ++ prettyItems depth rest

/-- The fields after the first, each behind a comma on a line of its own. -/
def prettyFields (depth : Nat) : List (String × Json) → List Char
  | [] => []
  | (k, v) :: rest =>
    ',' :: lineBreak (depth + 1) ++ quoted k ++ ':' :: ' ' :: prettyChars (depth + 1) v
      ++ prettyFields depth rest

end

/-- The indented text. -/
def prettyText (v : Json) : String := String.ofList (prettyChars 0 v)

end Json

end ChartFeed
