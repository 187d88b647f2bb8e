/-!
# Blank characters, trimming and words

Texts are cut at Unicode white space.

* `isBlank` is the property White_Space, as a table of code points;
* `trim` drops blanks at both ends and `words` lists the maximal runs without a blank;
* `lower` maps the capital letters of ASCII and nothing else.

Everything is stated over lists of characters, where the laws of lists apply.
-/

set_option autoImplicit false

namespace ChartFeed.Text

/-- The code points with the Unicode property White_Space. -/
def isBlank (c : Char) : Bool :=
  let n := c.toNat
  (9 ≤ n && n ≤ 13) || n == 0x20 || n == 0x85 || n == 0xA0 || n == 0x1680
    || (0x2000 ≤ n && n ≤ 0x200A) || n == 0x2028 || n == 0x2029 || n == 0x202F
    || n == 0x205F || n == 0x3000

/-- Drops the blanks at the front. -/
def trimStart (cs : List Char) : List Char := cs.dropWhile isBlank

/-- Drops the blanks at the back. -/
def trimEnd (cs : List Char) : List Char := (trimStart cs.reverse).reverse

/-- Drops the blanks at both ends. -/
def trim (cs : List Char) : List Char := trimEnd (trimStart cs)

/-- The maximal runs without a blank; `run` is the run being read, in order. -/
def wordsFrom (run : List Char) : List Char → List (List Char)
  | [] => if run.isEmpty then [] else [run]
  | c :: rest =>
    if isBlank c then
      if run.isEmpty then wordsFrom [] rest else run :: wordsFrom [] rest
    else wordsFrom (run ++ [c]) rest

/-- The maximal runs without a blank, in order. -/
def words (cs : List Char) : List (List Char) := wordsFrom [] cs

/-- Maps the capital letters of ASCII to small ones. -/
def lower (cs : List Char) : List Char := cs.map Char.toLower

/-- Cuts at the first occurrence of a separator. -/
def splitOnce (separator : List Char) : List Char → Option (List Char × List Char)
  | [] => if separator.isEmpty then some ([], []) else none
  | c :: rest =>
    if separator.isPrefixOf (c :: rest) then some ([], (c :: rest).drop separator.length)
    else (splitOnce separator rest).map fun cut ↦ (c :: cut.1, cut.2)

end ChartFeed.Text
