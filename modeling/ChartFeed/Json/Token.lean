import ChartFeed.Json.Printer
import ChartFeed.Decimal.Numeral
import ChartFeed.Text.Digit

/-!
# The tokens of JSON text

The lexer is a machine with one transition per character, so it is a fold over the text and needs
no bound.

* `Token.broken` stands where the text stops being made of tokens; it is the last token, and says
  whether the text ended too early or held something that cannot be there;
* `Lexing` is what the machine remembers between two characters;
* `Token.scan` lists the tokens of a text.

An escape of the first half of a surrogate pair has to be followed by an escape of the second.
-/

set_option autoImplicit false

namespace ChartFeed.Json

/-- Why a text is no JSON of the kind asked for. -/
inductive Fault where
  /-- The text ends too early. -/
  | truncated
  /-- The text has something where it cannot stand. -/
  | malformed
  /-- A value of another kind stands where an object was asked for. -/
  | mismatched
deriving DecidableEq

/-- The tokens of JSON text. -/
inductive Token where
  | openBracket
  | closeBracket
  | openBrace
  | closeBrace
  | comma
  | colon
  /-- Null or a truth value. -/
  | word (value : Option Bool)
  | number (n : Number)
  | string (s : String)
  /-- No token: the text breaks off here, inside a string or elsewhere. -/
  | broken (inString : Bool) (why : Fault)
deriving DecidableEq

/-- How far the reading of a numeral has come. -/
inductive Stage where
  /-- A sign and no digit yet. -/
  | sign
  /-- A single zero, which no digit may follow. -/
  | zero
  | whole
  /-- A point and no digit after it yet. -/
  | point
  | fraction
  /-- The mark of the exponent. -/
  | mark
  /-- The mark and a sign. -/
  | markSign
  | exponent
deriving DecidableEq

/-- What the lexer remembers between two characters. -/
inductive Lexing where
  | between
  | word (missing : List Char) (value : Option Bool)
  | numeral (stage : Stage) (n : Decimal.Numeral)
  /-- Inside a string; the characters read so far, the last one first. -/
  | string (done : List Char)
  /-- After a backslash. -/
  | escape (done : List Char)
  /-- Inside a four digit escape; the characters of it read so far. -/
  | hex (done : List Char) (high : Option Nat) (digits : List Char)
  /-- After the first half of a surrogate pair, which a backslash has to follow. -/
  | lowBackslash (done : List Char) (high : Nat)
  /-- After the first half of a surrogate pair and a backslash. -/
  | lowMark (done : List Char) (high : Nat)
  /-- The text has broken off. -/
  | stopped
deriving DecidableEq

namespace Token

/-- The blanks between tokens. -/
def isSpace (c : Char) : Bool := c == ' ' || c == '\n' || c == '\t' || c == '\r'

/-- The value of a digit to base sixteen. -/
def hexDigit? (c : Char) : Option Nat :=
  if 'a' ≤ c ∧ c ≤ 'f' then some (c.toNat - 'a'.toNat + 10)
  else if 'A' ≤ c ∧ c ≤ 'F' then some (c.toNat - 'A'.toNat + 10)
  else Text.digit? c

/-- The value that four digits to base sixteen spell. -/
def hexValue? : List Char → Option Nat
  | [a, b, c, d] =>
    match hexDigit? a, hexDigit? b, hexDigit? c, hexDigit? d with
    | some a, some b, some c, some d => some (((a * 16 + b) * 16 + c) * 16 + d)
    | _, _, _, _ => none
  | _ => none

/-- Ends the text with a broken token. -/
def stop (inString : Bool) : List Token × Lexing := ([.broken inString .malformed], .stopped)

/-- The transition between tokens. -/
def start (c : Char) : List Token × Lexing :=
  if isSpace c then ([], .between)
  else match c with
  | '[' => ([.openBracket], .between)
  | ']' => ([.closeBracket], .between)
  | '{' => ([.openBrace], .between)
  | '}' => ([.closeBrace], .between)
  | ',' => ([.comma], .between)
  | ':' => ([.colon], .between)
  | '\"' => ([], .string [])
  | 'n' => ([], .word ['u', 'l', 'l'] none)
  | 't' => ([], .word ['r', 'u', 'e'] (some true))
  | 'f' => ([], .word ['a', 'l', 's', 'e'] (some false))
  | '-' => ([], .numeral .sign ⟨true, [], none, none⟩)
  | '0' => ([], .numeral .zero ⟨false, [0], none, none⟩)
  | _ =>
    match Text.digit? c with
    | some d => ([], .numeral .whole ⟨false, [d], none, none⟩)
    | none => stop false

/-- The token of a finished numeral, if its value is in range. -/
def ofNumeral (n : Decimal.Numeral) : Token :=
  match n.value? with
  | some v => .number v
  | none => .broken false .malformed

/-- The numeral has ended before this character. -/
def afterNumeral (n : Decimal.Numeral) (c : Char) : List Token × Lexing :=
  match ofNumeral n with
  | .broken inString why => ([.broken inString why], .stopped)
  | token => (token :: (start c).1, (start c).2)

/-- Whether a character is the mark of an exponent. -/
def isMark (c : Char) : Bool := c == 'e' || c == 'E'

/-- The transition inside a numeral. -/
def inNumeral (stage : Stage) (n : Decimal.Numeral) (c : Char) : List Token × Lexing :=
  match stage, Text.digit? c with
  | .sign, some d => ([], .numeral (if d = 0 then .zero else .whole) { n with whole := [d] })
  | .zero, some _ => stop false
  | .whole, some d => ([], .numeral .whole { n with whole := n.whole ++ [d] })
  | .point, some d => ([], .numeral .fraction { n with fraction := some [d] })
  | .fraction, some d =>
    ([], .numeral .fraction { n with fraction := n.fraction.map (· ++ [d]) })
  | .mark, some d => ([], .numeral .exponent { n with exponent := some (false, [d]) })
  | .markSign, some d
  | .exponent, some d =>
    ([], .numeral .exponent { n with exponent := n.exponent.map fun e ↦ (e.1, e.2 ++ [d]) })
  | .zero, none
  | .whole, none =>
    if c = '.' then ([], .numeral .point n)
    else if isMark c then ([], .numeral .mark n)
    else afterNumeral n c
  | .fraction, none => if isMark c then ([], .numeral .mark n) else afterNumeral n c
  | .mark, none =>
    if c = '+' then ([], .numeral .markSign { n with exponent := some (false, []) })
    else if c = '-' then ([], .numeral .markSign { n with exponent := some (true, []) })
    else stop false
  | .exponent, none => afterNumeral n c
  | .sign, none
  | .point, none
  | .markSign, none => stop false

/-- The character behind a backslash stands for this one. -/
def unescape? (c : Char) : Option Char :=
  match c with
  | '\"' => some '\"'
  | '\\' => some '\\'
  | '/' => some '/'
  | 'b' => some (Char.ofNat 8)
  | 'f' => some (Char.ofNat 12)
  | 'n' => some '\n'
  | 'r' => some '\r'
  | 't' => some '\t'
  | _ => none

/-- The transition at the end of a four digit escape. -/
def afterHex (done : List Char) (high : Option Nat) (value : Nat) : List Token × Lexing :=
  match high with
  | none =>
    if 0xD800 ≤ value ∧ value < 0xDC00 then ([], .lowBackslash done value)
    else if 0xDC00 ≤ value ∧ value < 0xE000 then stop true
    else ([], .string (Char.ofNat value :: done))
  | some h =>
    if 0xDC00 ≤ value ∧ value < 0xE000 then
      ([], .string (Char.ofNat (0x10000 + (h - 0xD800) * 0x400 + (value - 0xDC00)) :: done))
    else stop true

/-- The transition inside a four digit escape, which ends after four bytes. -/
def inHex (done : List Char) (high : Option Nat) (digits : List Char) (c : Char) :
    List Token × Lexing :=
  let digits := digits ++ [c]
  if digits.foldl (fun bytes c ↦ bytes + c.utf8Size) 0 < 4 then ([], .hex done high digits)
  else match hexValue? digits with
    | some value => afterHex done high value
    | none => stop true

/-- One transition: the tokens finished by this character, and what to remember. -/
def step (state : Lexing) (c : Char) : List Token × Lexing :=
  match state with
  | .between => start c
  | .word [] value => (.word value :: (start c).1, (start c).2)
  | .word (e :: missing) value =>
    if c ≠ e then stop false
    else if missing.isEmpty then ([.word value], .between)
    else ([], .word missing value)
  | .numeral stage n => inNumeral stage n c
  | .string done =>
    if c = '\"' then ([.string (String.ofList done.reverse)], .between)
    else if c = '\\' then ([], .escape done)
    else if c.toNat < 32 then stop true
    else ([], .string (c :: done))
  | .escape done =>
    if c = 'u' then ([], .hex done none [])
    else match unescape? c with
      | some e => ([], .string (e :: done))
      | none => stop true
  | .hex done high digits => inHex done high digits c
  | .lowBackslash done high => if c = '\\' then ([], .lowMark done high) else stop true
  | .lowMark done high => if c = 'u' then ([], .hex done (some high) []) else stop true
  | .stopped => ([], .stopped)

/-- The tokens finished by the end of the text. -/
def finish (state : Lexing) : List Token :=
  match state with
  | .between | .stopped => []
  | .word [] value => [.word value]
  | .word (_ :: _) _ => [.broken false .truncated]
  | .numeral .zero n | .numeral .whole n | .numeral .fraction n | .numeral .exponent n =>
    [ofNumeral n]
  | .numeral .sign _ | .numeral .point _ | .numeral .mark _ | .numeral .markSign _ =>
    [.broken false .truncated]
  | .string _ | .escape _ | .hex _ _ _ | .lowBackslash _ _ | .lowMark _ _ =>
    [.broken true .truncated]

/-- The tokens from a state on. -/
def scanFrom (state : Lexing) : List Char → List Token
  | [] => finish state
  | c :: rest => (step state c).1 ++ scanFrom (step state c).2 rest

/-- The tokens of a text. -/
def scan (cs : List Char) : List Token := scanFrom .between cs

end Token

end ChartFeed.Json
