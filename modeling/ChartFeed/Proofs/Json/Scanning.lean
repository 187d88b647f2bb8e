import Mathlib.Tactic.IntervalCases
import ChartFeed.Json.Token
import ChartFeed.Proofs.Json.Unambiguous
import ChartFeed.Proofs.Text.Digit

/-!
# Scanning what was printed

The lexer finds the parts of a printed value again: words, strings and numbers, one token each.

## What is here

* `Token.scanned` — the tokens that some characters finish, and where they leave the lexer, so that
  a text can be scanned part by part; `scanFrom_append`;
* `Token.scanned_word`, `Token.scanned_quoted` — words and strings;
* `Number.ReadsBack` — the text of the number is the token of this number.  Integers of 64 bits are
  read back (`Number.readsBack_int`); for a double that depends on its digits;
* `Token.scanFrom_number` — a number that is read back is read back in front of a comma or a closing
  bracket too.
-/

set_option autoImplicit false

namespace ChartFeed.Json.Token

open Decimal (IsNumeric)

/-- The tokens that these characters finish, and what the lexer remembers after them. -/
def scanned (state : Lexing) : List Char → List Token × Lexing
  | [] => ([], state)
  | c :: rest =>
    let (tokens, last) := scanned (step state c).2 rest
    ((step state c).1 ++ tokens, last)

theorem scanned_cons (state : Lexing) (c : Char) (rest : List Char) :
    scanned state (c :: rest) =
      ((step state c).1 ++ (scanned (step state c).2 rest).1, (scanned (step state c).2 rest).2) :=
  rfl

/-- A text is scanned part by part. -/
theorem scanFrom_append (state : Lexing) (cs rest : List Char) :
    scanFrom state (cs ++ rest) = (scanned state cs).1 ++ scanFrom (scanned state cs).2 rest := by
  induction cs generalizing state with
  | nil => rfl
  | cons c cs ih => rw [List.cons_append, scanFrom, ih, scanned_cons, List.append_assoc]

theorem scanned_append (state : Lexing) (cs rest : List Char) :
    scanned state (cs ++ rest) = ((scanned state cs).1 ++ (scanned (scanned state cs).2 rest).1,
      (scanned (scanned state cs).2 rest).2) := by
  induction cs generalizing state with
  | nil => rfl
  | cons c cs ih => rw [List.cons_append, scanned_cons, ih, scanned_cons, List.append_assoc]

/-! ## Words and strings -/

theorem scanned_word (value : Option Bool) :
    scanned .between (wordChars value) = ([.word value], .between) := by
  rcases value with _ | _ | _ <;> rfl

/-- The four digits of an escape spell the control that they are written for. -/
theorem scanned_control (done : List Char) {n : Nat} (h : n < 32) :
    scanned (.string done) ['\\', 'u', '0', '0', hexDigit (n / 16), hexDigit n] =
      ([], .string (Char.ofNat n :: done)) := by
  interval_cases n <;> rfl

/-- What is escaped is read as the character that it stands for. -/
theorem scanned_escapeChar (done : List Char) (c : Char) :
    scanned (.string done) (escapeChar c) = ([], .string (c :: done)) := by
  have hofNat {n : Nat} (h : c.toNat = n) : Char.ofNat n = c := by rw [← h, Char.ofNat_toNat]
  unfold escapeChar
  split
  · next h => subst h; rfl
  split
  · next h => subst h; rfl
  split
  · next h => subst h; rfl
  split
  · next h => subst h; rfl
  split
  · next h => subst h; rfl
  split
  · next h => rw [← hofNat h]; rfl
  split
  · next h => rw [← hofNat h]; rfl
  split
  · next h => rw [scanned_control done h, Char.ofNat_toNat]
  · next hquote hback _ _ _ _ _ hcontrol =>
    simp [scanned, step, hquote, hback, hcontrol]

theorem scanned_escaped (done cs : List Char) :
    scanned (.string done) (cs.flatMap escapeChar) = ([], .string (cs.reverse ++ done)) := by
  induction cs generalizing done with
  | nil => rfl
  | cons c cs ih =>
    rw [List.flatMap_cons, scanned_append, scanned_escapeChar, ih]
    simp

/-- A string between quotes is one token. -/
theorem scanned_quoted (s : String) : scanned .between (quoted s) = ([.string s], .between) := by
  show scanned (.string []) (s.toList.flatMap escapeChar ++ ['\"']) = _
  rw [scanned_append, scanned_escaped, List.append_nil]
  simp [scanned, step]

/-! ## Numbers -/

/-- The lexer is inside a numeral, or the text has broken off. -/
def InNumeral (last : List Token × Lexing) : Prop :=
  (∃ stage n, last.2 = .numeral stage n) ∨
    last.2 = .stopped ∧ ∃ inString why, .broken inString why ∈ last.1

theorem inNumeral_stop : InNumeral (stop false) := .inr ⟨rfl, false, .malformed, by simp [stop]⟩

theorem inNumeral_numeral (tokens : List Token) (stage : Stage) (n : Decimal.Numeral) :
    InNumeral (tokens, .numeral stage n) := .inl ⟨stage, n, rfl⟩

theorem InNumeral.append {last : List Token × Lexing} (h : InNumeral last) (tokens : List Token) :
    InNumeral (tokens ++ last.1, last.2) :=
  h.imp id fun ⟨hstopped, inString, why, hmem⟩ ↦
    ⟨hstopped, inString, why, List.mem_append_right _ hmem⟩

/-- A numeric character begins a numeral, or nothing. -/
theorem inNumeral_start {c : Char} (hc : IsNumeric c) : InNumeral (start c) := by
  rcases hc with hdigit | rfl | rfl | rfl | rfl
  · obtain ⟨d, hd, rfl⟩ := Text.exists_digitChar hdigit
    interval_cases d <;> exact .inl ⟨_, _, rfl⟩
  · exact inNumeral_stop
  · exact inNumeral_stop
  · exact inNumeral_stop
  · exact .inl ⟨_, _, rfl⟩

theorem inNumeral_afterNumeral (n : Decimal.Numeral) {c : Char} (hc : IsNumeric c) :
    InNumeral (afterNumeral n c) := by
  rw [afterNumeral]
  split
  · exact .inr ⟨rfl, _, _, List.mem_singleton_self _⟩
  · exact (inNumeral_start hc).append [ofNumeral n]

theorem inNumeral_step (stage : Stage) (n : Decimal.Numeral) {c : Char} (hc : IsNumeric c) :
    InNumeral (step (.numeral stage n) c) := by
  have hafter := inNumeral_afterNumeral n hc
  show InNumeral (inNumeral stage n c)
  unfold inNumeral
  cases Text.digit? c with
  | some d =>
    cases stage with
    | zero => exact inNumeral_stop
    | sign | whole | point | fraction | mark | markSign | exponent => exact inNumeral_numeral ..
  | none =>
    cases stage with
    | sign | point | markSign => exact inNumeral_stop
    | zero | whole =>
      simp only
      split
      · exact inNumeral_numeral ..
      split
      · exact inNumeral_numeral ..
      · exact hafter
    | fraction =>
      simp only
      split
      · exact inNumeral_numeral ..
      · exact hafter
    | mark =>
      simp only
      split
      · exact inNumeral_numeral ..
      split
      · exact inNumeral_numeral ..
      · exact inNumeral_stop
    | exponent => exact hafter

theorem scanned_stopped (cs : List Char) : scanned .stopped cs = ([], .stopped) := by
  induction cs with
  | nil => rfl
  | cons c cs ih => rw [scanned_cons, step, ih]; rfl

/-- Numeric characters go on with a numeral, or the text breaks off. -/
theorem inNumeral_scanned (stage : Stage) (n : Decimal.Numeral) {cs : List Char}
    (hcs : ∀ c ∈ cs, IsNumeric c) : InNumeral (scanned (.numeral stage n) cs) := by
  induction cs generalizing stage n with
  | nil => exact inNumeral_numeral ..
  | cons c cs ih =>
    obtain ⟨hc, hcs⟩ := List.forall_mem_cons.1 hcs
    rw [scanned_cons]
    rcases inNumeral_step stage n hc with ⟨stage', n', h⟩ | ⟨h, inString, why, hmem⟩
    · rw [h]
      exact (ih stage' n' hcs).append _
    · rw [h, scanned_stopped]
      exact .inr ⟨rfl, inString, why, List.mem_append_left _ hmem⟩

end ChartFeed.Json.Token

namespace ChartFeed

open Json (Token)

/-- The text of this number is read as this number. -/
def Number.ReadsBack (n : Number) : Prop := Token.scan n.text.toList = [.number n]

instance (n : Number) : Decidable n.ReadsBack :=
  inferInstanceAs (Decidable (Token.scan n.text.toList = _))

namespace Json.Token

/-- A numeral at the end of a text is one token. -/
theorem exists_finish_numeral (stage : Stage) (numeral : Decimal.Numeral) :
    ∃ token, finish (.numeral stage numeral) = [token] := by
  cases stage <;> exact ⟨_, rfl⟩

/-- A number that is read back is a numeral that could end where it does. -/
theorem exists_numeral_of_readsBack {n : Number} (h : n.ReadsBack) :
    ∃ stage numeral, scanned .between n.text.toList = ([], .numeral stage numeral) ∧
      finish (.numeral stage numeral) = [.number n] := by
  obtain ⟨c, cs, htext, hc⟩ := n.head_text
  have hnumeric : ∀ d ∈ c :: cs, Decimal.IsNumeric d := htext ▸ n.isNumeric_of_mem_text
  obtain ⟨hc', hcs⟩ := List.forall_mem_cons.1 hnumeric
  -- a number begins with a digit or a minus, so a numeral begins at once
  obtain ⟨stage, numeral, hstart⟩ :
      ∃ stage numeral, step .between c = ([], .numeral stage numeral) := by
    rcases hc with hdigit | rfl
    · obtain ⟨d, hd, rfl⟩ := Text.exists_digitChar hdigit
      interval_cases d <;> exact ⟨_, _, rfl⟩
    · exact ⟨_, _, rfl⟩
  have hscan : scanned .between n.text.toList = scanned (.numeral stage numeral) cs := by
    rw [htext, scanned_cons, hstart]
    rfl
  have hlast := inNumeral_scanned stage numeral hcs
  have hall : (scanned .between n.text.toList).1 ++ finish (scanned .between n.text.toList).2 =
      [.number n] := by
    have happend := scanFrom_append .between n.text.toList []
    rw [List.append_nil] at happend
    exact happend.symm.trans h
  rw [← hscan] at hlast
  rcases hlast with ⟨stage', m, hlast⟩ | ⟨hstopped, inString, why, hmem⟩
  · rw [hlast] at hall
    obtain ⟨token, htoken⟩ := exists_finish_numeral stage' m
    have hnone : (scanned .between n.text.toList).1 = [] := by
      have hlength := congrArg List.length hall
      rw [htoken] at hlength
      simpa using hlength
    rw [hnone] at hall
    exact ⟨stage', m, Prod.ext hnone hlast, hall⟩
  · rw [hstopped, finish, List.append_nil] at hall
    rw [hall] at hmem
    simp at hmem

/-- What follows a value inside of a container, or nothing. -/
def Closed (r : List Char) : Prop := ∀ c ∈ r.head?, c = ',' ∨ c = ']' ∨ c = '}'

theorem closed_nil : Closed [] := nofun

theorem closed_cons {c : Char} {r : List Char} (h : c = ',' ∨ c = ']' ∨ c = '}') :
    Closed (c :: r) := by
  intro d hd
  cases hd
  exact h

/-- A numeral that could end the text ends before a comma or a closing bracket. -/
theorem step_numeral {stage : Stage} {numeral : Decimal.Numeral} {n : Number}
    (h : finish (.numeral stage numeral) = [.number n]) {c : Char}
    (hc : c = ',' ∨ c = ']' ∨ c = '}') :
    step (.numeral stage numeral) c = (.number n :: (start c).1, (start c).2) := by
  have hdigit : Text.digit? c = none := by rcases hc with rfl | rfl | rfl <;> rfl
  have hpoint : c ≠ '.' := by rcases hc with rfl | rfl | rfl <;> decide
  have hmark : isMark c = false := by rcases hc with rfl | rfl | rfl <;> rfl
  cases stage with
  | sign | point | mark | markSign => cases h
  | zero | whole | fraction | exponent =>
    have hnumber : ofNumeral numeral = .number n := List.singleton_inj.1 h
    simp [step, inNumeral, hdigit, hpoint, hmark, afterNumeral, hnumber]

/-- **A number that is read back** is read back wherever it can stand. -/
theorem scanFrom_number {n : Number} (h : n.ReadsBack) {r : List Char} (hr : Closed r) :
    scanFrom .between (n.text.toList ++ r) = .number n :: scanFrom .between r := by
  obtain ⟨stage, numeral, hscanned, hfinish⟩ := exists_numeral_of_readsBack h
  rw [scanFrom_append, hscanned, List.nil_append]
  cases r with
  | nil => exact hfinish
  | cons c r =>
    rw [scanFrom, step_numeral hfinish (hr c rfl)]
    rfl

/-! ## Integers -/

/-- The values of digits. -/
def digitValues (cs : List Char) : List Nat := cs.map fun c ↦ c.toNat - '0'.toNat

/-- Digits before the point are taken in one by one. -/
theorem scanned_whole (numeral : Decimal.Numeral) {cs : List Char}
    (hcs : Decimal.AllDigits cs) :
    scanned (.numeral .whole numeral) cs =
      ([], .numeral .whole { numeral with whole := numeral.whole ++ digitValues cs }) := by
  induction cs generalizing numeral with
  | nil => simp [scanned, digitValues]
  | cons c cs ih =>
    obtain ⟨hc, hcs⟩ := List.forall_mem_cons.1 hcs
    have hstep : step (.numeral .whole numeral) c =
        ([], .numeral .whole { numeral with whole := numeral.whole ++ [c.toNat - '0'.toNat] }) := by
      simp [step, inNumeral, Text.digit?_of_isDigit hc]
    rw [scanned_cons, hstep, ih _ hcs]
    simp [digitValues]

/-- A natural within the limit is within it digit by digit. -/
theorem digitsWithin_digitValues {limit start : Nat} {cs : List Char}
    (h : Nat.ofDigitChars 10 cs start ≤ limit) :
    Decimal.digitsWithin limit start (digitValues cs) = some (Nat.ofDigitChars 10 cs start) := by
  induction cs generalizing start with
  | nil => rfl
  | cons c cs ih =>
    rw [Nat.ofDigitChars_cons] at h ⊢
    have hle : start * 10 + (c.toNat - '0'.toNat) ≤ limit := by
      rw [Nat.ofDigitChars_eq_ofDigitChars_zero] at h
      have hpow : 1 ≤ 10 ^ cs.length := Nat.one_le_pow _ _ (by decide)
      nlinarith
    rw [digitValues, List.map_cons, Decimal.digitsWithin, if_pos hle, Nat.mul_comm start]
    exact ih h

theorem step_between_digitChar {d : Nat} (hd : d < 10) (hne : d ≠ 0) :
    step .between (Nat.digitChar d) = ([], .numeral .whole ⟨false, [d], none, none⟩) := by
  have hpos : 0 < d := Nat.pos_of_ne_zero hne
  interval_cases d <;> rfl

theorem step_sign_digitChar {d : Nat} (hd : d < 10) (hne : d ≠ 0) :
    step (.numeral .sign ⟨true, [], none, none⟩) (Nat.digitChar d) =
      ([], .numeral .whole ⟨true, [d], none, none⟩) := by
  simp [step, inNumeral, Text.digit?_digitChar hd, hne]

/-- The digits of a natural are a numeral of it, behind a sign or not. -/
theorem scanFrom_digits {k : Nat} (hk : k ≠ 0) (state : Lexing) (negative : Bool)
    (hstate : ∀ d < 10, d ≠ 0 → step state (Nat.digitChar d) =
      ([], .numeral .whole ⟨negative, [d], none, none⟩)) :
    scanFrom state (Nat.toDigits 10 k) =
      [ofNumeral ⟨negative, digitValues (Nat.toDigits 10 k), none, none⟩] := by
  obtain ⟨d, hd, hne, rest, hdigits⟩ := Text.exists_toDigits hk
  have hall := Decimal.allDigits_toDigits k
  rw [hdigits] at hall
  have hrest := (List.forall_mem_cons.1 hall).2
  have happend := scanFrom_append (.numeral .whole ⟨negative, [d], none, none⟩) rest []
  rw [List.append_nil, scanned_whole _ hrest] at happend
  rw [hdigits, scanFrom, hstate d hd hne, happend]
  simp [scanFrom, finish, digitValues, Nat.toNat_digitChar_of_lt_ten hd]

end Json.Token

open Json.Token in
/-- **Integers of 64 bits are read back.** -/
theorem Number.readsBack_int {n : Int} (h : int64Min ≤ n ∧ n ≤ uint64Max) :
    (Number.int n).ReadsBack := by
  have hwithin (hn : n.natAbs ≤ uint64Max) :
      Decimal.digitsWithin uint64Max 0 (digitValues (Nat.toDigits 10 n.natAbs)) =
        some n.natAbs := by
    rw [digitsWithin_digitValues (by rwa [Nat.ofDigitChars_ten_toDigits]),
      Nat.ofDigitChars_ten_toDigits]
  obtain ⟨hlow, hhigh⟩ := h
  rw [ReadsBack, toList_text_int, Token.scan]
  by_cases hzero : n = 0
  · subst hzero
    rfl
  have hne : n.natAbs ≠ 0 := Int.natAbs_ne_zero.2 hzero
  have hvalue := hwithin (by rw [int64Min] at hlow; rw [uint64Max] at hhigh ⊢; omega)
  split
  · next hneg =>
    have hdigits := scanFrom_digits hne _ true fun _ ↦ step_sign_digitChar
    have habs : -|n| = n := by rw [abs_of_neg hneg, neg_neg]
    show scanFrom (.numeral .sign ⟨true, [], none, none⟩) _ = _
    rw [hdigits]
    simp [ofNumeral, Decimal.Numeral.value?, hvalue, habs, hzero, hlow]
  · next hneg =>
    have hdigits := scanFrom_digits hne _ false fun _ ↦ step_between_digitChar
    have habs : |n| = n := abs_of_nonneg (not_lt.1 hneg)
    rw [hdigits]
    simp [ofNumeral, Decimal.Numeral.value?, hvalue, habs]

end ChartFeed
