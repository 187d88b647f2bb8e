import ChartFeed.Proofs.Json.Unambiguous
import ChartFeed.Proofs.Text.Words
import ChartFeed.Proofs.Time.RoundTrip

/-!
# Spans in words

A span is written as its amount and its unit, and read with more liberty.

* `Text.integerOf?_text`, `Text.integerOf?_plus_text` — integers are read as they are written, and
  naturals also behind a plus;
* `Span.Layout`, `Span.spelling` — how a span can be laid out: with blanks around it, with a plus
  where there is no minus, with any gap between the words, and with `ago` behind it;
* `Span.read_spelling` — however it is laid out and whatever the case of its letters, a span is read
  as what it is, and with `ago` as the span in the other direction.
-/

set_option autoImplicit false

namespace ChartFeed

open Decimal (AllDigits allDigits_toDigits)

/-! ## Integers -/

namespace Text

theorem toLower_of_isDigit {c : Char} (h : c.isDigit = true) : c.toLower = c := by
  obtain ⟨d, hd, rfl⟩ := exists_digitChar h
  interval_cases d <;> rfl

/-- Digits spell the natural that they are the value of. -/
theorem naturalOf?_eq {digits : List Char} (h : AllDigits digits) (hne : digits ≠ []) :
    naturalOf? digits = some (Iso.valueOf digits) := by
  have hfold (n : Nat) : digits.foldl
      (fun n c ↦ n.bind fun n ↦ (digit? c).map fun d ↦ 10 * n + d) (some n) =
        some (digits.foldl (fun n c ↦ 10 * n + (digit? c).getD 0) n) := by
    clear hne
    induction digits generalizing n with
    | nil => rfl
    | cons c digits ih =>
      obtain ⟨hc, hdigits⟩ := List.forall_mem_cons.1 h
      rw [List.foldl_cons, List.foldl_cons, digit?_of_isDigit hc]
      exact ih hdigits _
  rw [naturalOf?, List.isEmpty_eq_false_iff.2 hne]
  exact hfold 0

theorem naturalOf?_toDigits (n : Nat) : naturalOf? (Nat.toDigits 10 n) = some n := by
  rw [naturalOf?_eq (allDigits_toDigits n) Nat.toDigits_ne_nil,
    Iso.valueOf_eq (allDigits_toDigits n), Nat.ofDigitChars_ten_toDigits]

theorem integerOf?_toDigits (n : Nat) : integerOf? (Nat.toDigits 10 n) = some (n : Int) := by
  unfold integerOf?
  split
  · next hcons =>
    exact absurd (allDigits_toDigits n '-' (hcons ▸ List.mem_cons_self ..)) (by decide)
  · next hcons =>
    exact absurd (allDigits_toDigits n '+' (hcons ▸ List.mem_cons_self ..)) (by decide)
  · rw [naturalOf?_toDigits]
    rfl

theorem integerOf?_minus_toDigits (n : Nat) :
    integerOf? ('-' :: Nat.toDigits 10 n) = some (-n : Int) := by
  rw [integerOf?, naturalOf?_toDigits]
  rfl

theorem integerOf?_plus_toDigits (n : Nat) :
    integerOf? ('+' :: Nat.toDigits 10 n) = some (n : Int) := by
  rw [integerOf?, naturalOf?_toDigits]
  rfl

/-- **Integers are read as they are written.** -/
theorem integerOf?_text (n : Int) : integerOf? (Number.int n).text.toList = some n := by
  rw [Number.toList_text_int]
  split
  · rw [integerOf?_minus_toDigits, Int.ofNat_natAbs_of_nonpos (by omega), neg_neg]
  · rw [integerOf?_toDigits, Int.natAbs_of_nonneg (by omega)]

/-- A natural may have a plus. -/
theorem integerOf?_plus_text {n : Int} (h : 0 ≤ n) :
    integerOf? ('+' :: (Number.int n).text.toList) = some n := by
  rw [Number.toList_text_int, if_neg (by omega), integerOf?_plus_toDigits,
    Int.natAbs_of_nonneg h]

/-- Digits and signs, as amounts are written in. -/
structure IsNumeral (cs : List Char) : Prop where
  ne_nil : cs ≠ []
  digit_or_sign : ∀ c ∈ cs, c.isDigit = true ∨ c = '-' ∨ c = '+'

theorem IsNumeral.isWord {cs : List Char} (h : IsNumeral cs) : IsWord cs where
  ne_nil := h.ne_nil
  not_blank c hc := by
    rcases h.digit_or_sign c hc with h | rfl | rfl
    · exact Iso.isBlank_of_isDigit h
    · rfl
    · rfl

theorem IsNumeral.lower_eq {cs : List Char} (h : IsNumeral cs) : lower cs = cs := by
  refine (List.map_congr_left fun c hc ↦ ?_).trans (List.map_id _)
  rcases h.digit_or_sign c hc with h | rfl | rfl
  · exact toLower_of_isDigit h
  · rfl
  · rfl

theorem isNumeral_of_allDigits {digits : List Char} (h : AllDigits digits) (hne : digits ≠ []) :
    IsNumeral digits := ⟨hne, fun c hc ↦ .inl (h c hc)⟩

/-- Digits may have a sign in front of them. -/
theorem IsNumeral.cons {sign : Char} {cs : List Char} (h : IsNumeral cs)
    (hsign : sign = '-' ∨ sign = '+') : IsNumeral (sign :: cs) :=
  ⟨List.cons_ne_nil _ _, List.forall_mem_cons.2 ⟨.inr hsign, h.digit_or_sign⟩⟩

theorem isNumeral_toDigits (n : Nat) : IsNumeral (Nat.toDigits 10 n) :=
  isNumeral_of_allDigits (allDigits_toDigits n) Nat.toDigits_ne_nil

theorem isNumeral_text (n : Int) : IsNumeral (Number.int n).text.toList := by
  rw [Number.toList_text_int]
  split
  · exact (isNumeral_toDigits _).cons (.inl rfl)
  · exact isNumeral_toDigits _

end Text

/-! ## The words of a span -/

namespace TimeUnit

/-- The word for a unit. -/
def word (u : TimeUnit) (plural : Bool) : String := u.name ++ (if plural then "s" else "")

/-- **A unit is known by its word**, in the singular or the plural. -/
theorem ofWord?_word (u : TimeUnit) (plural : Bool) :
    ofWord? (u.word plural).toList = some u := by
  cases u <;> cases plural <;> rfl

theorem isWord_word (u : TimeUnit) (plural : Bool) : Text.IsWord (u.word plural).toList := by
  cases u <;> cases plural <;> exact Text.isWord_of_all (by decide) rfl

theorem lower_word (u : TimeUnit) (plural : Bool) :
    Text.lower (u.word plural).toList = (u.word plural).toList := by
  cases u <;> cases plural <;> rfl

end TimeUnit

namespace Span

/-! ## Layouts -/

/-- The amount can be turned around within 64 bits: it is any but the least. -/
def Reversible (s : Span) : Prop := int64Min < s.amount ∧ s.amount ≤ int64Max

instance (s : Span) : Decidable s.Reversible := inferInstanceAs (Decidable (_ ∧ _))

theorem Reversible.fitsInt64 {s : Span} (h : s.Reversible) : fitsInt64 s.amount = true :=
  fitsInt64_iff.2 ⟨h.1.le, h.2⟩

/-- How the words of a span are laid out. -/
structure Layout where
  /-- What comes first. -/
  before : List Char
  /-- Whether an amount without a minus has a plus. -/
  plus : Bool
  /-- What is between the amount and the unit. -/
  gap : List Char
  /-- What is between the unit and `ago`, where that is written. -/
  agoGap : List Char
  /-- What comes last. -/
  after : List Char
  before_blank : Text.Blank before
  gap_blank : Text.Blank gap
  gap_ne_nil : gap ≠ []
  agoGap_blank : Text.Blank agoGap
  agoGap_ne_nil : agoGap ≠ []
  after_blank : Text.Blank after

/-- Single spaces between words, and nothing around them. -/
def Layout.spaced : Layout where
  before := []
  plus := false
  gap := [' ']
  agoGap := [' ']
  after := []
  before_blank := nofun
  gap_blank := List.forall_mem_singleton.2 rfl
  gap_ne_nil := by decide
  agoGap_blank := List.forall_mem_singleton.2 rfl
  agoGap_ne_nil := by decide
  after_blank := nofun

/-- An amount and a unit in words, and perhaps `ago`. -/
def Layout.phrase (l : Layout) (amount unit : List Char) (ago : Bool) : List Char :=
  l.before ++ (amount ++ (l.gap ++ (unit ++
    ((if ago then l.agoGap ++ ['a', 'g', 'o'] else []) ++ l.after))))

/-- **The words of a phrase** are its amount and its unit, and perhaps `ago`. -/
theorem Layout.words_phrase (l : Layout) {amount unit : List Char} (hamount : Text.IsWord amount)
    (hunit : Text.IsWord unit) (ago : Bool) :
    Text.words (Text.lower (l.phrase amount unit ago)) =
      Text.lower amount :: Text.lower unit :: if ago then [['a', 'g', 'o']] else [] := by
  have hago : Text.IsWord ['a', 'g', 'o'] := Text.isWord_of_all (by decide) rfl
  rw [phrase, Text.lower_append, Text.lower_append, Text.lower_append, Text.lower_append,
    Text.words_blanks_append l.before_blank.lower,
    hamount.lower.words_append l.gap_blank.lower (Text.lower_ne_nil l.gap_ne_nil)]
  cases ago with
  | false =>
    rw [if_neg Bool.false_ne_true, if_neg Bool.false_ne_true, List.nil_append,
      Text.words_append_blanks l.after_blank.lower, hunit.lower.words_eq]
  | true =>
    rw [if_pos rfl, if_pos rfl, List.append_assoc, Text.lower_append,
      hunit.lower.words_append l.agoGap_blank.lower (Text.lower_ne_nil l.agoGap_ne_nil),
      Text.lower_append, Text.words_append_blanks l.after_blank.lower]
    exact congrArg _ (congrArg _ hago.words_eq)

/-- **A phrase is read as what its words say**, whatever the layout and the case of its letters. -/
theorem read_phrase {l : Layout} {amount unit cs : List Char} {n : Int} {u : TimeUnit} {ago : Bool}
    (hamount : Text.IsNumeral amount) (hn : amount? amount = some n)
    (hunit : Text.IsWord unit) (hu : TimeUnit.ofWord? (Text.lower unit) = some u)
    (hcs : Text.lower cs = Text.lower (l.phrase amount unit ago)) :
    read cs = .ok (if ago then negate ⟨n, u⟩ else ⟨n, u⟩) := by
  rw [read, hcs, l.words_phrase hamount.isWord hunit, hamount.lower_eq]
  cases ago <;> simp [ofWords?, hn, hu]

/-! ## The text of a span -/

/-- The word for the amount, with a plus if there is to be one and no minus. -/
def amountWord (s : Span) (plus : Bool) : List Char :=
  (if plus ∧ 0 ≤ s.amount then ['+'] else []) ++ (Number.int s.amount).text.toList

/-- The word for the unit, in the plural unless the amount is one either way. -/
def unitWord (s : Span) : List Char := (s.unit.word (decide (s.amount.natAbs ≠ 1))).toList

/-- The span in words, and perhaps `ago`. -/
def spelling (s : Span) (l : Layout) (ago : Bool) : List Char :=
  l.phrase (s.amountWord l.plus) s.unitWord ago

variable {s : Span}

/-- The text of a span has single spaces. -/
theorem toList_text (s : Span) : s.text.toList = s.spelling .spaced false := by
  have hunit : s.unitWord =
      s.unit.name.toList ++ (if s.amount.natAbs = 1 then "" else "s").toList := by
    rw [unitWord, TimeUnit.word, String.toList_append]
    by_cases h : s.amount.natAbs = 1 <;> simp [h]
  simp [text, spelling, Layout.phrase, amountWord, hunit, Layout.spaced]

theorem toList_text_ago (s : Span) : (s.text ++ " ago").toList = s.spelling .spaced true := by
  rw [String.toList_append, toList_text]
  simp [spelling, Layout.phrase, Layout.spaced]

theorem isNumeral_amountWord (s : Span) (plus : Bool) : Text.IsNumeral (s.amountWord plus) := by
  rw [amountWord]
  split
  · exact (Text.isNumeral_text _).cons (.inr rfl)
  · exact Text.isNumeral_text _

theorem amount?_amountWord (hs : s.Reversible) (plus : Bool) :
    amount? (s.amountWord plus) = some s.amount := by
  have hread : Text.integerOf? (s.amountWord plus) = some s.amount := by
    rw [amountWord]
    split
    · next h => exact Text.integerOf?_plus_text h.2
    · exact Text.integerOf?_text s.amount
  rw [amount?, hread]
  exact if_pos hs.fitsInt64

/-- **Spans are read as they are written**: the text of a span is read as the span, and with `ago`
behind it as the span in the other direction.  So is every other layout of the same words, in small
or capital letters. -/
theorem read_spelling (hs : s.Reversible) :
    read s.text.toList = .ok s ∧ read (s.text ++ " ago").toList = .ok s.negate ∧
      ∀ (l : Layout) (ago : Bool),
        read (Text.upper (s.spelling l ago)) = .ok (if ago then s.negate else s) ∧
          ∀ cs, Text.lower cs = Text.lower (s.spelling l ago) →
            read cs = .ok (if ago then s.negate else s) := by
  have hread (l : Layout) (ago : Bool) {cs : List Char}
      (hcs : Text.lower cs = Text.lower (s.spelling l ago)) :
      read cs = .ok (if ago then s.negate else s) := by
    refine read_phrase (s.isNumeral_amountWord _) (amount?_amountWord hs _)
      (TimeUnit.isWord_word ..) ?_ hcs
    rw [TimeUnit.lower_word, TimeUnit.ofWord?_word]
  refine ⟨?_, ?_, fun l ago ↦ ⟨hread l ago (Text.lower_upper _), fun cs ↦ hread l ago⟩⟩
  · rw [toList_text]
    exact hread .spaced false rfl
  · rw [toList_text_ago]
    exact hread .spaced true rfl

/-- As many quarters as can be. -/
def mostQuarters : Span := ⟨9223372036854775807, .quarter⟩

/-- A plus, a tab and a space between amount and unit, and blanks of two kinds around all. -/
def Layout.tabbed : Layout :=
  { Layout.spaced with
    before := ['\n']
    plus := true
    gap := ['\t', ' ']
    after := ['\u3000']
    before_blank := List.forall_mem_singleton.2 rfl
    gap_blank := List.forall_mem_cons.2 ⟨rfl, List.forall_mem_singleton.2 rfl⟩
    gap_ne_nil := by decide
    after_blank := List.forall_mem_singleton.2 rfl }

/-- The largest amount is read in capital letters, and turned around. -/
theorem read_mostQuarters : mostQuarters.Reversible ∧
    read "\n+9223372036854775807\t QUARTERS AGO\u3000".toList =
      .ok ⟨-9223372036854775807, .quarter⟩ := by
  have hs : mostQuarters.Reversible := by decide
  have htext : "\n+9223372036854775807\t QUARTERS AGO\u3000".toList =
      Text.upper (mostQuarters.spelling .tabbed true) := by decide +kernel
  refine ⟨hs, ?_⟩
  rw [htext]
  exact ((read_spelling hs).2.2 .tabbed true).1

end Span

end ChartFeed
