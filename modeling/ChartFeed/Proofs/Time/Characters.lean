import ChartFeed.Proofs.Time.Shorthand

/-!
# The characters of time expressions

What a reader of time expressions accepts is made of few characters, and not in every order.

* `Iso.Written` — digits, blanks, marks and some letters, where a colon comes only behind a digit;
* `Iso.written_strict`, `Iso.written_lenient`, `Iso.written_dateOnly` — all timestamps are written
  so, and the lenient forms tell which letters they have;
* `Iso.exists_written_of_read`, `Iso.Written.isDigit_getLast` — so no colon of a timestamp is first,
  or behind a blank;
* `Moment.plain_of_ofName?`, `Moment.plain_of_ofCount?` — names and counts have no colons and no
  dashes at all, `Moment.ofExpression?_of_not_plain`: what has one is a timestamp or nothing.
-/

set_option autoImplicit false

namespace ChartFeed

/-! ## Timestamps -/

namespace Iso

variable {cs rest letters : List Char} {digit : Bool}

theorem isDigit_eq (c : Char) : isDigit c = c.isDigit := by
  rw [Bool.eq_iff_iff, isDigit, Text.digit?, Char.isDigit]
  split
  · next h => simpa [Char.le_def, UInt32.le_iff_toNat_le] using h
  · next h => simpa [Char.le_def, UInt32.le_iff_toNat_le] using h

theorem isDigit_eq_false_of_isBlank {c : Char} (h : Text.isBlank c = true) : isDigit c = false := by
  rw [← Bool.not_eq_true, isDigit_eq]
  intro hdigit
  exact Bool.false_ne_true ((isBlank_of_isDigit hdigit).symm.trans h)

theorem isAlpha_eq_false_of_isDigit {c : Char} (h : isDigit c = true) : c.isAlpha = false := by
  obtain ⟨d, hd, rfl⟩ := Text.exists_digitChar ((isDigit_eq c).symm.trans h)
  interval_cases d <;> rfl

/-- A mark of a timestamp other than the colon. -/
def IsMark (c : Char) : Prop := c = '-' ∨ c = '+' ∨ c = '.' ∨ c = Char.ofNat 0x2212

/-- A text of digits, blanks and marks, and of these letters in this order.  A colon comes only
behind a digit; `digit` tells whether one stands before the text. -/
inductive Written : Bool → List Char → List Char → Prop where
  | nil {digit : Bool} : Written digit [] []
  | digit {digit : Bool} {letters cs : List Char} {c : Char} (hc : isDigit c = true)
    (h : Written true letters cs) : Written digit letters (c :: cs)
  | blank {digit : Bool} {letters cs : List Char} {c : Char} (hc : Text.isBlank c = true)
    (h : Written false letters cs) : Written digit letters (c :: cs)
  | mark {digit : Bool} {letters cs : List Char} {c : Char} (hc : IsMark c)
    (h : Written false letters cs) : Written digit letters (c :: cs)
  | colon {letters cs : List Char} (h : Written false letters cs) :
    Written true letters (':' :: cs)
  | letter {digit : Bool} {letters cs : List Char} {c : Char} (hc : c.isAlpha = true)
    (h : Written false letters cs) : Written digit (c :: letters) (c :: cs)

namespace Written

theorem digits_append {digits : List Char} (hne : digits ≠ [])
    (hdigits : ∀ c ∈ digits, isDigit c = true) (h : Written true letters rest) (digit : Bool) :
    Written digit letters (digits ++ rest) := by
  induction digits generalizing digit with
  | nil => exact absurd rfl hne
  | cons c digits ih =>
    obtain ⟨hc, hdigits⟩ := List.forall_mem_cons.1 hdigits
    refine .digit hc ?_
    by_cases hnil : digits = []
    · rw [hnil]
      exact h
    · exact ih hnil hdigits true

theorem blanks_append {blanks : List Char} (hblanks : Text.Blank blanks)
    (h : ∀ digit, Written digit letters rest) (digit : Bool) :
    Written digit letters (blanks ++ rest) := by
  induction blanks generalizing digit with
  | nil => exact h digit
  | cons c blanks ih =>
    obtain ⟨hc, hblanks⟩ := List.forall_mem_cons.1 hblanks
    exact .blank hc (ih hblanks false)

theorem of_trimStart (h : ∀ digit, Written digit letters (Text.trimStart cs)) (digit : Bool) :
    Written digit letters cs := by
  have hblanks : Text.Blank (cs.takeWhile Text.isBlank) := fun _ hc ↦ List.mem_takeWhile_imp hc
  have happend := blanks_append hblanks h digit
  rwa [Text.trimStart, List.takeWhile_append_dropWhile] at happend

/-! ### What stands before what is left -/

theorem of_takeDigits {most : ℕ} (hne : (takeDigits most cs).1 ≠ [])
    (h : Written true letters (takeDigits most cs).2) (digit : Bool) :
    Written digit letters cs := by
  have hprefix : (takeDigits most cs).1 <+: cs :=
    (List.takeWhile_prefix _).trans (List.take_prefix _ _)
  have happend := digits_append hne (fun c hc ↦ List.mem_takeWhile_imp hc) h digit
  have hcs : (takeDigits most cs).1 ++ (takeDigits most cs).2 = cs :=
    List.prefix_iff_eq_append.1 hprefix
  rwa [hcs] at happend

theorem of_exactly {width n : ℕ} (hwidth : width ≠ 0) (hread : exactly width cs = some (n, rest))
    (h : Written true letters rest) (digit : Bool) : Written digit letters cs := by
  rw [exactly] at hread
  obtain ⟨hlength, heq⟩ := Option.ite_none_right_eq_some.1 hread
  cases heq
  refine of_takeDigits (fun hnil ↦ hwidth (hlength.symm.trans ?_)) h digit
  exact List.length_eq_zero_iff.2 hnil

theorem of_upTo {width n : ℕ} (hread : upTo width cs = some (n, rest))
    (h : Written true letters rest) (digit : Bool) : Written digit letters cs := by
  rw [upTo] at hread
  obtain ⟨hne, heq⟩ := Option.ite_none_left_eq_some.1 hread
  cases heq
  exact of_trimStart (of_takeDigits (fun hnil ↦ hne (List.isEmpty_iff.2 hnil)) h) digit

theorem of_lenientYear {year : ℤ} (hread : lenientYear cs = some (year, rest))
    (h : Written true letters rest) (digit : Bool) : Written digit letters cs := by
  have hsigned {ds : List Char} {sign : ℤ → ℤ}
      (hread : lenientYear.signed ds sign = some (year, rest)) : Written false letters ds := by
    rw [lenientYear.signed] at hread
    obtain ⟨hne, heq⟩ := Option.ite_none_left_eq_some.1 hread
    cases heq
    exact of_takeDigits (fun hnil ↦ hne (List.isEmpty_iff.2 hnil)) h false
  refine of_trimStart (fun digit ↦ ?_) digit
  rw [lenientYear] at hread
  split at hread
  · next heq => exact heq ▸ .mark (.inl rfl) (hsigned hread)
  · next heq => exact heq ▸ .mark (.inr (.inl rfl)) (hsigned hread)
  · obtain ⟨⟨n, rest'⟩, hread, heq⟩ := Option.map_eq_some_iff.1 hread
    cases heq
    exact of_upTo hread h digit

end Written

theorem expect_eq_some_iff {c : Char} : expect c cs = some rest ↔ cs = c :: rest := by
  cases cs with
  | nil => simp [expect]
  | cons d cs =>
    rw [expect, Option.ite_none_right_eq_some, Option.some.injEq, List.cons.injEq]

namespace Written

theorem of_dash (hread : expect '-' cs = some rest) (h : Written false letters rest)
    (digit : Bool) : Written digit letters cs :=
  expect_eq_some_iff.1 hread ▸ .mark (.inl rfl) h

theorem of_colon (hread : expect ':' cs = some rest) (h : Written false letters rest) :
    Written true letters cs :=
  expect_eq_some_iff.1 hread ▸ .colon h

theorem of_fraction {nanos : ℕ} (hread : fraction cs = some (nanos, rest))
    (h : Written true letters rest) : Written true letters cs := by
  unfold fraction at hread
  split at hread
  · obtain ⟨hne, heq⟩ := Option.ite_none_left_eq_some.1 hread
    cases heq
    exact .mark (.inr (.inr (.inl rfl)))
      (of_takeDigits (fun hnil ↦ hne (List.isEmpty_iff.2 hnil)) h false)
  · cases hread
    exact h

theorem of_minutes {minutes : ℤ} (hread : offset.minutes cs = some (minutes, rest))
    (h : Written true letters rest) : Written false letters cs := by
  rw [offset.minutes] at hread
  obtain ⟨⟨hours, cs₁⟩, hhours, hread⟩ := Option.bind_eq_some_iff.1 hread
  obtain ⟨cs₂, hcolon, hread⟩ := Option.bind_eq_some_iff.1 hread
  obtain ⟨⟨minutes', cs₃⟩, hminutes, hread⟩ := Option.bind_eq_some_iff.1 hread
  cases (Option.ite_none_right_eq_some.1 hread).2
  exact of_exactly two_ne_zero hhours (of_colon hcolon (of_exactly two_ne_zero hminutes h _)) _

theorem of_offset {minutes : ℤ} (hread : offset cs = some (minutes, [])) :
    ∃ letters, Written true letters cs := by
  cases cs with
  | nil => cases hread
  | cons c cs =>
    rw [offset] at hread
    split at hread
    · next hc =>
      cases hread
      exact ⟨[c], .letter (by rcases hc with rfl | rfl <;> rfl) .nil⟩
    split at hread
    · next hc =>
      obtain ⟨⟨n, rest⟩, hread, heq⟩ := Option.map_eq_some_iff.1 hread
      cases heq
      exact ⟨[], .mark (.inr (.inl hc)) (of_minutes hread .nil)⟩
    · obtain ⟨hc, hread⟩ := Option.ite_none_right_eq_some.1 hread
      obtain ⟨⟨n, rest⟩, hread, heq⟩ := Option.map_eq_some_iff.1 hread
      cases heq
      exact ⟨[], .mark (hc.imp_right fun h ↦ .inr (.inr h)) (of_minutes hread .nil)⟩

theorem of_lenientDate {date : Date} (hread : lenientDate cs = some (date, rest))
    (h : Written true letters rest) (digit : Bool) : Written digit letters cs := by
  rw [lenientDate] at hread
  obtain ⟨⟨year, cs₁⟩, hyear, hread⟩ := Option.bind_eq_some_iff.1 hread
  obtain ⟨cs₂, hdash, hread⟩ := Option.bind_eq_some_iff.1 hread
  obtain ⟨⟨month, cs₃⟩, hmonth, hread⟩ := Option.bind_eq_some_iff.1 hread
  obtain ⟨cs₄, hdash', hread⟩ := Option.bind_eq_some_iff.1 hread
  obtain ⟨⟨day, cs₅⟩, hday, hread⟩ := Option.bind_eq_some_iff.1 hread
  obtain ⟨-, rfl⟩ := Prod.mk.inj (Option.some.inj hread)
  exact of_lenientYear hyear (of_dash hdash (of_upTo hmonth
    (of_dash hdash' (of_upTo hday h _) _) _) _) _

end Written

variable {t : Instant}

theorem written_dateOnly (h : dateOnly cs = some t) : Written false [] cs := by
  rw [dateOnly] at h
  obtain ⟨⟨date, rest⟩, hdate, h⟩ := Option.bind_eq_some_iff.1 h
  obtain ⟨hend, -⟩ := Option.ite_none_right_eq_some.1 h
  obtain rfl : rest = [] := List.isEmpty_iff.1 hend
  exact .of_lenientDate hdate .nil _

/-- The time of day behind a date, which ends the text. -/
def timeOfDay (withSeconds : Bool) (date : Date) (cs : List Char) : Option Instant := do
  let (hour, cs) ← upTo 2 cs
  let cs ← expect ':' cs
  let (minute, cs) ← upTo 2 cs
  if withSeconds then
    let cs ← expect ':' cs
    let (second, cs) ← upTo 2 cs
    let (nanos, cs) ← fraction cs
    if cs.isEmpty then Clock.toInstant? ⟨date, hour, minute, second, nanos, 0⟩ else none
  else if cs.isEmpty then Clock.toInstant? ⟨date, hour, minute, 0, 0, 0⟩
  else none

/-- The lenient forms are a date, what may stand behind it, and a time of day. -/
theorem lenient_eq (letter withSeconds : Bool) (cs : List Char) :
    lenient letter withSeconds cs = (lenientDate cs).bind fun read ↦
      (if letter then expect 'T' read.2 else some (Text.trimStart read.2)).bind
        (timeOfDay withSeconds read.1) := by
  cases letter <;> rfl

theorem written_timeOfDay {withSeconds : Bool} {date : Date}
    (h : timeOfDay withSeconds date cs = some t) (digit : Bool) : Written digit [] cs := by
  rw [timeOfDay] at h
  obtain ⟨⟨hour, cs₁⟩, hhour, h⟩ := Option.bind_eq_some_iff.1 h
  obtain ⟨cs₂, hcolon, h⟩ := Option.bind_eq_some_iff.1 h
  obtain ⟨⟨minute, cs₃⟩, hminute, h⟩ := Option.bind_eq_some_iff.1 h
  have hend : Written true [] cs₃ := by
    cases withSeconds with
    | false =>
      obtain ⟨hend, -⟩ := Option.ite_none_right_eq_some.1 h
      obtain rfl : cs₃ = [] := List.isEmpty_iff.1 hend
      exact .nil
    | true =>
      obtain ⟨cs₄, hcolon', h⟩ := Option.bind_eq_some_iff.1 h
      obtain ⟨⟨second, cs₅⟩, hsecond, h⟩ := Option.bind_eq_some_iff.1 h
      obtain ⟨⟨nanos, cs₆⟩, hfraction, h⟩ := Option.bind_eq_some_iff.1 h
      obtain ⟨hend, -⟩ := Option.ite_none_right_eq_some.1 h
      obtain rfl : cs₆ = [] := List.isEmpty_iff.1 hend
      exact .of_colon hcolon' (.of_upTo hsecond (.of_fraction hfraction .nil) _)
  exact .of_upTo hhour (.of_colon hcolon (.of_upTo hminute hend _)) _

/-- **The lenient forms** have one letter, or none. -/
theorem written_lenient {letter withSeconds : Bool} (h : lenient letter withSeconds cs = some t) :
    Written false (if letter then ['T'] else []) cs := by
  rw [lenient_eq] at h
  obtain ⟨⟨date, rest⟩, hdate, h⟩ := Option.bind_eq_some_iff.1 h
  obtain ⟨time, hmark, htime⟩ := Option.bind_eq_some_iff.1 h
  cases letter with
  | false =>
    cases hmark
    exact .of_lenientDate hdate (.of_trimStart (written_timeOfDay htime) _) _
  | true =>
    obtain rfl : rest = 'T' :: time := expect_eq_some_iff.1 hmark
    exact .of_lenientDate hdate (.letter rfl (written_timeOfDay htime _)) _

theorem written_strict (h : strict cs = some t) : ∃ letters, Written false letters cs := by
  rw [strict] at h
  obtain ⟨⟨year, cs₁⟩, hyear, h⟩ := Option.bind_eq_some_iff.1 h
  obtain ⟨cs₂, hdash, h⟩ := Option.bind_eq_some_iff.1 h
  obtain ⟨⟨month, cs₃⟩, hmonth, h⟩ := Option.bind_eq_some_iff.1 h
  obtain ⟨cs₄, hdash', h⟩ := Option.bind_eq_some_iff.1 h
  obtain ⟨⟨day, cs₅⟩, hday, h⟩ := Option.bind_eq_some_iff.1 h
  obtain ⟨cs₆, hmark, h⟩ := Option.bind_eq_some_iff.1 h
  obtain ⟨⟨hour, cs₇⟩, hhour, h⟩ := Option.bind_eq_some_iff.1 h
  obtain ⟨cs₈, hcolon, h⟩ := Option.bind_eq_some_iff.1 h
  obtain ⟨⟨minute, cs₉⟩, hminute, h⟩ := Option.bind_eq_some_iff.1 h
  obtain ⟨cs₁₀, hcolon', h⟩ := Option.bind_eq_some_iff.1 h
  obtain ⟨⟨second, cs₁₁⟩, hsecond, h⟩ := Option.bind_eq_some_iff.1 h
  obtain ⟨⟨nanos, cs₁₂⟩, hfraction, h⟩ := Option.bind_eq_some_iff.1 h
  obtain ⟨⟨minutes, cs₁₃⟩, hoffset, h⟩ := Option.bind_eq_some_iff.1 h
  obtain ⟨hend, -⟩ := Option.ite_none_right_eq_some.1 h
  rw [List.isEmpty_iff.1 hend] at hoffset
  obtain ⟨letters, hoffset⟩ := Written.of_offset hoffset
  have htime : Written false letters cs₆ :=
    .of_exactly two_ne_zero hhour (.of_colon hcolon (.of_exactly two_ne_zero hminute
      (.of_colon hcolon' (.of_exactly two_ne_zero hsecond (.of_fraction hfraction hoffset) _)) _)) _
  obtain ⟨letters', hmark⟩ : ∃ letters', Written true letters' cs₅ := by
    simp only [Option.orElse_eq_orElse, Option.orElse_eq_or, Option.or_eq_some_iff,
      expect_eq_some_iff] at hmark
    rcases hmark with rfl | ⟨-, rfl | ⟨-, rfl⟩⟩
    · exact ⟨_, .letter rfl htime⟩
    · exact ⟨_, .letter rfl htime⟩
    · exact ⟨_, .blank rfl htime⟩
  exact ⟨_, .of_exactly four_ne_zero hyear (.of_dash hdash (.of_exactly two_ne_zero hmonth
    (.of_dash hdash' (.of_exactly two_ne_zero hday hmark _) _) _) _) _⟩

/-- **Every timestamp is written so**, some blanks around it apart. -/
theorem exists_written_of_read (h : read cs = some t) :
    ∃ letters, Written false letters (Text.trim cs) := by
  simp only [read, Option.orElse_eq_orElse, Option.orElse_eq_or, Option.or_eq_some_iff] at h
  rcases h with h | ⟨-, h | ⟨-, h | ⟨-, h | ⟨-, h | ⟨-, h⟩⟩⟩⟩⟩
  · exact written_strict h
  · exact ⟨_, written_lenient h⟩
  · exact ⟨_, written_lenient h⟩
  · exact ⟨_, written_lenient h⟩
  · exact ⟨_, written_lenient h⟩
  · exact ⟨_, written_dateOnly h⟩

/-- **A colon comes only behind a digit.** -/
theorem Written.isDigit_getLast {before after : List Char}
    (h : Written digit letters (before ++ ':' :: after)) :
    (before.getLast?.map isDigit).getD digit = true := by
  induction before generalizing digit letters with
  | nil =>
    generalize hcs : [] ++ ':' :: after = cs at h
    cases h with
    | nil => cases hcs
    | digit hc => cases hcs; cases hc
    | blank hc => cases hcs; cases hc
    | mark hc => cases hcs; rcases hc with h | h | h | h <;> cases h
    | colon => rfl
    | letter hc => cases hcs; cases hc
  | cons c before ih =>
    -- what stands before the rest of the text is the first character
    have hlast {digit' : Bool} (h : (before.getLast?.map isDigit).getD digit' = true)
        (hc : isDigit c = digit') : ((c :: before).getLast?.map isDigit).getD digit = true := by
      cases before with
      | nil => exact hc.trans h
      | cons d before =>
        rw [List.getLast?_cons_cons]
        rwa [List.getLast?_cons] at h ⊢
    rw [List.cons_append] at h
    cases h with
    | digit hc h => exact hlast (ih h) hc
    | blank hc h => exact hlast (ih h) (isDigit_eq_false_of_isBlank hc)
    | mark hc h => exact hlast (ih h) (by rcases hc with rfl | rfl | rfl | rfl <;> rfl)
    | colon h => exact hlast (ih h) rfl
    | letter hc h =>
      refine hlast (ih h) (Bool.eq_false_of_not_eq_true fun hdigit ↦ ?_)
      exact Bool.false_ne_true ((isAlpha_eq_false_of_isDigit hdigit).symm.trans hc)

end Iso

/-! ## Names and counts -/

open Iso (Plain)

/-- What spells a natural is digits. -/
theorem Text.isDigit_of_naturalOf? {cs : List Char} {n : ℕ} (h : naturalOf? cs = some n) :
    ∀ c ∈ cs, Iso.isDigit c = true := by
  rw [naturalOf?] at h
  replace h := (Option.ite_none_left_eq_some.1 h).2
  -- nothing is spelled by digits behind what is none
  have hnone (cs : List Char) : cs.foldl
      (fun n c ↦ n.bind fun n ↦ (digit? c).map fun d ↦ 10 * n + d) none = none := by
    induction cs with
    | nil => rfl
    | cons c cs ih => exact ih
  generalize 0 = start at h
  induction cs generalizing start with
  | nil => exact fun c hc ↦ absurd hc List.not_mem_nil
  | cons c cs ih =>
    rw [List.foldl_cons, Option.bind_some] at h
    cases hc : digit? c with
    | none =>
      rw [hc, Option.map_none, hnone] at h
      cases h
    | some d =>
      rw [hc, Option.map_some] at h
      exact List.forall_mem_cons.2 ⟨by rw [Iso.isDigit, hc]; rfl, ih _ h⟩

namespace Iso

variable {cs : List Char}

theorem plain_of_isDigit (h : ∀ c ∈ cs, isDigit c = true) : Plain cs := by
  intro c hc
  have hdigit := h c hc
  constructor <;> rintro rfl <;> cases hdigit

/-- A text is plain when its words in small letters are. -/
theorem plain_of_words (h : ∀ word ∈ Text.words (Text.lower cs), Plain word) : Plain cs := by
  have hne {d : Char} (hd : Text.isBlank d = false) (hlower : d.toLower = d)
      (hplain : ∀ word ∈ Text.words (Text.lower cs), d ∉ word) : ∀ c ∈ cs, c ≠ d := by
    rintro c hc rfl
    obtain ⟨word, hword, hmem⟩ :=
      Text.exists_mem_words hd (hlower ▸ List.mem_map_of_mem (f := Char.toLower) hc)
    exact hplain word hword hmem
  intro c hc
  exact ⟨hne rfl rfl (fun word hword ↦ (h word hword).dash_not_mem) c hc,
    hne rfl rfl (fun word hword ↦ (h word hword).colon_not_mem) c hc⟩

end Iso

namespace TimeUnit

variable {word : List Char} {u : TimeUnit}

theorem plain_of_ofName? (h : ofName? word = some u) : Plain word := by
  have hword {s : String} (hs : String.ofList word = s) : word = s.toList :=
    hs ▸ String.toList_ofList.symm
  unfold ofName? at h
  split at h
  case h_11 => cases h
  all_goals
    next heq =>
      rw [hword heq]
      simp [Plain]

theorem plain_of_ofWord? (h : ofWord? word = some u) : Plain word := by
  have hplain := plain_of_ofName? h
  rw [singular] at hplain
  split at hplain
  · next hs =>
    rw [← List.dropLast_append_getLast? _ hs.2]
    exact hplain.append (by simp [Plain])
  · exact hplain

end TimeUnit

namespace Moment

variable {cs : List Char} {words : List (List Char)} {m : Moment}

theorem plain_of_ofName? (h : ofName? (Text.words (Text.lower cs)) = some m) : Plain cs := by
  refine Iso.plain_of_words ?_
  generalize Text.words (Text.lower cs) = words at h
  unfold ofName? at h
  split at h
  · simp [Plain]
  · obtain ⟨days, hdays, -⟩ := Option.map_eq_some_iff.1 h
    rw [List.forall_mem_singleton]
    unfold midnight? at hdays
    split at hdays
    case h_4 => cases hdays
    all_goals simp [Plain]
  · cases h

theorem plain_of_ofCount? (h : ofCount? (Text.words (Text.lower cs)) = some m) : Plain cs := by
  refine Iso.plain_of_words ?_
  generalize Text.words (Text.lower cs) = words at h
  unfold ofCount? at h
  split at h
  · next word unit =>
    obtain ⟨n, hn, h⟩ := Option.bind_eq_some_iff.1 h
    obtain ⟨u, hu, -⟩ := Option.bind_eq_some_iff.1 h
    have hword : Plain word := by
      unfold neighbour? at hn
      split at hn
      case h_3 => cases hn
      all_goals simp [Plain]
    simp only [List.forall_mem_cons]
    exact ⟨hword, TimeUnit.plain_of_ofName? hu, List.forall_mem_nil _⟩
  · next amount unit rest _ =>
    obtain ⟨turn, hturn, h⟩ := Option.bind_eq_some_iff.1 h
    obtain ⟨n, hn, h⟩ := Option.bind_eq_some_iff.1 h
    obtain ⟨u, hu, -⟩ := Option.bind_eq_some_iff.1 h
    obtain ⟨k, hk, -⟩ := Option.bind_eq_some_iff.1 hn
    have hrest : ∀ word ∈ rest, Plain word := by
      unfold turn? at hturn
      split at hturn
      case h_4 => cases hturn
      all_goals simp [Plain]
    exact List.forall_mem_cons.2 ⟨Iso.plain_of_isDigit (Text.isDigit_of_naturalOf? hk),
      List.forall_mem_cons.2 ⟨TimeUnit.plain_of_ofWord? hu, hrest⟩⟩
  · cases h

/-- **What has a colon or a dash** is a timestamp or nothing. -/
theorem ofExpression?_of_not_plain (h : ¬ Plain cs) :
    ofExpression? cs = (Iso.read cs).map .absolute := by
  have hname : ofName? (Text.words (Text.lower cs)) = none :=
    Option.eq_none_iff_forall_ne_some.2 fun m hm ↦ h (plain_of_ofName? hm)
  have hcount : ofCount? (Text.words (Text.lower cs)) = none :=
    Option.eq_none_iff_forall_ne_some.2 fun m hm ↦ h (plain_of_ofCount? hm)
  rw [ofExpression?, hname, hcount]
  cases Iso.read cs <;> rfl

end Moment

/-- **A timestamp** is read as its instant. -/
theorem TimeExpression.read_of_iso_read {cs : List Char} {t : Instant} (h : Iso.read cs = some t)
    (now : Instant) : read cs now = .ok t := by
  have hplain : ¬ Plain cs := by
    intro hplain
    rw [Iso.read_eq_none hplain.dash_not_mem] at h
    cases h
  rw [read, Moment.ofExpression?_of_not_plain hplain, h]
  rfl

/-- An amount and a unit alone have no marks either. -/
theorem TimeRange.plain_of_isBareSpan {cs : List Char} (h : isBareSpan cs = true) : Plain cs := by
  have hplain {word : List Char} {p : Char → Bool} (hdash : p '-' = false) (hcolon : p ':' = false)
      (hword : word.all p = true) : Plain word := by
    intro c hc
    have hp := List.all_eq_true.1 hword c hc
    constructor <;> rintro rfl <;> simp_all
  refine Iso.plain_of_words ?_
  unfold isBareSpan at h
  split at h
  · next amount unit heq =>
    obtain ⟨hamount, hunit⟩ := (Bool.and_eq_true _ _).mp h
    rw [heq]
    simp only [List.forall_mem_cons]
    exact ⟨hplain rfl rfl hamount, hplain rfl rfl hunit, List.forall_mem_nil _⟩
  · cases h

end ChartFeed
