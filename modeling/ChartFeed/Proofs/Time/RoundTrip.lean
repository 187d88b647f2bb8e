import ChartFeed.Proofs.Decimal.Unambiguous
import ChartFeed.Proofs.Text.Digit
import ChartFeed.Proofs.Time.Reading

/-!
# Timestamps are read as the instants that were written

The stored form of an instant is a text with the offset of universal time, and is read with more
liberty than it is written.  Every instant in range is read back, leap seconds and years of more
than four digits included.

## What is here

* `Iso.Padded` — the digits of a number that is written with leading zeros;
* `Iso.takeDigits_append`, `Iso.upTo_append`, `Iso.lenientYear_yearText`, … — each part of a
  timestamp is read back in front of what follows it;
* `Instant.toInstant?_clock` — the numbers on the clock of an instant in range are those of it;
* `Iso.relaxed_isoText` — so the whole text is read back.
-/

set_option autoImplicit false

namespace ChartFeed

open Decimal (AllDigits allDigits_toDigits allDigits_replicate_zero)

/-! ## Digits -/

namespace Iso

/-- The digits that a natural is written in, with leading zeros. -/
structure Padded (n : ℕ) (digits : List Char) : Prop where
  allDigits : AllDigits digits
  value : valueOf digits = n
  ne_nil : digits ≠ []

theorem isDigit_of_isDigit {c : Char} (h : c.isDigit = true) : isDigit c = true := by
  rw [isDigit, Text.digit?_of_isDigit h]
  rfl

theorem valueOf_eq {digits : List Char} (h : AllDigits digits) :
    valueOf digits = Nat.ofDigitChars 10 digits 0 := by
  rw [valueOf, Nat.ofDigitChars_eq_foldl]
  refine List.foldl_ext _ _ _ fun n c hc ↦ ?_
  rw [Text.digit?_of_isDigit (h c hc), Option.getD_some]

theorem toList_zeroPadded (width n : ℕ) : (zeroPadded width n).toList =
    List.replicate (width - (Nat.toDigits 10 n).length) '0' ++ Nat.toDigits 10 n := by
  rw [zeroPadded, String.toList_ofList]

theorem padded_zeroPadded (width n : ℕ) : Padded n (zeroPadded width n).toList := by
  have hall : AllDigits (zeroPadded width n).toList := by
    rw [toList_zeroPadded]
    exact (allDigits_replicate_zero _).append (allDigits_toDigits n)
  refine ⟨hall, ?_, ?_⟩
  · rw [valueOf_eq hall, toList_zeroPadded, Nat.ofDigitChars_append,
      Nat.ofDigitChars_replicate_zero, Nat.mul_zero, Nat.ofDigitChars_ten_toDigits]
  · rw [toList_zeroPadded]
    exact List.append_ne_nil_of_right_ne_nil _ Nat.toDigits_ne_nil

/-- A natural that fits is written in this many digits. -/
theorem length_zeroPadded {width n : ℕ} (hwidth : 0 < width) (h : n < 10 ^ width) :
    (zeroPadded width n).toList.length = width := by
  have hle : (Nat.toDigits 10 n).length ≤ width :=
    (Nat.length_toDigits_le_iff (by decide) hwidth).2 h
  rw [toList_zeroPadded, List.length_append, List.length_replicate]
  omega

/-- Digits are taken up to the limit, or up to what is no digit. -/
theorem takeDigits_append (most : ℕ) {digits : List Char} (rest : List Char)
    (h : AllDigits digits) (hmost : digits.length ≤ most)
    (hend : digits.length = most ∨ ∀ c ∈ rest.head?, isDigit c = false) :
    takeDigits most (digits ++ rest) = (digits, rest) := by
  have hall : ∀ c ∈ digits, isDigit c = true := fun c hc ↦ isDigit_of_isDigit (h c hc)
  have htaken : ((digits ++ rest).take most).takeWhile isDigit = digits := by
    have hrest : (rest.take (most - digits.length)).takeWhile isDigit = [] := by
      rcases hend with hend | hend
      · simp [hend]
      · cases rest with
        | nil => simp
        | cons c rest => cases most - digits.length <;> simp [hend c rfl]
    rw [List.take_append, List.take_of_length_le hmost, List.takeWhile_append_of_pos hall, hrest,
      List.append_nil]
  rw [takeDigits, htaken, List.drop_left]

theorem isBlank_of_isDigit {c : Char} (h : c.isDigit = true) : Text.isBlank c = false := by
  obtain ⟨d, hd, rfl⟩ := Text.exists_digitChar h
  interval_cases d <;> rfl

theorem trimStart_cons {c : Char} (h : Text.isBlank c = false) (cs : List Char) :
    Text.trimStart (c :: cs) = c :: cs := by
  simp [Text.trimStart, h]

theorem trimStart_digits {digits : List Char} (h : AllDigits digits) (hne : digits ≠ [])
    (rest : List Char) : Text.trimStart (digits ++ rest) = digits ++ rest := by
  obtain ⟨c, cs, rfl⟩ := List.exists_cons_of_ne_nil hne
  exact trimStart_cons (isBlank_of_isDigit (h c (List.mem_cons_self ..))) _

/-- A number in its full width is read back. -/
theorem upTo_zeroPadded (width : ℕ) {n : ℕ} (hwidth : 0 < width) (h : n < 10 ^ width)
    (rest : List Char) : upTo width ((zeroPadded width n).toList ++ rest) = some (n, rest) := by
  have hpadded := padded_zeroPadded width n
  have hlength := length_zeroPadded hwidth h
  rw [upTo, trimStart_digits hpadded.allDigits hpadded.ne_nil,
    takeDigits_append _ _ hpadded.allDigits hlength.le (.inl hlength)]
  simp [hpadded.ne_nil, hpadded.value]

theorem expect_self (c : Char) (rest : List Char) : expect c (c :: rest) = some rest :=
  if_pos rfl

/-- A year in its four digits is read back. -/
theorem lenientYear_zeroPadded {n : ℕ} (h : n < 10 ^ 4) (rest : List Char) :
    lenientYear ((zeroPadded 4 n).toList ++ rest) = some ((n : ℤ), rest) := by
  have hpadded := padded_zeroPadded 4 n
  have hread := upTo_zeroPadded 4 (by decide) h rest
  obtain ⟨c, cs, hcons⟩ := List.exists_cons_of_ne_nil hpadded.ne_nil
  have hc : c.isDigit = true := hpadded.allDigits c (by simp [hcons])
  have hminus : c ≠ '-' := by rintro rfl; cases hc
  have hplus : c ≠ '+' := by rintro rfl; cases hc
  rw [lenientYear, trimStart_digits hpadded.allDigits hpadded.ne_nil]
  rw [hcons, List.cons_append] at hread ⊢
  split
  · next heq => exact absurd (List.head_eq_of_cons_eq heq) hminus
  · next heq => exact absurd (List.head_eq_of_cons_eq heq) hplus
  · rw [hread]
    rfl

theorem lenientYear_minus (cs : List Char) :
    lenientYear ('-' :: cs) = lenientYear.signed cs fun n ↦ -n := by
  rw [lenientYear, trimStart_cons rfl]
  rfl

theorem lenientYear_plus (cs : List Char) :
    lenientYear ('+' :: cs) = lenientYear.signed cs id := by
  rw [lenientYear, trimStart_cons rfl]
  rfl

/-- All the digits behind a sign are read back. -/
theorem signed_zeroPadded (n : ℕ) (sign : ℤ → ℤ) (rest : List Char) :
    lenientYear.signed ((zeroPadded 4 n).toList ++ '-' :: rest) sign =
      some (sign n, '-' :: rest) := by
  have hpadded := padded_zeroPadded 4 n
  rw [lenientYear.signed, takeDigits_append _ _ hpadded.allDigits (by simp)
    (.inr fun c hc ↦ by cases hc; rfl)]
  simp [hpadded.ne_nil, hpadded.value]

/-- A year of any length is read back in front of a hyphen. -/
theorem lenientYear_yearText (year : ℤ) (rest : List Char) :
    lenientYear ((yearText year).toList ++ '-' :: rest) = some (year, '-' :: rest) := by
  rw [yearText]
  split
  · next h =>
    rw [lenientYear_zeroPadded (by omega), Int.toNat_of_nonneg h.1]
  · next h =>
    rw [String.toList_append, List.append_assoc]
    by_cases hneg : year < 0
    · have hsign : "-".toList = ['-'] := rfl
      have habs : -(year.natAbs : ℤ) = year := by omega
      rw [if_pos hneg, hsign, List.singleton_append, lenientYear_minus, signed_zeroPadded, habs]
    · have hsign : "+".toList = ['+'] := rfl
      have habs : (year.natAbs : ℤ) = year := by omega
      rw [if_neg hneg, hsign, List.singleton_append, lenientYear_plus, signed_zeroPadded, id, habs]

/-- The digits behind a point are read back as nanoseconds. -/
theorem fraction_point {width n : ℕ} (hwidth : 0 < width) (hnine : width ≤ 9)
    (h : n < 10 ^ width) (rest : List Char) :
    fraction (("." ++ zeroPadded width n).toList ++ 'Z' :: rest) =
      some (n * 10 ^ (9 - width), 'Z' :: rest) := by
  have hpadded := padded_zeroPadded width n
  have hlength := length_zeroPadded hwidth h
  have hdigits := takeDigits_append ((zeroPadded width n).toList ++ 'Z' :: rest).length
    ('Z' :: rest) hpadded.allDigits (by simp) (.inr fun c hc ↦ by cases hc; rfl)
  have hnanos : nanosOf (zeroPadded width n).toList = n * 10 ^ (9 - width) := by
    simp only [nanosOf]
    rw [List.take_of_length_le (by omega), hpadded.value, hlength]
    rfl
  have hlist : ("." ++ zeroPadded width n).toList ++ 'Z' :: rest =
      '.' :: ((zeroPadded width n).toList ++ 'Z' :: rest) := by
    rw [String.toList_append]
    rfl
  rw [hlist, fraction, hdigits]
  simp [hpadded.ne_nil, hnanos]

/-- The fraction of a second is read back in front of the letter for universal time. -/
theorem fraction_fractionText {nanos : ℕ} (h : nanos < Instant.nanosPerSecond) :
    fraction ((fractionText nanos).toList ++ ['Z']) = some (nanos, ['Z']) := by
  rw [Instant.nanosPerSecond] at h
  rw [fractionText]
  split
  · next hzero =>
    rw [hzero]
    rfl
  split
  · next hmillis =>
    rw [fraction_point (by decide) (by decide) (by omega)]
    have : nanos / 1000000 * 10 ^ (9 - 3) = nanos := by omega
    rw [this]
  split
  · next hmicros =>
    rw [fraction_point (by decide) (by decide) (by omega)]
    have : nanos / 1000 * 10 ^ (9 - 6) = nanos := by omega
    rw [this]
  · rw [fraction_point (by decide) (by decide) (by omega)]
    simp

theorem relaxedOffset_universal : relaxedOffset ['Z'] = some (0, []) := rfl

end Iso

/-! ## Clocks -/

namespace Instant

/-- The numbers that a clock of universal time shows. -/
def clock (t : Instant) : Clock where
  date := t.date
  hour := (t.seconds % secondsPerDay).toNat / 3600
  minute := (t.seconds % secondsPerDay).toNat / 60 % 60
  second := (t.seconds % secondsPerDay).toNat % 60 + t.nanos / nanosPerSecond
  nanos := t.nanos % nanosPerSecond
  offset := 0

/-- The date of an instant in range is one on which instants exist. -/
theorem InRange.valid_date {t : Instant} (h : t.InRange) : t.date.Valid := by
  obtain ⟨hfirst, hlast, -⟩ := h
  have hdate := t.inCalendar_date
  have hday : t.date.dayNumber = t.seconds / secondsPerDay := t.dayNumber_date
  rw [firstSecond_eq] at hfirst
  rw [lastSecond_eq] at hlast
  rw [secondsPerDay] at hfirst hlast hday
  have hbegin : Date.InCalendar ⟨Date.firstYear, 1, 1⟩ := by
    constructor <;> decide
  have hend : Date.InCalendar ⟨Date.lastYear, 12, 31⟩ := by
    constructor <;> decide
  refine ⟨?_, ?_, hdate.one_le_month, hdate.month_le, hdate.one_le_day, hdate.day_le⟩
  · by_contra hlt
    have hmonth := hdate.month_le
    have := hdate.dayNumber_lt hbegin (by simp only [Date.monthIndex]; omega)
    omega
  · by_contra hlt
    have hmonth := hdate.one_le_month
    have := hend.dayNumber_lt hdate (by simp only [Date.monthIndex]; omega)
    omega

/-- A clock shows a time of day. -/
theorem InRange.time_clock {t : Instant} (h : t.InRange) :
    t.clock.hour < 24 ∧ t.clock.minute < 60 ∧ t.clock.second ≤ 60 := by
  obtain ⟨-, -, hnanos⟩ := h
  rw [nanosPerSecond] at hnanos
  simp only [clock, secondsPerDay, nanosPerSecond]
  omega

/-- **The clock of an instant in range shows this instant.** -/
theorem InRange.toInstant?_clock {t : Instant} (h : t.InRange) : t.clock.toInstant? = some t := by
  have hvalid := h.valid_date
  have htime := h.time_clock
  obtain ⟨hfirst, hlast, hnanos⟩ := h
  have hday : t.date.dayNumber = t.seconds / secondsPerDay := t.dayNumber_date
  rw [nanosPerSecond] at hnanos
  have hleap : t.clock.second / 60 = t.nanos / nanosPerSecond := by
    rw [clock, nanosPerSecond, secondsPerDay]
    simp only
    omega
  have hseconds : t.clock.date.dayNumber * secondsPerDay +
      ((t.clock.hour : ℤ) * 3600 + (t.clock.minute : ℤ) * 60 +
        ((t.clock.second - t.clock.second / 60 : ℕ) : ℤ)) - t.clock.offset * 60 = t.seconds := by
    rw [hleap]
    simp only [clock, hday, secondsPerDay, nanosPerSecond]
    omega
  have hfraction : t.clock.nanos + t.clock.second / 60 * nanosPerSecond = t.nanos := by
    rw [hleap, clock, nanosPerSecond]
    simp only
    omega
  rw [Clock.toInstant?, if_pos ⟨hvalid, htime⟩]
  simp only [hseconds, hfraction]
  exact if_pos ⟨hfirst, hlast⟩

end Instant

/-! ## Timestamps -/

namespace Iso

theorem toList_isoText (t : Instant) : (t.isoText "Z").toList =
    (yearText t.clock.date.year).toList ++
      '-' :: ((zeroPadded 2 t.clock.date.month).toList ++
      '-' :: ((zeroPadded 2 t.clock.date.day).toList ++
      'T' :: ((zeroPadded 2 t.clock.hour).toList ++
      ':' :: ((zeroPadded 2 t.clock.minute).toList ++
      ':' :: ((zeroPadded 2 t.clock.second).toList ++
        ((fractionText t.clock.nanos).toList ++ ['Z'])))))) := by
  simp [Instant.isoText, Instant.clock, Instant.date]

/-- **A timestamp is read as the instant that was written**, if it is in range. -/
theorem relaxed_isoText {t : Instant} (h : t.InRange) :
    relaxed (t.isoText "Z").toList = some t := by
  obtain ⟨-, -, -, hmonth, -, hday⟩ := h.valid_date
  have hlength : Date.daysInMonth t.date.year t.date.month ≤ 31 := by
    rw [Date.daysInMonth]
    repeat' split
    all_goals decide
  obtain ⟨hhour, hminute, hsecond⟩ := h.time_clock
  have hfraction : fraction ((fractionText t.clock.nanos).toList ++ ['Z']) =
      some (t.clock.nanos, ['Z']) :=
    fraction_fractionText (Nat.mod_lt _ Instant.nanosPerSecond_pos)
  have hnumber {n : ℕ} (hn : n < 10 ^ 2) (rest : List Char) :
      upTo 2 ((zeroPadded 2 n).toList ++ rest) = some (n, rest) :=
    upTo_zeroPadded 2 (by decide) hn rest
  have hmark {c : Char} (hc : Text.isBlank c = false) (rest : List Char) :
      expect c (Text.trimStart (c :: rest)) = some rest := by
    rw [trimStart_cons hc, expect_self]
  -- the parts of the text are read one by one, in their order
  rw [toList_isoText]
  refine Option.bind_eq_some_iff.2 ⟨_, lenientYear_yearText .., ?_⟩
  refine Option.bind_eq_some_iff.2 ⟨_, hmark rfl _, ?_⟩
  refine Option.bind_eq_some_iff.2 ⟨_, hnumber (hmonth.trans_lt (by decide)) _, ?_⟩
  refine Option.bind_eq_some_iff.2 ⟨_, hmark rfl _, ?_⟩
  refine Option.bind_eq_some_iff.2 ⟨_, hnumber ((hday.trans hlength).trans_lt (by decide)) _, ?_⟩
  refine Option.bind_eq_some_iff.2 ⟨_, by rw [expect_self]; rfl, ?_⟩
  refine Option.bind_eq_some_iff.2 ⟨_, hnumber (hhour.trans (by decide)) _, ?_⟩
  refine Option.bind_eq_some_iff.2 ⟨_, hmark rfl _, ?_⟩
  refine Option.bind_eq_some_iff.2 ⟨_, hnumber (hminute.trans (by decide)) _, ?_⟩
  refine Option.bind_eq_some_iff.2 ⟨_, hmark rfl _, ?_⟩
  refine Option.bind_eq_some_iff.2 ⟨_, hnumber (hsecond.trans_lt (by decide)) _, ?_⟩
  refine Option.bind_eq_some_iff.2 ⟨_, hfraction, ?_⟩
  refine Option.bind_eq_some_iff.2 ⟨_, relaxedOffset_universal, ?_⟩
  exact h.toInstant?_clock

end Iso

end ChartFeed
