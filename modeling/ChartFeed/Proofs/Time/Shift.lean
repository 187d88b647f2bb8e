import Mathlib
import ChartFeed.Proofs.Json.Reading
import ChartFeed.Proofs.Text.Words
import ChartFeed.Proofs.Time.Calendar
import ChartFeed.Time.Range

/-!
# Shifted windows

A shift moves both bounds of a window back by the same span, and only then are the bounds checked
for their order.  Moving back keeps the order of most instants, but not of all:

* `Instant.LeapOvertakes` — a bound in a leap second moves as if it were in the next second, so it
  can pass a bound in that second;
* `Span.Overtakes` — it can also pass a bound later in the same month, when both become the last day
  of a shorter month and keep their times of day;
* `Span.isAfter_of_addTo` — no other instants change their order;
* `TimeRange.read_shift` — a valid shift of a valid window is the window of the moved
  bounds unless the first bound overtakes the second.
-/

set_option autoImplicit false

namespace ChartFeed

/-! ## Instants in order -/

namespace Instant

variable {t u : Instant}

theorem isAfter_iff : t.isAfter u = true ↔
    u.seconds < t.seconds ∨ u.seconds = t.seconds ∧ u.nanos < t.nanos := by
  rw [isAfter, beq_iff_eq, Instant.compare, Ordering.then_eq_gt, compare_gt_iff_gt,
    compare_eq_iff_eq, compare_gt_iff_gt, eq_comm (a := t.seconds)]

/-- The date of an instant. -/
def date (t : Instant) : Date := Date.ofDayNumber t.dayNumber

theorem inCalendar_date (t : Instant) : t.date.InCalendar := Date.inCalendar_ofDayNumber _

theorem dayNumber_date (t : Instant) : t.date.dayNumber = t.dayNumber :=
  Date.dayNumber_ofDayNumber _

/-- The time of day of an instant, as an instant of the first day. -/
def timeOfDay (t : Instant) : Instant := ⟨t.seconds % secondsPerDay, t.nanos⟩

theorem checked_eq_some {s : Instant} (h : checked t = some s) : s = t := by
  rw [checked] at h
  split at h
  · exact (Option.some.inj h).symm
  · cases h

/-! ## Moving by seconds -/

/-- The first instant is in a leap second and the second in the second after it, at an earlier
fraction. -/
def LeapOvertakes (t u : Instant) : Prop :=
  nanosPerSecond ≤ t.nanos ∧ u.nanos < nanosPerSecond ∧ u.seconds = t.seconds + 1 ∧
    u.nanos + nanosPerSecond < t.nanos

/-- Where moving back by seconds leads. -/
theorem addSeconds_eq_some {s : Instant} {n : ℤ} (h : t.addSeconds n = some s) (hn : n < 0) :
    (t.nanos < nanosPerSecond ∧ s = ⟨t.seconds + n, t.nanos⟩) ∨
      (nanosPerSecond ≤ t.nanos ∧ s = ⟨t.seconds + 1 + n, t.nanos - nanosPerSecond⟩) := by
  rw [addSeconds] at h
  split at h
  · next hleap => exact .inl ⟨hleap, checked_eq_some h⟩
  · next hleap =>
    rw [if_neg (not_lt.2 hn.le)] at h
    exact .inr ⟨not_lt.1 hleap, checked_eq_some h⟩

/-- **Moving back by seconds keeps the order**, unless a leap second overtakes the next. -/
theorem isAfter_addSeconds_iff {t' u' : Instant} {n : ℤ} (hn : n < 0) (hle : t.isAfter u = false)
    (ht : t.addSeconds n = some t') (hu : u.addSeconds n = some u') :
    t'.isAfter u' = true ↔ LeapOvertakes t u := by
  have horder := mt isAfter_iff.2 (ne_true_of_eq_false hle)
  rw [LeapOvertakes, isAfter_iff]
  rcases addSeconds_eq_some ht hn with ⟨htn, rfl⟩ | ⟨htn, rfl⟩ <;>
    rcases addSeconds_eq_some hu hn with ⟨hun, rfl⟩ | ⟨hun, rfl⟩
  all_goals simp only; omega

/-! ## Moving by months -/

theorem addMonths_eq_some {s : Instant} {n : ℤ} (h : t.addMonths n = some s) :
    s = ⟨(t.date.addMonths n).dayNumber * secondsPerDay + t.seconds % secondsPerDay, t.nanos⟩ :=
  checked_eq_some h

/-- **Moving by months keeps the order**, unless two dates meet at the end of a month with times of
day in the other order. -/
theorem isAfter_addMonths_iff {t' u' : Instant} {n : ℤ} (hle : t.isAfter u = false)
    (ht : t.addMonths n = some t') (hu : u.addMonths n = some u') :
    t'.isAfter u' = true ↔
      Date.MeetsAtEnd n t.date u.date ∧ t.timeOfDay.isAfter u.timeOfDay = true := by
  have horder := mt isAfter_iff.2 (ne_true_of_eq_false hle)
  rw [addMonths_eq_some ht, addMonths_eq_some hu, isAfter_iff, isAfter_iff]
  have htday := t.dayNumber_date
  have huday := u.dayNumber_date
  simp only [timeOfDay, secondsPerDay, dayNumber] at *
  rcases lt_trichotomy t.date.dayNumber u.date.dayNumber with hlt | heq | hgt
  · obtain ⟨hmove, heq⟩ := t.inCalendar_date.dayNumber_addMonths_eq_iff u.inCalendar_date n hlt
    rw [← heq]
    omega
  · have hdates : t.date = u.date := by
      rw [date, date, ← dayNumber_date t, ← dayNumber_date u, heq]
    rw [hdates, Date.MeetsAtEnd]
    omega
  · omega

end Instant

/-! ## Moving by a span -/

/-- The months of a unit that is counted in months. -/
def TimeUnit.months? : TimeUnit → Option ℤ
  | .month => some 1
  | .quarter => some 3
  | .year => some 12
  | _ => none

namespace Span

/-- Moved back by the length of a span, the first instant comes after the second. -/
def Overtakes (s : Span) (t u : Instant) : Prop :=
  match s.unit.months? with
  | some months =>
    Date.MeetsAtEnd (months * s.backward.amount) t.date u.date ∧ t.timeOfDay.isAfter u.timeOfDay
  | none => s.amount ≠ 0 ∧ Instant.LeapOvertakes t u

variable {s : Span} {t u t' u' : Instant}

/-- Spans of up to weeks move by seconds. -/
theorem addTo_of_months?_eq_none (h : s.unit.months? = none) : ∃ seconds : ℤ, 0 < seconds ∧
    ∀ n t, addTo ⟨n, s.unit⟩ t = t.addSeconds (seconds * n) := by
  obtain ⟨n, unit⟩ := s
  cases unit with
  | second => exact ⟨1, by decide, fun n t ↦ by rw [one_mul]; rfl⟩
  | minute => exact ⟨60, by decide, fun _ _ ↦ rfl⟩
  | hour => exact ⟨3600, by decide, fun _ _ ↦ rfl⟩
  | day => exact ⟨86400, by decide, fun _ _ ↦ rfl⟩
  | week => exact ⟨604800, by decide, fun _ _ ↦ rfl⟩
  | _ => cases h

theorem addTo_of_months?_eq_some {months : ℤ} (h : s.unit.months? = some months) (n : ℤ)
    (t : Instant) : addTo ⟨n, s.unit⟩ t = t.addMonths (months * n) := by
  obtain ⟨amount, unit⟩ := s
  cases unit with
  | month =>
    cases h
    rw [one_mul]
    rfl
  | quarter | year => cases h; rfl
  | _ => cases h

theorem addSeconds_zero (h : t.addSeconds 0 = some t') : t' = t := by
  rw [Instant.addSeconds] at h
  split at h
  · rw [Instant.checked_eq_some h, add_zero]
  · rw [if_neg (lt_irrefl 0), if_neg (lt_irrefl 0)] at h
    exact (Option.some.inj h).symm

/-- **Moving back by a span keeps the order** of two instants, unless the first overtakes the
second. -/
theorem isAfter_of_addTo (hle : t.isAfter u = false) (ht : s.backward.addTo t = some t')
    (hu : s.backward.addTo u = some u') : t'.isAfter u' = true ↔ s.Overtakes t u := by
  have hunit : s.backward = ⟨s.backward.amount, s.unit⟩ := rfl
  rw [hunit] at ht hu
  rw [Overtakes]
  split
  · next months hmonths =>
    rw [addTo_of_months?_eq_some hmonths] at ht hu
    exact Instant.isAfter_addMonths_iff hle ht hu
  · next hmonths =>
    obtain ⟨seconds, hpos, hadd⟩ := addTo_of_months?_eq_none hmonths
    rw [hadd] at ht hu
    by_cases hzero : s.amount = 0
    · have hback : seconds * s.backward.amount = 0 := by
        rw [backward, hzero]
        simp
      rw [hback] at ht hu
      rw [addSeconds_zero ht, addSeconds_zero hu, hle]
      simp [hzero]
    · have hback : seconds * s.backward.amount < 0 := by
        refine mul_neg_of_pos_of_neg hpos ?_
        rw [backward]
        simp only
        omega
      rw [Instant.isAfter_addSeconds_iff hback hle ht hu]
      simp [hzero]

end Span

/-! ## Shifted windows -/

namespace Window

/-- Both bounds, where there are any, are moved by a span. -/
structure IsShifted (w : Window) (s : Span) (moved : Window) : Prop where
  start_eq : w.start.map s.addTo = moved.start.map some
  stop_eq : w.stop.map s.addTo = moved.stop.map some

/-- Moved back by the length of a span, the first bound comes after the second. -/
def IsOvertaken (w : Window) (s : Span) : Prop :=
  ∃ t u, w.start = some t ∧ w.stop = some u ∧ s.Overtakes t u

end Window

namespace TimeRange

variable {w moved : Window} {s : Span}

theorem shiftBound_eq_ok {shift : List Char} {bound bound' : Option Instant}
    (h : bound.map s.addTo = bound'.map some) : shiftBound shift s bound = .ok bound' := by
  cases bound with
  | none =>
    cases bound' with
    | none => rfl
    | some t' => cases h
  | some t =>
    cases bound' with
    | none => cases h
    | some t' =>
      rw [shiftBound, Option.some.inj h]

theorem isInverted_eq_true_iff : isInverted w = true ↔
    ∃ t u, w.start = some t ∧ w.stop = some u ∧ t.isAfter u = true := by
  obtain ⟨start, stop⟩ := w
  cases start <;> cases stop <;> simp [isInverted]

/-- The moved bounds are inverted iff the first overtakes the second. -/
theorem isInverted_iff (hw : isInverted w = false) (hmoved : w.IsShifted s.backward moved) :
    isInverted moved = true ↔ w.IsOvertaken s := by
  obtain ⟨start, stop⟩ := w
  obtain ⟨start', stop'⟩ := moved
  obtain ⟨hstart, hstop⟩ := hmoved
  rw [isInverted_eq_true_iff, Window.IsOvertaken]
  simp only at hstart hstop ⊢
  cases start with
  | none =>
    cases start' with
    | none => simp
    | some t' => cases hstart
  | some t =>
    cases start' with
    | none => cases hstart
    | some t' =>
      cases stop with
      | none =>
        cases stop' with
        | none => simp
        | some u' => cases hstop
      | some u =>
        cases stop' with
        | none => cases hstop
        | some u' =>
          have hmove := Span.isAfter_of_addTo hw (Option.some.inj hstart) (Option.some.inj hstop)
          simpa using hmove

/-- What a span in words says does not depend on the blanks around it. -/
theorem read_trim {expression : List Char} (h : Span.read expression = .ok s) :
    Span.read (Text.trim expression) = .ok s := by
  rw [Span.read] at h ⊢
  rw [Text.words_lower_trim]
  split at h
  · exact h
  · cases h

/-- A blank text is no span. -/
theorem trim_ne_nil {expression : List Char} (h : Span.read expression = .ok s) :
    Text.trim expression ≠ [] := by
  intro hnil
  have htrim := read_trim h
  rw [hnil] at htrim
  cases htrim

theorem applyShift_eq {shift : String} (hspan : Span.read shift.toList = .ok s)
    (hmoved : w.IsShifted s.backward moved) : applyShift (some shift) w = .ok moved := by
  rw [applyShift, Option.getD_some]
  split
  · next hnil => exact absurd hnil (trim_ne_nil hspan)
  · rw [read_trim hspan]
    simp only [bind, Except.bind, shiftBound_eq_ok hmoved.start_eq, shiftBound_eq_ok hmoved.stop_eq]
    rfl

/-- What a window without a shift is. -/
theorem read_none_eq_ok_iff {range : Option String} {anchors : Anchors} :
    read range none anchors = .ok w ↔
      unshifted (range.getD "").toList anchors = .ok w ∧ isInverted w = false := by
  have hnone (w : Window) : applyShift none w = .ok w := rfl
  rw [read]
  cases unshifted (range.getD "").toList anchors with
  | error e => simp [bind, Except.bind]
  | ok w' =>
    simp only [bind, Except.bind, hnone]
    cases hw' : isInverted w'
    · refine ⟨?_, fun h ↦ h.1⟩
      rintro ⟨⟩
      exact ⟨rfl, hw'⟩
    · refine iff_of_false (fun h ↦ by cases h) ?_
      rintro ⟨⟨⟩, hw⟩
      exact Bool.false_ne_true (hw.symm.trans hw')

/-- **A valid shift of a valid window** is the window of the moved bounds, unless the first bound
overtakes the second; then it is refused. -/
theorem read_shift {range : Option String} {shift : String} {anchors : Anchors}
    (hread : read range none anchors = .ok w) (hspan : Span.read shift.toList = .ok s)
    (hmoved : w.IsShifted s.backward moved) :
    (read range (some shift) anchors = .ok moved ↔ ¬ w.IsOvertaken s) ∧
      (w.IsOvertaken s → read range (some shift) anchors = .error .invertedTimeRange) := by
  obtain ⟨hunshifted, hw⟩ := read_none_eq_ok_iff.1 hread
  have hshift : read range (some shift) anchors =
      if isInverted moved then .error .invertedTimeRange else .ok moved := by
    rw [read, hunshifted]
    simp only [bind, Except.bind, applyShift_eq hspan hmoved]
    rfl
  rw [hshift, ← isInverted_iff hw hmoved]
  cases isInverted moved <;> simp

/-- The anchors of the tests. -/
def noonAnchors : Anchors := ⟨"today", "today", ⟨1710498600, 0⟩⟩

/-- A window of ten days in March. -/
def marchWindow : Window := ⟨some ⟨1710028800, 0⟩, some ⟨1710892800, 0⟩⟩

/-- The same days in February. -/
def februaryWindow : Window := ⟨some ⟨1707523200, 0⟩, some ⟨1708387200, 0⟩⟩

/-- Ten days in March, moved back by a month. -/
theorem marchWindow_read_shift :
    (read (some "2024-03-10 : 2024-03-20") none noonAnchors = .ok marchWindow ∧
      Span.read "1 month".toList = .ok ⟨1, .month⟩ ∧
      marchWindow.IsShifted (Span.backward ⟨1, .month⟩) februaryWindow) ∧
    (read (some "2024-03-10 : 2024-03-20") (some "1 month") noonAnchors = .ok februaryWindow ↔
      ¬ marchWindow.IsOvertaken ⟨1, .month⟩) := by
  have hread : read (some "2024-03-10 : 2024-03-20") none noonAnchors = .ok marchWindow := by
    decide +kernel
  have hspan : Span.read "1 month".toList = .ok ⟨1, .month⟩ := by decide +kernel
  have hmoved : marchWindow.IsShifted (Span.backward ⟨1, .month⟩) februaryWindow :=
    ⟨by decide +kernel, by decide +kernel⟩
  exact ⟨⟨hread, hspan, hmoved⟩, (read_shift hread hspan hmoved).1⟩

/-- A window over the last two days of March is refused when it is moved to February. -/
theorem marchEnd_read_shift_eq_error :
    (∃ t u, read (some "2024-03-30T12:00:00 : 2024-03-31T06:00:00") none noonAnchors =
        .ok ⟨some t, some u⟩ ∧
      (Span.addTo ⟨-1, .month⟩ t).isSome ∧ (Span.addTo ⟨-1, .month⟩ u).isSome) ∧
    Span.read "1 month".toList = .ok ⟨1, .month⟩ ∧
    read (some "2024-03-30T12:00:00 : 2024-03-31T06:00:00") (some "1 month") noonAnchors =
      .error .invertedTimeRange := by
  refine ⟨⟨⟨1711800000, 0⟩, ⟨1711864800, 0⟩, ?_, ?_, ?_⟩, ?_, ?_⟩
  all_goals decide +kernel

end TimeRange

end ChartFeed
