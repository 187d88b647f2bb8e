import ChartFeed.Proofs.Time.Spelling

/-!
# A shift goes back by its length

A shift is a span in words.  It moves both bounds of a window into the past by the length of the
span, whatever its sign.

* `TimeRange.applyShift_some_eq` — a shift only matters for its length;
* `TimeRange.sameOutcome_read` — so shifts of one length have the same outcome;
* `Span.isAfter_backward` — no bound moves into the future;
* `Span.CatchesUp` — of two instants in the wrong order, the later one does not stay behind the
  earlier when both are moved, `Span.isAfter_of_addTo_of_isAfter`: a window that is refused without
  a shift may be accepted with one;
* `TimeRange.read_backward` — what this means for every range.
-/

set_option autoImplicit false

namespace ChartFeed

/-! ## Outcomes -/

/-- Rejections of one kind: two time expressions that cannot be resolved may be different ones. -/
inductive Rejection.SameKind : Rejection → Rejection → Prop where
  | refl (e : Rejection) : SameKind e e
  | timeParse (text text' : String) : SameKind (.timeParse text) (.timeParse text')

/-- Outcomes that are the same value, or rejections of one kind. -/
inductive SameOutcome {α : Type} : Except Rejection α → Except Rejection α → Prop where
  | ok (a : α) : SameOutcome (.ok a) (.ok a)
  | error {e e' : Rejection} (h : e.SameKind e') : SameOutcome (.error e) (.error e')

theorem SameOutcome.refl {α : Type} (x : Except Rejection α) : SameOutcome x x := by
  cases x with
  | error e => exact .error (.refl e)
  | ok a => exact .ok a

theorem SameOutcome.symm {α : Type} {x y : Except Rejection α} (h : SameOutcome x y) :
    SameOutcome y x := by
  cases h with
  | ok a => exact .ok a
  | error h =>
    cases h with
    | refl e => exact .refl _
    | timeParse text text' => exact .error (.timeParse text' text)

/-! ## The length of a span in words -/

namespace Span

variable {s s' : Span}

/-- The length of a span in words: without a sign, with a minus, and with `ago`. -/
def lengthTexts (s : Span) (plural : Bool) : List String :=
  let length := (Number.int s.amount.natAbs).text ++ " " ++ s.unit.word plural
  [length, "-" ++ length, length ++ " ago"]

/-- **However its length is written**, a span goes back as far. -/
theorem exists_read_of_mem_lengthTexts (hs : s.Reversible) {plural : Bool} {text : String}
    (h : text ∈ s.lengthTexts plural) :
    ∃ s', read text.toList = .ok s' ∧ s'.backward = s.backward := by
  obtain ⟨hmin, hmax⟩ := hs
  rw [int64Min] at hmin
  rw [int64Max] at hmax
  rw [lengthTexts, List.mem_cons, List.mem_cons, List.mem_singleton] at h
  generalize hlength : s.amount.natAbs = length at h
  have htext : (Number.int length).text.toList = Nat.toDigits 10 length := by
    rw [Number.toList_text_int, if_neg (by omega), Int.natAbs_natCast]
  have hread (ago : Bool) {amount cs : List Char} {n : Int} (hamount : Text.IsNumeral amount)
      (hn : Text.integerOf? amount = some n) (hn' : n.natAbs = length)
      (hcs : cs = Layout.spaced.phrase amount (s.unit.word plural).toList ago) :
      ∃ s', read cs = .ok s' ∧ s'.backward = s.backward := by
    have hfits : amount? amount = some n := by
      rw [amount?, hn]
      refine if_pos (fitsInt64_iff.2 ?_)
      rw [int64Min, int64Max]
      omega
    have hword : TimeUnit.ofWord? (Text.lower (s.unit.word plural).toList) = some s.unit := by
      rw [TimeUnit.lower_word, TimeUnit.ofWord?_word]
    refine ⟨_, read_phrase hamount hfits (TimeUnit.isWord_word ..) hword (congrArg _ hcs), ?_⟩
    cases ago <;> simp only [backward, negate, Bool.false_eq_true, if_true, if_false,
      Int.natAbs_neg, hn', hlength]
  have hdigits := Text.isNumeral_toDigits length
  rcases h with rfl | rfl | rfl
  · refine hread false hdigits (Text.integerOf?_toDigits length) (by simp) ?_
    simp [htext, Layout.phrase, Layout.spaced]
  · refine hread false (hdigits.cons (.inl rfl)) (Text.integerOf?_minus_toDigits length)
      (by simp) ?_
    simp [htext, Layout.phrase, Layout.spaced]
  · refine hread true hdigits (Text.integerOf?_toDigits length) (by simp) ?_
    simp [htext, Layout.phrase, Layout.spaced]

end Span

/-! ## Moving into the past -/

/-- Moving by months into the past does not lead to a later date. -/
theorem Date.InCalendar.dayNumber_addMonths_le {d : Date} (hd : d.InCalendar) {months : ℤ}
    (h : months ≤ 0) : (d.addMonths months).dayNumber ≤ d.dayNumber := by
  have hone := hd.one_le_day
  rw [dayNumber_addMonths, hd.dayNumber_eq]
  rcases h.lt_or_eq with hlt | rfl
  · have hstart := monthStart_add_monthLength_le
      (show d.monthIndex + months < d.monthIndex by omega)
    omega
  · rw [add_zero]
    omega

namespace Instant

variable {t t' u u' : Instant} {n : ℤ}

theorem isAfter_eq_false_iff : t.isAfter u = false ↔
    t.seconds < u.seconds ∨ t.seconds = u.seconds ∧ t.nanos ≤ u.nanos := by
  rw [← Bool.not_eq_true, isAfter_iff]
  omega

theorem isAfter_addSeconds (hn : n ≤ 0) (h : t.addSeconds n = some t') : t'.isAfter t = false := by
  rw [isAfter_eq_false_iff]
  rcases hn.lt_or_eq with hlt | rfl
  · rcases addSeconds_eq_some h hlt with ⟨-, rfl⟩ | ⟨-, rfl⟩ <;> simp only <;> omega
  · rw [Span.addSeconds_zero h]
    exact .inr ⟨rfl, le_rfl⟩

theorem isAfter_addMonths (hn : n ≤ 0) (h : t.addMonths n = some t') : t'.isAfter t = false := by
  have hday := t.inCalendar_date.dayNumber_addMonths_le hn
  rw [addMonths_eq_some h, isAfter_eq_false_iff]
  rw [dayNumber_date, dayNumber, secondsPerDay] at hday
  simp only [secondsPerDay]
  omega

/-- The second instant is in a leap second and the first in the second after it, at a fraction that
is not later. -/
def LeapCatchesUp (t u : Instant) : Prop :=
  nanosPerSecond ≤ u.nanos ∧ t.nanos < nanosPerSecond ∧ t.seconds = u.seconds + 1 ∧
    t.nanos + nanosPerSecond ≤ u.nanos

/-- Of two instants in the wrong order the later one stays behind when both move by months, unless
their dates meet at the end of a month with times of day in the right order. -/
theorem isAfter_addMonths_eq_false_iff (hafter : t.isAfter u = true)
    (ht : t.addMonths n = some t') (hu : u.addMonths n = some u') :
    t'.isAfter u' = false ↔
      Date.MeetsAtEnd n u.date t.date ∧ t.timeOfDay.isAfter u.timeOfDay = false := by
  have horder := isAfter_iff.1 hafter
  rw [addMonths_eq_some ht, addMonths_eq_some hu, isAfter_eq_false_iff, isAfter_eq_false_iff]
  have htday := t.dayNumber_date
  have huday := u.dayNumber_date
  simp only [timeOfDay, secondsPerDay, dayNumber] at *
  rcases lt_trichotomy u.date.dayNumber t.date.dayNumber with hlt | heq | hgt
  · obtain ⟨hmove, heq⟩ := u.inCalendar_date.dayNumber_addMonths_eq_iff t.inCalendar_date n hlt
    rw [← heq]
    omega
  · have hdates : u.date = t.date := by
      rw [date, date, ← dayNumber_date u, ← dayNumber_date t, heq]
    rw [hdates, Date.MeetsAtEnd]
    omega
  · omega

/-- The same for moving back by seconds, unless a leap second is caught up. -/
theorem isAfter_addSeconds_eq_false_iff (hn : n < 0) (hafter : t.isAfter u = true)
    (ht : t.addSeconds n = some t') (hu : u.addSeconds n = some u') :
    t'.isAfter u' = false ↔ LeapCatchesUp t u := by
  have horder := isAfter_iff.1 hafter
  rw [LeapCatchesUp, isAfter_eq_false_iff]
  rcases addSeconds_eq_some ht hn with ⟨htn, rfl⟩ | ⟨htn, rfl⟩ <;>
    rcases addSeconds_eq_some hu hn with ⟨hun, rfl⟩ | ⟨hun, rfl⟩
  all_goals simp only; omega

end Instant

theorem TimeUnit.months?_pos {u : TimeUnit} {months : ℤ} (h : u.months? = some months) :
    0 < months := by
  cases u <;> cases h <;> decide

namespace Span

variable {s : Span} {t t' u u' : Instant}

theorem backward_amount_nonpos (s : Span) : s.backward.amount ≤ 0 := by
  rw [backward]
  simp only
  omega

theorem backward_amount_eq_zero_iff : s.backward.amount = 0 ↔ s.amount = 0 := by
  rw [backward]
  simp only
  omega

/-- **No instant moves into the future.** -/
theorem isAfter_backward (h : s.backward.addTo t = some t') : t'.isAfter t = false := by
  have hunit : s.backward = ⟨s.backward.amount, s.unit⟩ := rfl
  have hnonpos := s.backward_amount_nonpos
  rw [hunit] at h
  cases hmonths : s.unit.months? with
  | none =>
    obtain ⟨seconds, hpos, hadd⟩ := addTo_of_months?_eq_none hmonths
    rw [hadd] at h
    exact Instant.isAfter_addSeconds (mul_nonpos_of_nonneg_of_nonpos hpos.le hnonpos) h
  | some months =>
    have hpos := TimeUnit.months?_pos hmonths
    rw [addTo_of_months?_eq_some hmonths] at h
    exact Instant.isAfter_addMonths (mul_nonpos_of_nonneg_of_nonpos hpos.le hnonpos) h

/-- The first instant comes after the second, and moved back by the length of a span it does not. -/
def CatchesUp (s : Span) (t u : Instant) : Prop :=
  match s.unit.months? with
  | some months =>
    Date.MeetsAtEnd (months * s.backward.amount) u.date t.date ∧
      t.timeOfDay.isAfter u.timeOfDay = false
  | none => s.amount ≠ 0 ∧ Instant.LeapCatchesUp t u

/-- **Of two instants in the wrong order** the later one stays behind when both are moved back,
unless the other catches up. -/
theorem isAfter_of_addTo_of_isAfter (hafter : t.isAfter u = true)
    (ht : s.backward.addTo t = some t') (hu : s.backward.addTo u = some u') :
    t'.isAfter u' = false ↔ s.CatchesUp t u := by
  have hunit : s.backward = ⟨s.backward.amount, s.unit⟩ := rfl
  rw [hunit] at ht hu
  rw [CatchesUp]
  split
  · next months hmonths =>
    rw [addTo_of_months?_eq_some hmonths] at ht hu
    exact Instant.isAfter_addMonths_eq_false_iff hafter ht hu
  · next hmonths =>
    obtain ⟨seconds, hpos, hadd⟩ := addTo_of_months?_eq_none hmonths
    rw [hadd] at ht hu
    by_cases hzero : s.amount = 0
    · rw [backward_amount_eq_zero_iff.2 hzero, mul_zero] at ht hu
      rw [addSeconds_zero ht, addSeconds_zero hu, hafter]
      simp [hzero]
    · have hneg : seconds * s.backward.amount < 0 :=
        mul_neg_of_pos_of_neg hpos
          (s.backward_amount_nonpos.lt_of_ne (mt backward_amount_eq_zero_iff.1 hzero))
      rw [Instant.isAfter_addSeconds_eq_false_iff hneg hafter ht hu]
      simp [hzero]

/-- What catches up was behind. -/
theorem CatchesUp.isAfter (h : s.CatchesUp t u) : t.isAfter u = true := by
  rw [Instant.isAfter_iff]
  rw [CatchesUp] at h
  split at h
  · obtain ⟨⟨hmonth, hday, -⟩, -⟩ := h
    have hlt := (u.inCalendar_date.dayNumber_lt_iff t.inCalendar_date).2 (.inr ⟨hmonth, hday⟩)
    rw [Instant.dayNumber_date, Instant.dayNumber_date, Instant.dayNumber, Instant.dayNumber,
      Instant.secondsPerDay] at hlt
    omega
  · obtain ⟨-, -, -, hseconds, -⟩ := h
    omega

/-- A bound moved by a span, if there is one and it can be moved. -/
def moveBound? (s : Span) : Option Instant → Option (Option Instant)
  | none => some none
  | some t => (s.addTo t).map some

theorem moveBound?_eq_some_iff {bound bound' : Option Instant} :
    s.moveBound? bound = some bound' ↔
      Option.Rel (fun t' t ↦ s.addTo t = some t') bound' bound := by
  cases bound with
  | none => cases bound' <;> simp [moveBound?]
  | some t => cases bound' <;> simp [moveBound?]

end Span

/-! ## Windows -/

namespace Window

/-- Both bounds moved by a span, if they can be. -/
def move? (s : Span) (w : Window) : Option Window := do
  let start ← s.moveBound? w.start
  let stop ← s.moveBound? w.stop
  return ⟨start, stop⟩

/-- The bounds are present where the other window has them, and not after those. -/
structure NotAfter (w w' : Window) : Prop where
  start : Option.Rel (fun t t' ↦ t.isAfter t' = false) w.start w'.start
  stop : Option.Rel (fun t t' ↦ t.isAfter t' = false) w.stop w'.stop

/-- The first bound comes after the second, and moved back by the length of a span it does not. -/
def CatchesUp (w : Window) (s : Span) : Prop :=
  ∃ t u, w.start = some t ∧ w.stop = some u ∧ s.CatchesUp t u

variable {s : Span} {w w' : Window}

theorem move?_eq_some_iff : w.move? s = some w' ↔
    s.moveBound? w.start = some w'.start ∧ s.moveBound? w.stop = some w'.stop := by
  obtain ⟨start, stop⟩ := w'
  simp [move?, Option.bind_eq_some_iff]

/-- **No bound moves into the future**, and none appears or disappears. -/
theorem notAfter_of_move? (h : w.move? s.backward = some w') : w'.NotAfter w := by
  have hbound {bound bound' : Option Instant} (h : s.backward.moveBound? bound = some bound') :
      Option.Rel (fun t t' ↦ t.isAfter t' = false) bound' bound := by
    cases Span.moveBound?_eq_some_iff.1 h with
    | none => exact .none
    | some hmove => exact .some (Span.isAfter_backward hmove)
  obtain ⟨hstart, hstop⟩ := move?_eq_some_iff.1 h
  exact ⟨hbound hstart, hbound hstop⟩

/-- **When moved bounds are in order**, so they were, unless the second has caught up. -/
theorem isInverted_iff_catchesUp (h : w.move? s.backward = some w')
    (hw' : TimeRange.isInverted w' = false) :
    TimeRange.isInverted w = true ↔ w.CatchesUp s := by
  obtain ⟨hstart, hstop⟩ := move?_eq_some_iff.1 h
  rw [TimeRange.isInverted_eq_true_iff, CatchesUp]
  refine exists₂_congr fun t u ↦ and_congr_right fun ht ↦ and_congr_right fun hu ↦
    ⟨fun hafter ↦ ?_, Span.CatchesUp.isAfter⟩
  rw [ht] at hstart
  rw [hu] at hstop
  obtain ⟨t', ht', hstart'⟩ := Option.map_eq_some_iff.1 hstart
  obtain ⟨u', hu', hstop'⟩ := Option.map_eq_some_iff.1 hstop
  refine (Span.isAfter_of_addTo_of_isAfter hafter ht' hu').1 ?_
  rwa [TimeRange.isInverted, ← hstart', ← hstop'] at hw'

end Window

namespace TimeRange

variable {range : Option String} {shift shift' : String} {anchors : Anchors} {s s' : Span}
  {w w' : Window}

/-! ## The outcome under a shift -/

theorem shiftBound_eq (shift : List Char) (s : Span) (bound : Option Instant) :
    shiftBound shift s bound = match s.moveBound? bound with
      | some bound' => .ok bound'
      | none => .error (.timeParse (String.ofList shift)) := by
  cases bound with
  | none => rfl
  | some t =>
    rw [shiftBound, Span.moveBound?]
    cases s.addTo t <;> rfl

/-- A shift moves both bounds by its length. -/
theorem applyShift_some_eq (hspan : Span.read shift.toList = .ok s) (w : Window) :
    applyShift (some shift) w = match w.move? s.backward with
      | some w' => .ok w'
      | none => .error (.timeParse (String.ofList (Text.trim shift.toList))) := by
  rw [applyShift, Option.getD_some]
  split
  · next hnil => exact absurd hnil (trim_ne_nil hspan)
  · rw [read_trim hspan, Window.move?]
    simp only [bind, Except.bind, shiftBound_eq]
    cases s.backward.moveBound? w.start with
    | none => rfl
    | some start => cases s.backward.moveBound? w.stop <;> rfl

/-- **Shifts of one length have the same outcome**, whatever their sign. -/
theorem sameOutcome_read (hspan : Span.read shift.toList = .ok s)
    (hspan' : Span.read shift'.toList = .ok s') (hback : s'.backward = s.backward) :
    SameOutcome (read range (some shift) anchors) (read range (some shift') anchors) := by
  rw [read, read]
  cases unshifted (range.getD "").toList anchors with
  | error e => exact .refl _
  | ok w =>
    simp only [bind, Except.bind, applyShift_some_eq hspan, applyShift_some_eq hspan', hback]
    cases w.move? s.backward with
    | none => exact .error (.timeParse ..)
    | some w' => exact .refl _

/-- What it takes for a shifted window to be accepted. -/
theorem read_some_eq_ok_iff (hspan : Span.read shift.toList = .ok s) :
    read range (some shift) anchors = .ok w' ↔
      ∃ w, unshifted (range.getD "").toList anchors = .ok w ∧ w.move? s.backward = some w' ∧
        isInverted w' = false := by
  rw [read]
  cases unshifted (range.getD "").toList anchors with
  | error e => simp [bind, Except.bind]
  | ok w =>
    simp only [bind, Except.bind, applyShift_some_eq hspan, Except.ok.injEq, exists_eq_left']
    cases w.move? s.backward with
    | none => simp
    | some moved =>
      simp only [Option.some.injEq]
      cases hmoved : isInverted moved
      · refine ⟨?_, fun h ↦ by rw [h.1]; rfl⟩
        rintro ⟨⟩
        exact ⟨rfl, hmoved⟩
      · refine iff_of_false (fun h ↦ by cases h) ?_
        rintro ⟨rfl, h⟩
        exact Bool.false_ne_true (h.symm.trans hmoved)

/-- Without a shift only the order of the bounds is looked at. -/
theorem read_none_of_unshifted (h : unshifted (range.getD "").toList anchors = .ok w) :
    read range none anchors = if isInverted w then .error .invertedTimeRange else .ok w := by
  rw [read, h]
  rfl

/-- A blank shift is none. -/
theorem read_blank (hblank : Text.Blank shift.toList) :
    read range (some shift) anchors = read range none anchors := by
  have hshift (w : Window) : applyShift (some shift) w = applyShift none w := by
    rw [applyShift, applyShift, Option.getD_some, Text.trim_eq_nil hblank]
    rfl
  simp only [read, hshift]

/-- **A shift goes back by its length.**  Its outcome is that of its length in words, whatever the
sign.  When it is accepted, its bounds are those of the range, moved and none of them into the
future; the range without the shift has these bounds, or is refused because they were inverted and
the second has caught up.  A blank shift is none. -/
theorem read_backward (hspan : Span.read shift.toList = .ok s) (hs : s.Reversible)
    (range : Option String) (anchors : Anchors) :
    (∀ plural, ∀ text ∈ s.lengthTexts plural,
      SameOutcome (read range (some shift) anchors) (read range (some text) anchors)) ∧
    (∀ w', read range (some shift) anchors = .ok w' →
      ∃ w, unshifted (range.getD "").toList anchors = .ok w ∧ w'.NotAfter w ∧
        (read range none anchors = .ok w ↔ ¬ w.CatchesUp s) ∧
        (w.CatchesUp s → read range none anchors = .error .invertedTimeRange)) ∧
    ∀ blank : String, Text.Blank blank.toList →
      read range (some blank) anchors = read range none anchors := by
  refine ⟨fun plural text htext ↦ ?_, fun w' hread ↦ ?_, fun _ hblank ↦ read_blank hblank⟩
  · obtain ⟨s', hspan', hback⟩ := Span.exists_read_of_mem_lengthTexts hs htext
    exact sameOutcome_read hspan hspan' hback
  · obtain ⟨w, hunshifted, hmove, hinverted⟩ := (read_some_eq_ok_iff hspan).1 hread
    refine ⟨w, hunshifted, Window.notAfter_of_move? hmove, ?_⟩
    rw [read_none_of_unshifted hunshifted, ← Window.isInverted_iff_catchesUp hmove hinverted]
    cases isInverted w <;> simp

/-- Ten days in March: the spellings of a month, the window they lead to, and a blank shift. -/
theorem marchWindow_read_backward :
    (Span.read "1 month".toList = .ok ⟨1, .month⟩ ∧ Span.Reversible ⟨1, .month⟩) ∧
    SameOutcome (read (some "2024-03-10 : 2024-03-20") (some "1 month") noonAnchors)
      (read (some "2024-03-10 : 2024-03-20") (some "-1 months") noonAnchors) ∧
    (∃ w, unshifted "2024-03-10 : 2024-03-20".toList noonAnchors = .ok w ∧
      februaryWindow.NotAfter w) ∧
    read (some "2024-03-10 : 2024-03-20") (some " \t") noonAnchors =
      read (some "2024-03-10 : 2024-03-20") none noonAnchors := by
  have hspan : Span.read "1 month".toList = .ok ⟨1, .month⟩ := by decide +kernel
  have hs : Span.Reversible ⟨1, .month⟩ := by decide
  have hread : read (some "2024-03-10 : 2024-03-20") (some "1 month") noonAnchors =
      .ok februaryWindow := by decide +kernel
  obtain ⟨hlength, hwindow, hblank⟩ :=
    read_backward hspan hs (some "2024-03-10 : 2024-03-20") noonAnchors
  obtain ⟨w, hunshifted, hnotAfter, -⟩ := hwindow _ hread
  exact ⟨⟨hspan, hs⟩, hlength true _ (by decide +kernel), ⟨w, hunshifted, hnotAfter⟩,
    hblank _ (by decide +kernel)⟩

/-- Two days of March in the wrong order are refused, and accepted when a month takes both to the
end of February. -/
theorem marchEnd_read_backward_eq_ok :
    Span.read "1 month".toList = .ok ⟨1, .month⟩ ∧
    read (some "2024-03-31 : 2024-03-30") none noonAnchors = .error .invertedTimeRange ∧
    read (some "2024-03-31 : 2024-03-30") (some "1 month") noonAnchors =
      .ok ⟨some ⟨1709164800, 0⟩, some ⟨1709164800, 0⟩⟩ := by
  refine ⟨?_, ?_, ?_⟩
  all_goals decide +kernel

end TimeRange

end ChartFeed
