import ChartFeed.Proofs.Time.Characters

/-!
# Where time expressions lead

Instants are those of the years that the calendar covers.  Counted units may lead out of them,
which is checked; a day that has a name is taken to be there, and is not when today is the first day
of the calendar or its last.

* `Instant.isKept_inRange` — moving an instant keeps it in the calendar;
* `TimeExpression.read_eq_outOfCalendar_iff` — the named days that the calendar does not have;
* `TimeExpression.isAfter_last_iff` — only a timestamp names the leap second after the last instant;
* `TimeExpression.resolves_iff`, `TimeRange.resolves_iff` — otherwise an expression names an instant
  or is turned down, and a range has bounds or is turned down.
-/

set_option autoImplicit false

namespace ChartFeed

namespace Instant

variable {s t t' : Instant} {n : ℤ}

/-! ## The calendar -/

/-- The first instant. -/
def first : Instant := ⟨firstSecond, 0⟩

/-- The last instant, leap seconds apart. -/
def last : Instant := ⟨lastSecond, nanosPerSecond - 1⟩

/-- The instants from the first to the last. -/
structure Within (t : Instant) : Prop where
  inRange : t.InRange
  not_after : t.isAfter last = false

theorem inRange_of_checked (h : checked s = some t)
    (hnanos : s.nanos < nanosPerSecond ∨ s.seconds % 60 = 59 ∧ s.nanos < 2 * nanosPerSecond) :
    t.InRange := by
  rw [checked] at h
  obtain ⟨⟨hfirst, hlast⟩, heq⟩ := Option.ite_none_right_eq_some.1 h
  cases heq
  exact ⟨hfirst, hlast, hnanos⟩

theorem inRange_toInstant? {c : Clock} (hc : c.nanos < nanosPerSecond)
    (h : c.toInstant? = some t) : t.InRange := by
  rw [Clock.toInstant?] at h
  obtain ⟨⟨-, -, -, hsecond⟩, h⟩ := Option.ite_none_right_eq_some.1 h
  refine inRange_of_checked h ?_
  rcases hsecond.lt_or_eq with hlt | heq
  · left
    rw [Nat.div_eq_of_lt hlt, Nat.zero_mul, Nat.add_zero]
    exact hc
  · -- a leap second is counted with the second before it
    right
    rw [heq]
    simp only [secondsPerDay, nanosPerSecond] at hc ⊢
    omega

theorem InRange.startOfDay (h : t.InRange) : t.startOfDay.InRange := by
  obtain ⟨hfirst, hlast, -⟩ := h
  refine ⟨?_, ?_, .inl nanosPerSecond_pos⟩ <;>
    simp only [Instant.startOfDay, dayNumber, secondsPerDay, firstSecond, lastSecond] at * <;> omega

theorem InRange.addSeconds (ht : t.InRange) (h : t.addSeconds n = some t') : t'.InRange := by
  obtain ⟨-, -, hnanos⟩ := id ht
  rw [Instant.addSeconds] at h
  split at h
  · next hlt => exact inRange_of_checked h (.inl hlt)
  · have hleap : t.nanos - nanosPerSecond < nanosPerSecond := by omega
    repeat' split at h
    · exact inRange_of_checked h (.inl hleap)
    · exact inRange_of_checked h (.inl hleap)
    · cases h
      exact ht

/-- Another second with the same place in its minute keeps a leap second where it may stand. -/
theorem InRange.of_checked {seconds : ℤ} (ht : t.InRange) (hminute : seconds % 60 = t.seconds % 60)
    (h : checked ⟨seconds, t.nanos⟩ = some t') : t'.InRange :=
  inRange_of_checked h (ht.2.2.imp_right fun hleap ↦ ⟨hminute.trans hleap.1, hleap.2⟩)

theorem InRange.addMonths (ht : t.InRange) (h : t.addMonths n = some t') : t'.InRange := by
  refine ht.of_checked ?_ h
  simp only [secondsPerDay]
  omega

theorem InRange.shiftDays (ht : t.InRange) (h : t.shiftDays n = some t') : t'.InRange := by
  rw [Instant.shiftDays] at h
  split at h
  · cases h
    exact ht
  · refine ht.of_checked ?_ h
    simp only [secondsPerDay]
    omega

/-- **Moving an instant** keeps it in the calendar, or fails. -/
theorem isKept_inRange : IsKept InRange where
  toInstant? := inRange_toInstant?
  startOfDay := InRange.startOfDay
  shiftDays := InRange.shiftDays
  addSeconds := InRange.addSeconds
  addMonths := InRange.addMonths

/-- Without a leap second nothing in the calendar is after the last instant. -/
theorem InRange.within (h : t.InRange) (hnanos : t.nanos < nanosPerSecond) : t.Within := by
  refine ⟨h, isAfter_eq_false_iff.2 (h.2.1.lt_or_eq.imp_right fun heq ↦ ⟨heq, ?_⟩)⟩
  change t.nanos ≤ nanosPerSecond - 1
  omega

theorem Within.startOfDay (h : t.Within) : t.startOfDay.Within :=
  h.inRange.startOfDay.within nanosPerSecond_pos

theorem Within.addSeconds (ht : t.Within) (h : t.addSeconds n = some t') : t'.Within := by
  have hrange := ht.inRange.addSeconds h
  have hleap : t.nanos < 2 * nanosPerSecond := by
    rcases ht.inRange.2.2 with hnanos | hnanos <;> omega
  rw [Instant.addSeconds] at h
  repeat' split at h
  · next hlt =>
    refine hrange.within ?_
    rwa [checked_eq_some h]
  · refine hrange.within ?_
    rw [checked_eq_some h]
    simp only
    omega
  · refine hrange.within ?_
    rw [checked_eq_some h]
    simp only
    omega
  · cases h
    exact ht

/-! ## The days at both ends -/

/-- The first day of the calendar. -/
def firstDate : Date := ⟨Date.firstYear, 1, 1⟩

/-- The last day of the calendar. -/
def lastDate : Date := ⟨Date.lastYear, 12, 31⟩

theorem date_eq_iff {d : Date} (hd : Date.ofDayNumber d.dayNumber = d) :
    t.date = d ↔ t.dayNumber = d.dayNumber := by
  constructor
  · rintro rfl
    exact t.dayNumber_date.symm
  · intro h
    rw [date, h, hd]

theorem checked_eq_none_iff :
    checked t = none ↔ ¬ (firstSecond ≤ t.seconds ∧ t.seconds ≤ lastSecond) := by
  rw [checked]
  split
  · next h => simp [h]
  · next h => simp [h]

/-- Some days from midnight there is a day, if it is one of the calendar. -/
theorem shiftDays_eq_none_iff (hn : n ≠ 0) : t.startOfDay.shiftDays n = none ↔
    ¬ (firstDate.dayNumber ≤ t.dayNumber + n ∧ t.dayNumber + n ≤ lastDate.dayNumber) := by
  have hfirst : firstDate.dayNumber = -96465292 := by decide
  have hlast : lastDate.dayNumber = 95026236 := by decide
  rw [Instant.shiftDays, if_neg hn, checked_eq_none_iff, hfirst, hlast]
  simp only [Instant.startOfDay, secondsPerDay, firstSecond, lastSecond]
  omega

theorem InRange.dayNumber (h : t.InRange) :
    firstDate.dayNumber ≤ t.dayNumber ∧ t.dayNumber ≤ lastDate.dayNumber := by
  obtain ⟨hfirst, hlast, -⟩ := h
  have hfirst' : firstDate.dayNumber = -96465292 := by decide
  have hlast' : lastDate.dayNumber = 95026236 := by decide
  rw [hfirst', hlast', Instant.dayNumber]
  simp only [secondsPerDay, firstSecond, lastSecond] at *
  omega

/-- The day before today is there, unless today is the first one. -/
theorem InRange.yesterday_eq_none_iff (h : t.InRange) :
    t.startOfDay.shiftDays (-1) = none ↔ t.date = firstDate := by
  obtain ⟨hfirst, hlast⟩ := h.dayNumber
  rw [date_eq_iff (by decide +kernel), shiftDays_eq_none_iff (by decide)]
  omega

/-- The day after today is there, unless today is the last one. -/
theorem InRange.tomorrow_eq_none_iff (h : t.InRange) :
    t.startOfDay.shiftDays 1 = none ↔ t.date = lastDate := by
  obtain ⟨hfirst, hlast⟩ := h.dayNumber
  rw [date_eq_iff (by decide +kernel), shiftDays_eq_none_iff (by decide)]
  omega

end Instant

/-! ## Rejections -/

/-- All rejections are such. -/
def FailsWith {α : Type} (Q : Rejection → Prop) (x : Except Rejection α) : Prop :=
  ∀ r, x = .error r → Q r

namespace FailsWith

variable {α β : Type} {Q Q' : Rejection → Prop} {x : Except Rejection α}

theorem ok (a : α) : FailsWith Q (.ok a) := nofun

theorem error {r : Rejection} (h : Q r) : FailsWith Q (.error r : Except Rejection α) := by
  rintro _ ⟨⟩
  exact h

theorem mono (h : FailsWith Q x) (hQ : ∀ r, Q r → Q' r) : FailsWith Q' x :=
  fun r hr ↦ hQ r (h r hr)

theorem bind {next : α → Except Rejection β} (h : FailsWith Q x)
    (hnext : ∀ a, FailsWith Q (next a)) : FailsWith Q (x >>= next) := by
  cases x with
  | error r => exact .error (h r rfl)
  | ok a => exact hnext a

theorem map {f : α → β} (h : FailsWith Q x) : FailsWith Q (x.map f) := by
  cases x with
  | error r => exact .error (h r rfl)
  | ok a => exact .ok (f a)

end FailsWith

/-! ## Expressions -/

namespace Moment

variable {e : List Char} {days : ℤ}

theorem midnight?_eq_some_iff {word : List Char} : midnight? word = some days ↔
    word = "today".toList ∧ days = 0 ∨ word = "yesterday".toList ∧ days = -1 ∨
      word = "tomorrow".toList ∧ days = 1 := by
  constructor
  · intro h
    unfold midnight? at h
    split at h
    case h_4 => cases h
    all_goals
      cases h
      simp
  · rintro (⟨rfl, rfl⟩ | ⟨rfl, rfl⟩ | ⟨rfl, rfl⟩) <;> rfl

/-- A midnight is named by one word. -/
theorem ofExpression?_eq_midnight_iff : ofExpression? e = some (.midnight days) ↔
    ∃ word, Text.words (Text.lower e) = [word] ∧ midnight? word = some days := by
  have hname : ofName? (Text.words (Text.lower e)) = some (.midnight days) ↔
      ∃ word, Text.words (Text.lower e) = [word] ∧ midnight? word = some days := by
    unfold ofName?
    split
    · next heq =>
      rw [heq]
      simp [midnight?]
    · next word _ heq =>
      rw [heq]
      simp
    · next hne =>
      simp only [reduceCtorEq, false_iff, not_exists, not_and]
      exact fun word heq ↦ absurd heq (hne word)
  have hcount : ofCount? (Text.words (Text.lower e)) ≠ some (.midnight days) := by
    unfold ofCount?
    split <;> simp [Option.bind_eq_some_iff]
  rw [← hname, ofExpression?]
  simp [Option.orElse_eq_or, Option.or_eq_some_iff, hcount]

end Moment

namespace TimeExpression

variable {e : List Char} {now t : Instant}

/-- A day that the calendar does not have: the one before its first or the one after its last. -/
def NamesBeyond (e : List Char) (now : Instant) : Prop :=
  Text.words (Text.lower e) = ["yesterday".toList] ∧ now.date = Instant.firstDate ∨
    Text.words (Text.lower e) = ["tomorrow".toList] ∧ now.date = Instant.lastDate

/-- **The named days that the calendar does not have.** -/
theorem read_eq_outOfCalendar_iff (hnow : now.InRange) :
    read e now = .error .outOfCalendar ↔ NamesBeyond e now := by
  have hmidnight : read e now = .error .outOfCalendar ↔ ∃ days,
      Moment.ofExpression? e = some (.midnight days) ∧ now.startOfDay.shiftDays days = none := by
    rw [read]
    cases Moment.ofExpression? e with
    | none => simp
    | some m =>
      cases hm : m.resolve now with
      | some t => cases m <;> simp_all [Moment.resolve]
      | none => cases m <;> simp_all [Moment.resolve, Moment.failure]
  simp only [hmidnight, Moment.ofExpression?_eq_midnight_iff, Moment.midnight?_eq_some_iff]
  constructor
  · rintro ⟨days, ⟨word, hwords, ⟨rfl, rfl⟩ | ⟨rfl, rfl⟩ | ⟨rfl, rfl⟩⟩, hnone⟩
    · cases hnone
    · exact .inl ⟨hwords, hnow.yesterday_eq_none_iff.1 hnone⟩
    · exact .inr ⟨hwords, hnow.tomorrow_eq_none_iff.1 hnone⟩
  · rintro (⟨hwords, hdate⟩ | ⟨hwords, hdate⟩)
    · exact ⟨-1, ⟨_, hwords, .inr (.inl ⟨rfl, rfl⟩)⟩, hnow.yesterday_eq_none_iff.2 hdate⟩
    · exact ⟨1, ⟨_, hwords, .inr (.inr ⟨rfl, rfl⟩)⟩, hnow.tomorrow_eq_none_iff.2 hdate⟩

/-- What is not read is turned down. -/
theorem failsWith_read (e : List Char) (now : Instant) :
    FailsWith (fun r ↦ r = .timeParse (String.ofList e) ∨ r = .outOfCalendar) (read e now) := by
  rw [read]
  cases Moment.ofExpression? e with
  | none => exact .error (.inl rfl)
  | some m =>
    cases hm : m.resolve now with
    | some t => simpa only [hm] using .ok t
    | none =>
      simp only [hm]
      cases m with
      | midnight days => exact .error (.inr rfl)
      | now | absolute | offset => exact .error (.inl rfl)

/-- Counted units do not lead behind the last instant. -/
theorem within_resolve_offset {s : Span} (hnow : now.Within)
    (h : Moment.resolve now (.offset s) = some t) : t.Within := by
  have hrange : t.InRange := by
    rw [Moment.resolve] at h
    refine Instant.isKept_inRange.addTo ?_ h
    split
    · exact hnow.inRange.startOfDay
    · exact hnow.inRange
  obtain ⟨n, unit⟩ := s
  cases unit with
  | second | minute | hour => exact hnow.addSeconds h
  | day | week => exact hnow.startOfDay.addSeconds h
  | month | quarter | year =>
    refine hrange.within ?_
    rw [Instant.nanos_addMonths h]
    exact Instant.nanosPerSecond_pos

/-- **Only a timestamp** names an instant behind the last, which is in a leap second. -/
theorem within_of_iso_read_ne (hnow : now.Within) (h : read e now = .ok t)
    (hiso : Iso.read e ≠ some t) : t.Within := by
  obtain ⟨m, hm, hresolve⟩ := read_eq_ok_iff.1 h
  cases m with
  | now =>
    cases hresolve
    exact hnow
  | midnight days =>
    refine (Instant.isKept_inRange.read hnow.inRange h).within ?_
    rw [Instant.nanos_shiftDays hresolve]
    exact Instant.nanosPerSecond_pos
  | absolute t' =>
    cases hresolve
    exact absurd (read_of_absolute hm) hiso
  | offset s => exact within_resolve_offset hnow hresolve

/-- The expression names an instant from the first to the last, or is turned down. -/
def Resolves (e : List Char) (now : Instant) : Prop :=
  (∃ t, read e now = .ok t ∧ t.Within) ∨ read e now = .error (.timeParse (String.ofList e))

/-- **An expression resolves**, unless it names a day that the calendar does not have, or the leap
second behind the last instant. -/
theorem resolves_iff (hnow : now.Within) : Resolves e now ↔
    ¬ NamesBeyond e now ∧ ∀ t, Iso.read e = some t → t.isAfter .last = false := by
  rw [← read_eq_outOfCalendar_iff hnow.inRange]
  constructor
  · rintro (⟨t, ht, hwithin⟩ | herror)
    · refine ⟨by simp [ht], fun t' ht' ↦ ?_⟩
      rw [read_of_iso_read ht'] at ht
      cases ht
      exact hwithin.not_after
    · refine ⟨by simp [herror], fun t' ht' ↦ ?_⟩
      rw [read_of_iso_read ht'] at herror
      cases herror
  · rintro ⟨hcalendar, hlast⟩
    cases hread : read e now with
    | error r =>
      rcases failsWith_read e now r hread with rfl | rfl
      · exact .inr hread
      · exact absurd hread hcalendar
    | ok t =>
      by_cases hiso : Iso.read e = some t
      · exact .inl ⟨t, hread, Instant.isKept_inRange.read hnow.inRange hread, hlast t hiso⟩
      · exact .inl ⟨t, hread, within_of_iso_read_ne hnow hread hiso⟩

end TimeExpression

/-! ## Ranges -/

namespace TimeRange

variable {range : List Char} {anchors : Anchors} {now : Instant}

/-- What is read for the beginning of a range. -/
def startExpression (left : List Char) : List Char :=
  if isBareSpan left then left ++ [' ', 'a', 'g', 'o'] else left

theorem startSide_eq (left : List Char) (now : Instant) :
    startSide left now = side (startExpression left) now := by
  rw [startSide, startExpression]
  split
  · rw [side, List.isEmpty_eq_false_iff.2 (by simp), if_neg Bool.false_ne_true]
  · rfl

/-- The expressions of a range in the order in which they are read. -/
def expressions (range : List Char) (anchors : Anchors) : List (List Char) :=
  if isOpen (Text.trim range) then []
  else match sides? range with
    | some (left, right) => [startExpression left, right].filter fun e ↦ !e.isEmpty
    | none => [anchors.start.toList, anchors.stop.toList]

/-- The first of some expressions that cannot be read. -/
def firstUnread (expressions : List (List Char)) (now : Instant) : Option (List Char) :=
  expressions.find? fun e ↦ !(TimeExpression.read e now).isOk

/-- The first expression that cannot be read is a named day that the calendar does not have. -/
def LeavesCalendar (expressions : List (List Char)) (now : Instant) : Prop :=
  ∃ e, firstUnread expressions now = some e ∧ TimeExpression.NamesBeyond e now

theorem not_leavesCalendar_nil (now : Instant) : ¬ LeavesCalendar [] now := by
  rintro ⟨e, he, -⟩
  cases he

theorem leavesCalendar_cons_iff (hnow : now.InRange) (e : List Char) (es : List (List Char)) :
    LeavesCalendar (e :: es) now ↔ TimeExpression.read e now = .error .outOfCalendar ∨
      (TimeExpression.read e now).isOk = true ∧ LeavesCalendar es now := by
  simp only [LeavesCalendar, firstUnread, ← TimeExpression.read_eq_outOfCalendar_iff hnow]
  cases hread : TimeExpression.read e now with
  | error r => simp [hread, Except.isOk, Except.toBool]
  | ok t => simp [hread, Except.isOk, Except.toBool]

/-- Of two readings one after the other, the second is only made after the first. -/
theorem bind_bind_eq_outOfCalendar_iff {α β γ : Type} {x : Except Rejection α}
    {y : Except Rejection β} {next : α → β → Except Rejection γ}
    (hnext : ∀ a b, next a b ≠ .error .outOfCalendar) :
    (x >>= fun a ↦ y >>= next a) = .error .outOfCalendar ↔
      x = .error .outOfCalendar ∨ x.isOk = true ∧ y = .error .outOfCalendar := by
  cases x with
  | error r => simp [bind, Except.bind, Except.isOk, Except.toBool]
  | ok a =>
    cases y with
    | error r => simp [bind, Except.bind, Except.isOk, Except.toBool]
    | ok b => simpa [bind, Except.bind, Except.isOk, Except.toBool] using hnext a b

theorem shorthandWindow_eq_outOfCalendar_iff :
    shorthandWindow range anchors = .error .outOfCalendar ↔
      TimeExpression.read anchors.start.toList anchors.now = .error .outOfCalendar ∨
        (TimeExpression.read anchors.start.toList anchors.now).isOk = true ∧
          TimeExpression.read anchors.stop.toList anchors.now = .error .outOfCalendar := by
  refine bind_bind_eq_outOfCalendar_iff fun start stop h ↦ ?_
  dsimp only at h
  split at h
  · cases h
  · split at h <;> cases h
  · split at h <;> cases h

theorem side_eq_outOfCalendar_iff {e : List Char} : side e now = .error .outOfCalendar ↔
    e ≠ [] ∧ TimeExpression.read e now = .error .outOfCalendar := by
  rw [side]
  cases e with
  | nil => simp
  | cons c cs => cases TimeExpression.read (c :: cs) now <;> simp [Except.map]

theorem isOk_side {e : List Char} :
    (side e now).isOk = (e.isEmpty || (TimeExpression.read e now).isOk) := by
  rw [side]
  cases e with
  | nil => rfl
  | cons c cs => cases TimeExpression.read (c :: cs) now <;> rfl

theorem leavesCalendar_filter_iff (hnow : now.InRange) (e : List Char) (es : List (List Char)) :
    LeavesCalendar ((e :: es).filter fun e ↦ !e.isEmpty) now ↔ side e now = .error .outOfCalendar ∨
      (side e now).isOk = true ∧ LeavesCalendar (es.filter fun e ↦ !e.isEmpty) now := by
  rw [side_eq_outOfCalendar_iff, isOk_side]
  cases e with
  | nil => simp
  | cons c cs => simp [leavesCalendar_cons_iff hnow]

/-- **A range leaves the calendar** with the first of its expressions that cannot be read. -/
theorem unshifted_eq_outOfCalendar_iff (hnow : anchors.now.InRange) :
    unshifted range anchors = .error .outOfCalendar ↔
      LeavesCalendar (expressions range anchors) anchors.now := by
  have hnil := not_leavesCalendar_nil anchors.now
  rw [expressions, unshifted]
  split
  · simp [hnil]
  · cases sides? range with
    | none =>
      simp only [leavesCalendar_cons_iff hnow, hnil, and_false, or_false,
        shorthandWindow_eq_outOfCalendar_iff]
    | some cut =>
      simp only [leavesCalendar_filter_iff hnow, List.filter_nil, hnil, and_false, or_false,
        startSide_eq]
      exact bind_bind_eq_outOfCalendar_iff fun start stop h ↦ by cases h

/-- A range is turned down, or leaves the calendar. -/
def Unread (r : Rejection) : Prop := (∃ text, r = .timeParse text) ∨ r = .outOfCalendar

theorem failsWith_expression (e : List Char) (now : Instant) :
    FailsWith Unread (TimeExpression.read e now) :=
  (TimeExpression.failsWith_read e now).mono fun _ h ↦ h.imp_left fun heq ↦ ⟨_, heq⟩

theorem failsWith_side (e : List Char) (now : Instant) : FailsWith Unread (side e now) := by
  rw [side]
  split
  · exact .ok none
  · exact (failsWith_expression e now).map

theorem failsWith_unshifted (range : List Char) (anchors : Anchors) :
    FailsWith Unread (unshifted range anchors) := by
  rw [unshifted]
  split
  · exact .ok _
  · split
    · rw [startSide_eq]
      exact (failsWith_side _ _).bind fun _ ↦ (failsWith_side _ _).bind fun _ ↦ .ok _
    · refine (failsWith_expression _ _).bind fun _ ↦ (failsWith_expression _ _).bind fun _ ↦ ?_
      dsimp only
      split
      · exact .error (.inl ⟨_, rfl⟩)
      · split
        · exact .ok _
        · exact .error (.inl ⟨_, rfl⟩)
      · split
        · exact .ok _
        · exact .error (.inl ⟨_, rfl⟩)

theorem failsWith_applyShift (shift : Option String) (w : Window) :
    FailsWith (fun r ↦ ∃ text, r = .timeParse text) (applyShift shift w) := by
  have hspan (words : List Char) : FailsWith (fun r ↦ ∃ text, r = .timeParse text)
      (Span.read words) := by
    rw [Span.read]
    split
    · exact .ok _
    · exact .error ⟨_, rfl⟩
  have hbound (words : List Char) (span : Span) (bound : Option Instant) :
      FailsWith (fun r ↦ ∃ text, r = .timeParse text) (shiftBound words span bound) := by
    cases bound with
    | none => exact .ok none
    | some t =>
      rw [shiftBound]
      split
      · exact .ok _
      · exact .error ⟨_, rfl⟩
  rw [applyShift]
  split
  · exact .ok w
  · exact (hspan _).bind fun span ↦ (hbound _ _ _).bind fun _ ↦ (hbound _ _ _).bind fun _ ↦ .ok _

/-- The window under a shift, once there is one without. -/
def finish (shift : Option String) (w : Window) : Except Rejection Window := do
  let w ← applyShift shift w
  if isInverted w then .error .invertedTimeRange else return w

theorem failsWith_finish (shift : Option String) (w : Window) :
    FailsWith (fun r ↦ (∃ text, r = .timeParse text) ∨ r = .invertedTimeRange)
      (finish shift w) := by
  refine ((failsWith_applyShift shift w).mono fun r h ↦ .inl h).bind fun w ↦ ?_
  split
  · exact .error (.inr rfl)
  · exact .ok w

/-- **A range leaves the calendar** before it is shifted, or not at all. -/
theorem read_eq_outOfCalendar_iff {range : Option String} (shift : Option String)
    (hnow : anchors.now.InRange) :
    read range shift anchors = .error .outOfCalendar ↔
      LeavesCalendar (expressions (range.getD "").toList anchors) anchors.now := by
  rw [← unshifted_eq_outOfCalendar_iff hnow]
  change (unshifted _ _ >>= finish shift) = _ ↔ _
  cases unshifted (range.getD "").toList anchors with
  | error r => exact Iff.rfl
  | ok w =>
    refine ⟨fun h ↦ ?_, nofun⟩
    rcases failsWith_finish shift w _ h with ⟨text, heq⟩ | heq <;> cases heq

theorem failsWith_read (range shift : Option String) (anchors : Anchors) :
    FailsWith (fun r ↦ Unread r ∨ r = .invertedTimeRange) (read range shift anchors) :=
  ((failsWith_unshifted _ _).mono fun _ ↦ .inl).bind fun w ↦
    (failsWith_finish shift w).mono fun _ h ↦ h.imp_left .inl

/-- The range has bounds from the first instant to the last, or is turned down. -/
def Resolves (range shift : Option String) (anchors : Anchors) : Prop :=
  (∃ w, read range shift anchors = .ok w ∧ w.Bounds Instant.Within) ∨
    (∃ text, read range shift anchors = .error (.timeParse text)) ∨
    read range shift anchors = .error .invertedTimeRange

/-- **A range resolves**, unless it leaves the calendar, or has a bound in the leap second behind
the last instant. -/
theorem resolves_iff {range shift : Option String} (hnow : anchors.now.Within) :
    Resolves range shift anchors ↔
      ¬ LeavesCalendar (expressions (range.getD "").toList anchors) anchors.now ∧
        ∀ w, read range shift anchors = .ok w → w.Bounds fun t ↦ t.isAfter .last = false := by
  rw [← read_eq_outOfCalendar_iff shift hnow.inRange]
  cases hread : read range shift anchors with
  | error r =>
    have hfails := failsWith_read range shift anchors r hread
    simp only [Resolves, hread, reduceCtorEq, false_and, exists_false, false_or, Except.error.injEq,
      IsEmpty.forall_iff, implies_true, and_true]
    rcases hfails with (⟨text, rfl⟩ | rfl) | rfl <;> simp
  | ok w =>
    obtain ⟨hbounds, -⟩ := Instant.isKept_inRange.bounds_read hnow.inRange hread
    simp only [Resolves, hread, Except.ok.injEq, exists_eq_left', reduceCtorEq, exists_false,
      or_false, not_false_eq_true, true_and, forall_eq']
    constructor
    · exact fun h ↦ ⟨fun t ht ↦ (h.start t ht).not_after, fun t ht ↦ (h.stop t ht).not_after⟩
    · exact fun h ↦ ⟨fun t ht ↦ ⟨hbounds.start t ht, h.start t ht⟩,
        fun t ht ↦ ⟨hbounds.stop t ht, h.stop t ht⟩⟩

/-- **Expressions and ranges resolve**, seen from any instant from the first to the last.  The
exceptions are named days that the calendar does not have, and the leap second behind the last
instant. -/
theorem resolution_iff {now : Instant} (hnow : now.Within) :
    (∀ e, TimeExpression.Resolves e now ↔ ¬ TimeExpression.NamesBeyond e now ∧
      ∀ t, Iso.read e = some t → t.isAfter .last = false) ∧
    ∀ range shift start stop, Resolves range shift ⟨start, stop, now⟩ ↔
      ¬ LeavesCalendar (expressions (range.getD "").toList ⟨start, stop, now⟩) now ∧
        ∀ w, read range shift ⟨start, stop, now⟩ = .ok w →
          w.Bounds fun t ↦ t.isAfter .last = false :=
  ⟨fun _ ↦ TimeExpression.resolves_iff hnow,
    fun _ _ start stop ↦ resolves_iff (show (Anchors.mk start stop now).now.Within from hnow)⟩

/-- On the first day there is no day before it, by its name or by a count. -/
theorem resolution_firstDay :
    Instant.first.Within ∧ ¬ TimeExpression.Resolves "Yesterday".toList .first ∧
      TimeExpression.Resolves "1 day ago".toList .first := by
  have hnow : Instant.first.Within := ⟨by decide, by decide⟩
  have hresolves (e : List Char) := (resolution_iff hnow).1 e
  refine ⟨hnow, fun h ↦ ((hresolves _).1 h).1 ?_, (hresolves _).2 ⟨?_, ?_⟩⟩
  · exact .inl (by decide +kernel)
  · rintro (⟨h, -⟩ | ⟨h, -⟩) <;> revert h <;> decide +kernel
  · have hiso : Iso.read "1 day ago".toList = none := by decide +kernel
    exact fun t ht ↦ absurd (hiso.symm.trans ht) nofun

/-- By its name, it ends the run; a timestamp can name the leap second behind the last instant. -/
theorem yesterday_firstDay :
    Instant.first.Within ∧
      TimeExpression.read "yesterday".toList .first = .error .outOfCalendar ∧
      TimeExpression.read "1 day ago".toList .first = .error (.timeParse "1 day ago") ∧
      TimeExpression.read "+262142-12-31T23:59:60".toList .epoch =
        .ok ⟨Instant.lastSecond, Instant.nanosPerSecond⟩ :=
  ⟨⟨by decide, by decide⟩, by decide +kernel, by decide +kernel, by decide +kernel⟩

end TimeRange

end ChartFeed
