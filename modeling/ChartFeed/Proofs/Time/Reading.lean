import Mathlib
import ChartFeed.Proofs.Time.Shift

/-!
# What all instants that are read have

A leap second is told by its nanoseconds, which then are those of the second after it and a whole
second more.  No instant that is read or computed has more than that.

* `Instant.IsKept` — what timestamps have and moving an instant keeps;
* `Iso.fraction_lt` — timestamps have at most nine digits behind the point;
* `Instant.IsKept.iso_read` — every timestamp has what is kept;
* `Instant.IsKept.read`, `Instant.IsKept.bounds_read` — so has every instant that is named, and
  every bound of a window, if `now` has it;
* `Instant.HasFraction` — the nanoseconds are those of a second, leap or not, which is kept:
  `TimeRange.hasFractions_read`.
-/

set_option autoImplicit false

namespace ChartFeed

theorem Instant.nanosPerSecond_pos : 0 < nanosPerSecond := by decide

/-! ## Timestamps -/

namespace Iso

theorem valueOf_append_singleton (digits : List Char) (c : Char) :
    valueOf (digits ++ [c]) = 10 * valueOf digits + (Text.digit? c).getD 0 := by
  rw [valueOf, List.foldl_append]
  rfl

theorem digit?_lt {c : Char} : (Text.digit? c).getD 0 < 10 := by
  rw [Text.digit?]
  split
  · next h =>
    have hlast : c.toNat ≤ 57 := h.2
    have hzero : '0'.toNat = 48 := rfl
    rw [Option.getD_some, hzero]
    omega
  · decide

theorem valueOf_lt (digits : List Char) : valueOf digits < 10 ^ digits.length := by
  induction digits using List.reverseRecOn with
  | nil => decide
  | append_singleton digits c ih =>
    have hdigit := digit?_lt (c := c)
    rw [valueOf_append_singleton, List.length_append, List.length_singleton, pow_succ]
    omega

/-- What stands behind the point is less than a second. -/
theorem nanosOf_lt (digits : List Char) : nanosOf digits < Instant.nanosPerSecond := by
  have hlength : (digits.take 9).length ≤ 9 := List.length_take_le ..
  have hpow : 10 ^ (digits.take 9).length * 10 ^ (9 - (digits.take 9).length) =
      Instant.nanosPerSecond := by
    rw [← pow_add, Nat.add_sub_cancel' hlength]
    rfl
  rw [nanosOf, ← hpow]
  exact Nat.mul_lt_mul_of_pos_right (valueOf_lt _) (Nat.pow_pos (by decide))

theorem fraction_lt {cs rest : List Char} {nanos : ℕ} (h : fraction cs = some (nanos, rest)) :
    nanos < Instant.nanosPerSecond := by
  unfold fraction at h
  split at h
  · simp only [Option.ite_none_left_eq_some, Option.some.injEq, Prod.mk.injEq] at h
    rw [← h.2.1]
    exact nanosOf_lt _
  · cases h
    decide

end Iso

/-! ## What is kept -/

/-- What a clock shows, and moving an instant keeps. -/
structure Instant.IsKept (P : Instant → Prop) : Prop where
  toInstant? {c : Clock} {t : Instant} (hc : c.nanos < nanosPerSecond)
    (h : c.toInstant? = some t) : P t
  startOfDay {t : Instant} (ht : P t) : P t.startOfDay
  shiftDays {t t' : Instant} {n : ℤ} (ht : P t) (h : t.shiftDays n = some t') : P t'
  addSeconds {t t' : Instant} {n : ℤ} (ht : P t) (h : t.addSeconds n = some t') : P t'
  addMonths {t t' : Instant} {n : ℤ} (ht : P t) (h : t.addMonths n = some t') : P t'

variable {P : Instant → Prop}

namespace Iso

/-- All instants that a reading can give are such. -/
def Gives (P : Instant → Prop) (reading : Option Instant) : Prop := ∀ t, reading = some t → P t

/-- What is read in two steps is such if what the second gives is. -/
theorem Gives.bind {α : Type} {first : Option α} {next : α → Option Instant}
    (h : ∀ a, first = some a → Gives P (next a)) : Gives P (first >>= next) := by
  intro t ht
  obtain ⟨a, ha, hnext⟩ := Option.bind_eq_some_iff.1 ht
  exact h a ha t hnext

theorem Gives.orElse {first second : Option Instant} (h : Gives P first) (h' : Gives P second) :
    Gives P (first <|> second) := by
  intro t ht
  rw [Option.orElse_eq_orElse, Option.orElse_eq_or, Option.or_eq_some_iff] at ht
  exact ht.elim (h t) fun ht ↦ h' t ht.2

end Iso

namespace Instant.IsKept

variable (hP : IsKept P) {t now : Instant}

include hP

open Iso (Gives)

/-- Every reading ends with a clock, once nothing is left to read. -/
theorem gives_toInstant? (c : Clock) {atEnd : Prop} [Decidable atEnd]
    (hc : c.nanos < nanosPerSecond) : Gives P (if atEnd then c.toInstant? else none) :=
  fun _ h ↦ hP.toInstant? hc (Option.ite_none_right_eq_some.1 h).2

theorem gives_strict (cs : List Char) : Gives P (Iso.strict cs) := by
  rw [Iso.strict]
  repeat refine Gives.bind fun _ _ ↦ ?_
  exact hP.gives_toInstant? _ (Iso.fraction_lt (by assumption))

theorem gives_lenient (letter withSeconds : Bool) (cs : List Char) :
    Gives P (Iso.lenient letter withSeconds cs) := by
  rw [Iso.lenient]
  cases letter <;> cases withSeconds
  all_goals
    simp only [Bool.false_eq_true, if_true, if_false]
    repeat refine Gives.bind fun _ _ ↦ ?_
  · exact hP.gives_toInstant? ⟨_, _, _, _, _, _⟩ nanosPerSecond_pos
  · exact hP.gives_toInstant? _ (Iso.fraction_lt (by assumption))
  · exact hP.gives_toInstant? ⟨_, _, _, _, _, _⟩ nanosPerSecond_pos
  · exact hP.gives_toInstant? _ (Iso.fraction_lt (by assumption))

theorem gives_dateOnly (cs : List Char) : Gives P (Iso.dateOnly cs) :=
  Gives.bind fun _ _ ↦ hP.gives_toInstant? ⟨_, _, _, _, _, _⟩ nanosPerSecond_pos

/-- **Every timestamp** has what is kept. -/
theorem iso_read (cs : List Char) : Gives P (Iso.read cs) := by
  rw [Iso.read]
  refine Gives.orElse (hP.gives_strict _) ?_
  iterate 4 refine Gives.orElse (hP.gives_lenient _ _ _) ?_
  exact hP.gives_dateOnly _

theorem addTo {s : Span} {t' : Instant} (ht : P t) (h : s.addTo t = some t') : P t' := by
  obtain ⟨amount, unit⟩ := s
  cases unit with
  | month | quarter | year => exact hP.addMonths ht h
  | _ => exact hP.addSeconds ht h

end Instant.IsKept

/-! ## Expressions -/

namespace TimeExpression

variable {expression : List Char} {now t : Instant}

theorem ofName?_ne_absolute (words : List (List Char)) :
    Moment.ofName? words ≠ some (.absolute t) := by
  unfold Moment.ofName?
  split <;> simp

theorem ofCount?_ne_absolute (words : List (List Char)) :
    Moment.ofCount? words ≠ some (.absolute t) := by
  unfold Moment.ofCount?
  split <;> simp [Option.bind_eq_some_iff]

/-- What is read is resolved. -/
theorem read_eq_ok_iff : read expression now = .ok t ↔
    ∃ m, Moment.ofExpression? expression = some m ∧ m.resolve now = some t := by
  rw [read]
  cases Moment.ofExpression? expression with
  | none => simp
  | some m => cases hm : m.resolve now <;> simp [hm]

/-- Only timestamps name instants by themselves. -/
theorem read_of_absolute (h : Moment.ofExpression? expression = some (.absolute t)) :
    Iso.read expression = some t := by
  rw [Moment.ofExpression?] at h
  simp only [Option.orElse_eq_orElse, Option.orElse_eq_or, Option.or_eq_some_iff,
    Option.map_eq_some_iff] at h
  rcases h with h | ⟨-, ⟨t', hread, heq⟩ | ⟨-, h⟩⟩
  · exact absurd h (ofName?_ne_absolute _)
  · cases heq
    exact hread
  · exact absurd h (ofCount?_ne_absolute _)

end TimeExpression

namespace Instant.IsKept

variable (hP : IsKept P) {expression : List Char} {now t : Instant}

include hP

theorem resolve (hnow : P now) {m : Moment} (hm : Moment.ofExpression? expression = some m)
    (h : m.resolve now = some t) : P t := by
  cases m with
  | now =>
    cases h
    exact hnow
  | midnight days => exact hP.shiftDays (hP.startOfDay hnow) h
  | absolute s =>
    cases h
    exact hP.iso_read _ _ (TimeExpression.read_of_absolute hm)
  | offset s =>
    rw [Moment.resolve] at h
    refine hP.addTo ?_ h
    split
    · exact hP.startOfDay hnow
    · exact hnow

/-- **The instant that an expression names** has what is kept. -/
theorem read (hnow : P now) (h : TimeExpression.read expression now = .ok t) : P t := by
  obtain ⟨m, hm, hresolve⟩ := TimeExpression.read_eq_ok_iff.1 h
  exact hP.resolve hnow hm hresolve

end Instant.IsKept

/-! ## Windows -/

/-- The bounds that there are are such. -/
structure Window.Bounds (P : Instant → Prop) (w : Window) : Prop where
  start (t : Instant) (h : w.start = some t) : P t
  stop (t : Instant) (h : w.stop = some t) : P t

namespace Instant.IsKept

open TimeRange

variable (hP : IsKept P) {anchors : Anchors} {w w' : Window} {now t : Instant}

include hP

theorem side {expression : List Char} (hnow : P now)
    (h : TimeRange.side expression now = .ok (some t)) : P t := by
  rw [TimeRange.side] at h
  split at h
  · cases h
  · obtain ⟨t', ht', heq⟩ := map_eq_ok.1 h
    cases heq
    exact hP.read hnow ht'

theorem startSide {expression : List Char} (hnow : P now)
    (h : TimeRange.startSide expression now = .ok (some t)) : P t := by
  rw [TimeRange.startSide] at h
  split at h
  · obtain ⟨t', ht', heq⟩ := map_eq_ok.1 h
    cases heq
    exact hP.read hnow ht'
  · exact hP.side hnow h

omit hP in
theorem bounds_mk {t u : Instant} (ht : P t) (hu : P u) : Window.Bounds P ⟨some t, some u⟩ :=
  ⟨fun _ h ↦ Option.some.inj h ▸ ht, fun _ h ↦ Option.some.inj h ▸ hu⟩

theorem bounds_shorthandWindow {range : List Char} (hnow : P anchors.now)
    (h : shorthandWindow range anchors = .ok w) : w.Bounds P := by
  rw [shorthandWindow] at h
  obtain ⟨start, hstart, h⟩ := bind_eq_ok.1 h
  obtain ⟨stop, hstop, h⟩ := bind_eq_ok.1 h
  have hstart := hP.read hnow hstart
  have hstop := hP.read hnow hstop
  split at h
  · cases h
  · split at h
    · next moved hmoved =>
      cases h
      exact bounds_mk (hP.addTo hstart hmoved) hstop
    · cases h
  · split at h
    · next moved hmoved =>
      cases h
      exact bounds_mk hstart (hP.addTo hstop hmoved)
    · cases h

theorem bounds_unshifted {range : List Char} (hnow : P anchors.now)
    (h : unshifted range anchors = .ok w) : w.Bounds P := by
  rw [unshifted] at h
  split at h
  · cases h
    exact ⟨nofun, nofun⟩
  · split at h
    · obtain ⟨start, hstart, h⟩ := bind_eq_ok.1 h
      obtain ⟨stop, hstop, h⟩ := bind_eq_ok.1 h
      cases h
      exact ⟨fun t ht ↦ hP.startSide hnow (hstart.trans (congrArg _ ht)),
        fun t ht ↦ hP.side hnow (hstop.trans (congrArg _ ht))⟩
    · exact hP.bounds_shorthandWindow hnow h

theorem shiftBound {shift : List Char} {span : Span} {bound bound' : Option Instant}
    (hbound : ∀ t, bound = some t → P t)
    (h : TimeRange.shiftBound shift span bound = .ok bound') : ∀ t, bound' = some t → P t := by
  rintro t' rfl
  cases bound with
  | none => cases h
  | some t =>
    rw [TimeRange.shiftBound] at h
    split at h
    · next moved hmoved =>
      cases h
      exact hP.addTo (hbound t rfl) hmoved
    · cases h

theorem bounds_applyShift {shift : Option String} (hw : w.Bounds P)
    (h : applyShift shift w = .ok w') : w'.Bounds P := by
  rw [applyShift] at h
  split at h
  · cases h
    exact hw
  · obtain ⟨span, -, h⟩ := bind_eq_ok.1 h
    obtain ⟨start, hstart, h⟩ := bind_eq_ok.1 h
    obtain ⟨stop, hstop, h⟩ := bind_eq_ok.1 h
    cases h
    exact ⟨hP.shiftBound hw.start hstart, hP.shiftBound hw.stop hstop⟩

/-- **The bounds of a window** have what is kept, if `now` has it. -/
theorem bounds_read {range shift : Option String} (hnow : P anchors.now)
    (h : TimeRange.read range shift anchors = .ok w) : w.Bounds P ∧ isInverted w = false := by
  rw [TimeRange.read] at h
  obtain ⟨w', hw', h⟩ := bind_eq_ok.1 h
  obtain ⟨w'', hw'', h⟩ := bind_eq_ok.1 h
  split at h
  · cases h
  · next hinverted =>
    cases h
    exact ⟨hP.bounds_applyShift (hP.bounds_unshifted hnow hw') hw'',
      Bool.eq_false_of_not_eq_true hinverted⟩

end Instant.IsKept

/-! ## Fractions -/

namespace Instant

variable {t t' : Instant} {n : ℤ}

/-- The nanoseconds are those of a second, or of a leap second. -/
def HasFraction (t : Instant) : Prop := t.nanos < 2 * nanosPerSecond

theorem hasFraction_toInstant? {c : Clock} (hc : c.nanos < nanosPerSecond)
    (h : c.toInstant? = some t) : t.HasFraction := by
  rw [Clock.toInstant?] at h
  split at h
  · next hvalid =>
    rw [checked_eq_some h, HasFraction]
    have hleap : c.second / 60 ≤ 1 := by omega
    nlinarith
  · cases h

theorem nanos_addSeconds_le (h : t.addSeconds n = some t') : t'.nanos ≤ t.nanos := by
  rw [addSeconds] at h
  repeat' split at h
  · rw [checked_eq_some h]
  · rw [checked_eq_some h]
    exact Nat.sub_le ..
  · rw [checked_eq_some h]
    exact Nat.sub_le ..
  · rw [Option.some.inj h]

theorem nanos_addMonths (h : t.addMonths n = some t') : t'.nanos = t.nanos := by
  rw [addMonths_eq_some h]

theorem nanos_shiftDays (h : t.shiftDays n = some t') : t'.nanos = t.nanos := by
  rw [shiftDays] at h
  split at h
  · rw [Option.some.inj h]
  · rw [checked_eq_some h]

theorem isKept_hasFraction : IsKept HasFraction where
  toInstant? := hasFraction_toInstant?
  startOfDay _ := Nat.mul_pos (by decide) nanosPerSecond_pos
  shiftDays ht h := (nanos_shiftDays h).trans_lt ht
  addSeconds ht h := (nanos_addSeconds_le h).trans_lt ht
  addMonths ht h := (nanos_addMonths h).trans_lt ht

end Instant

/-- The bounds that there are have fractions. -/
structure Window.HasFractions (w : Window) : Prop where
  start : ∀ t, w.start = some t → t.HasFraction
  stop : ∀ t, w.stop = some t → t.HasFraction

/-- **The bounds of a window have fractions** if `now` has one. -/
theorem TimeRange.hasFractions_read {range shift : Option String} {anchors : Anchors} {w : Window}
    (hnow : anchors.now.HasFraction) (h : read range shift anchors = .ok w) :
    w.HasFractions ∧ isInverted w = false := by
  obtain ⟨⟨hstart, hstop⟩, hinverted⟩ := Instant.isKept_hasFraction.bounds_read hnow h
  exact ⟨⟨hstart, hstop⟩, hinverted⟩

end ChartFeed
