import Mathlib
import ChartFeed.Proofs.Query.Normalization
import ChartFeed.Proofs.Time.Reading

/-!
# Windows in milliseconds

Data sources get the bounds of the window in milliseconds.  The order of the bounds is checked
before, for instants, and counting milliseconds keeps it except in a leap second: its milliseconds
are counted on top of the second it belongs to, and so are those of the next second.

* `Instant.LeapPasses` — the count of one instant passes that of a later one in this way;
* `Instant.toMillis_le_iff` — there is no other way;
* `Query.canonicalMapping_bounds_le_iff` — so the bounds that data sources get are in order unless
  the first is in a leap second and the second within the second after it.
-/

set_option autoImplicit false

namespace ChartFeed

namespace Instant

/-- The first instant is in a leap second and the second in the second after it, at an earlier
millisecond. -/
def LeapPasses (t u : Instant) : Prop :=
  u.seconds = t.seconds + 1 ∧ u.nanos / 1000000 + 1000 < t.nanos / 1000000

/-- **Counting milliseconds keeps the order**, except from a leap second into the next. -/
theorem toMillis_le_iff {t u : Instant} (ht : t.HasFraction) (hle : t.isAfter u = false) :
    t.toMillis ≤ u.toMillis ↔ ¬ LeapPasses t u := by
  have horder := mt isAfter_iff.2 (ne_true_of_eq_false hle)
  rw [HasFraction, nanosPerSecond] at ht
  rw [toMillis, toMillis, LeapPasses]
  omega

end Instant

namespace Query

variable {settings : Settings} {directory : Directory} {now : Instant}

theorem get?_boundary (q : Query) :
    Dict.get? q.canonicalMapping "from_dttm" = some (boundJson q.window.start) ∧
      Dict.get? q.canonicalMapping "to_dttm" = some (boundJson q.window.stop) :=
  ⟨rfl, rfl⟩

/-- **The bounds that data sources get are in order** unless the first instant is in a leap second
and the second in the second after it, at an earlier millisecond. -/
theorem canonicalMapping_bounds_le_iff {v : Json} {q : Query} {t u : Instant}
    (hnow : now.HasFraction) (hq : ofJson settings directory now v = .ok q)
    (ht : q.window.start = some t) (hu : q.window.stop = some u) :
    ∃ first last : ℤ, Dict.get? q.canonicalMapping "from_dttm" = some (.int first) ∧
      Dict.get? q.canonicalMapping "to_dttm" = some (.int last) ∧
      (first ≤ last ↔ ¬ Instant.LeapPasses t u) := by
  obtain ⟨d, r, -, -, hnormal⟩ := ofJson_eq_ok hq
  obtain ⟨hfractions, hinverted⟩ := TimeRange.hasFractions_read hnow hnormal.window
  obtain ⟨hfrom, hto⟩ := get?_boundary q
  rw [ht] at hfrom
  rw [hu] at hto
  refine ⟨t.toMillis, u.toMillis, hfrom, hto, ?_⟩
  refine Instant.toMillis_le_iff (hfractions.start t ht) (Bool.eq_false_of_not_eq_true fun h ↦ ?_)
  exact ne_true_of_eq_false hinverted (TimeRange.isInverted_eq_true_iff.2 ⟨t, u, ht, hu, h⟩)

/-- A query for a window. -/
def windowQuery (range : String) (start stop : Instant) : Query :=
  { blank with window := ⟨some start, some stop⟩, timeRange := some range }

/-- Ten days of March have bounds in order. -/
theorem windowQuery_march_bounds_le_iff :
    (Instant.epoch.HasFraction ∧
      ofJson .initial [] .epoch (.obj [("time_range", .str "2024-03-10 : 2024-03-20")]) =
        .ok (windowQuery "2024-03-10 : 2024-03-20" ⟨1710028800, 0⟩ ⟨1710892800, 0⟩)) ∧
    ∃ first last : ℤ,
      Dict.get? (windowQuery "2024-03-10 : 2024-03-20" ⟨1710028800, 0⟩
        ⟨1710892800, 0⟩).canonicalMapping "from_dttm" = some (.int first) ∧
      Dict.get? (windowQuery "2024-03-10 : 2024-03-20" ⟨1710028800, 0⟩
        ⟨1710892800, 0⟩).canonicalMapping "to_dttm" = some (.int last) ∧
      (first ≤ last ↔ ¬ Instant.LeapPasses ⟨1710028800, 0⟩ ⟨1710892800, 0⟩) := by
  have hnow : Instant.epoch.HasFraction := Nat.mul_pos (by decide) Instant.nanosPerSecond_pos
  have hq : ofJson .initial [] .epoch (.obj [("time_range", .str "2024-03-10 : 2024-03-20")]) =
      .ok (windowQuery "2024-03-10 : 2024-03-20" ⟨1710028800, 0⟩ ⟨1710892800, 0⟩) := by
    decide +kernel
  exact ⟨⟨hnow, hq⟩, canonicalMapping_bounds_le_iff hnow hq rfl rfl⟩

/-- A window that begins in the leap second of 2016 and ends in the second after it. -/
theorem windowQuery_leap_bounds_gt :
    ofJson .initial [] .epoch
        (.obj [("time_range", .str "2016-12-31T23:59:60.5Z : 2017-01-01T00:00:00.2Z")]) =
      .ok (windowQuery "2016-12-31T23:59:60.5Z : 2017-01-01T00:00:00.2Z"
        ⟨1483228799, 1500000000⟩ ⟨1483228800, 200000000⟩) ∧
    Dict.get? (windowQuery "2016-12-31T23:59:60.5Z : 2017-01-01T00:00:00.2Z"
        ⟨1483228799, 1500000000⟩ ⟨1483228800, 200000000⟩).canonicalMapping "from_dttm" =
      some (.int 1483228800500) ∧
    Dict.get? (windowQuery "2016-12-31T23:59:60.5Z : 2017-01-01T00:00:00.2Z"
        ⟨1483228799, 1500000000⟩ ⟨1483228800, 200000000⟩).canonicalMapping "to_dttm" =
      some (.int 1483228800200) := by
  decide +kernel

end Query

end ChartFeed
