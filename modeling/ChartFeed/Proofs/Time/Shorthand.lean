import ChartFeed.Proofs.Time.Backward

/-!
# Shorthand ranges

`Last 3 weeks` and `Next 3 weeks` are short for ranges with two sides, of which one is today.

* `Iso.read_eq_none` — no timestamp is without a dash, so a count of units is none;
* `TimeExpression.read_count` — a count of units with `ago` or `later` behind it is that far from
  midnight;
* `TimeRange.unshifted_separator` — a text with a separator has two sides, and
  `TimeRange.sides?_eq_none`: a text without a colon has none;
* `TimeRange.unshifted_explicitRange`, `TimeRange.unshifted_shorthandText` — with sides or without,
  the window is between midnight and where the count of units leads;
* `TimeRange.sameOutcome_shorthand` — so the outcome is the same under every shift.
-/

set_option autoImplicit false

namespace ChartFeed

open Decimal (AllDigits)

/-! ## What is no timestamp -/

namespace Iso

variable {cs rest : List Char}

/-- Neither of the characters that timestamps and ranges are put together with. -/
def Plain (cs : List Char) : Prop := ∀ c ∈ cs, c ≠ '-' ∧ c ≠ ':'

theorem Plain.append {ds : List Char} (h : Plain cs) (h' : Plain ds) : Plain (cs ++ ds) :=
  List.forall_mem_append.2 ⟨h, h'⟩

theorem Plain.space (h : Plain cs) : Plain (' ' :: cs) :=
  List.forall_mem_cons.2 ⟨by decide, h⟩

theorem Plain.dash_not_mem (h : Plain cs) : '-' ∉ cs := fun hc ↦ (h _ hc).1 rfl

theorem Plain.colon_not_mem (h : Plain cs) : ':' ∉ cs := fun hc ↦ (h _ hc).2 rfl

theorem expect_eq_none {c : Char} (h : c ∉ cs) : expect c cs = none := by
  cases cs with
  | nil => rfl
  | cons d cs => exact if_neg fun hd : d = c ↦ h (hd ▸ List.mem_cons_self ..)

theorem subset_of_exactly {width n : ℕ} (h : exactly width cs = some (n, rest)) : rest ⊆ cs := by
  rw [exactly] at h
  cases (Option.ite_none_right_eq_some.1 h).2
  exact List.drop_subset _ _

theorem subset_of_upTo {width n : ℕ} (h : upTo width cs = some (n, rest)) : rest ⊆ cs := by
  rw [upTo] at h
  cases (Option.ite_none_left_eq_some.1 h).2
  exact List.Subset.trans (List.drop_subset _ _) (List.dropWhile_subset _)

theorem subset_of_lenientYear {year : ℤ} (h : lenientYear cs = some (year, rest)) : rest ⊆ cs := by
  have htrim : Text.trimStart cs ⊆ cs := List.dropWhile_subset _
  have hsigned {ds : List Char} {sign : ℤ → ℤ} (hds : ds ⊆ Text.trimStart cs)
      (h : lenientYear.signed ds sign = some (year, rest)) : rest ⊆ cs := by
    rw [lenientYear.signed] at h
    cases (Option.ite_none_left_eq_some.1 h).2
    exact List.Subset.trans (List.drop_subset _ _) (List.Subset.trans hds htrim)
  rw [lenientYear] at h
  split at h
  · next heq => exact hsigned (heq ▸ List.subset_cons_self ..) h
  · next heq => exact hsigned (heq ▸ List.subset_cons_self ..) h
  · obtain ⟨⟨n, rest'⟩, hread, heq⟩ := Option.map_eq_some_iff.1 h
    cases heq
    exact List.Subset.trans (subset_of_upTo hread) htrim

theorem strict_eq_none (h : '-' ∉ cs) : strict cs = none := by
  rw [strict]
  cases hyear : exactly 4 cs with
  | none => rfl
  | some read =>
    have hdash : expect '-' read.2 = none :=
      expect_eq_none fun hmem ↦ h (subset_of_exactly hyear hmem)
    change (expect '-' read.2).bind _ = none
    rw [hdash]
    rfl

theorem lenientDate_eq_none (h : '-' ∉ cs) : lenientDate cs = none := by
  rw [lenientDate]
  cases hyear : lenientYear cs with
  | none => rfl
  | some read =>
    have hdash : expect '-' read.2 = none :=
      expect_eq_none fun hmem ↦ h (subset_of_lenientYear hyear hmem)
    change (expect '-' read.2).bind _ = none
    rw [hdash]
    rfl

theorem lenient_eq_none (h : '-' ∉ cs) (letter withSeconds : Bool) :
    lenient letter withSeconds cs = none := by
  rw [lenient, lenientDate_eq_none h]
  rfl

theorem dateOnly_eq_none (h : '-' ∉ cs) : dateOnly cs = none := by
  rw [dateOnly, lenientDate_eq_none h]
  rfl

/-- **No timestamp is without a dash.** -/
theorem read_eq_none (h : '-' ∉ cs) : read cs = none := by
  have htrim : '-' ∉ Text.trim cs := fun hmem ↦ h (Text.trim_subset cs hmem)
  simp only [read, strict_eq_none htrim, lenient_eq_none htrim, dateOnly_eq_none htrim]
  rfl

end Iso

/-! ## Counts of units -/

/-- One digit or more, and the word for a unit of the calendar in any case. -/
structure IsCount (digits unit : List Char) (u : TimeUnit) : Prop where
  ne_nil : digits ≠ []
  allDigits : AllDigits digits
  isCalendar : u.isCalendar = true
  unit_eq : ∃ plural, Text.lower unit = (u.word plural).toList

/-- A number of units in words. -/
def countText (digits unit : List Char) : List Char := digits ++ ' ' :: unit

namespace IsCount

variable {digits unit : List Char} {u : TimeUnit}

theorem isNumeral (h : IsCount digits unit u) : Text.IsNumeral digits :=
  Text.isNumeral_of_allDigits h.allDigits h.ne_nil

theorem isWord_unit (h : IsCount digits unit u) : Text.IsWord unit := by
  obtain ⟨plural, hunit⟩ := h.unit_eq
  exact Text.isWord_of_lower (hunit ▸ TimeUnit.isWord_word u plural)

theorem ofWord? (h : IsCount digits unit u) : TimeUnit.ofWord? (Text.lower unit) = some u := by
  obtain ⟨plural, hunit⟩ := h.unit_eq
  rw [hunit, TimeUnit.ofWord?_word]

theorem words_lower (h : IsCount digits unit u) :
    Text.words (Text.lower (countText digits unit)) = [digits, Text.lower unit] := by
  rw [countText, Text.words_lower_append_cons rfl, h.isNumeral.lower_eq,
    h.isNumeral.isWord.words_eq, h.isWord_unit.lower.words_eq]
  rfl

theorem plain (h : IsCount digits unit u) : Iso.Plain (countText digits unit) := by
  refine Iso.Plain.append (fun c hc ↦ ?_) (Iso.Plain.space fun c hc ↦ ?_)
  · have hdigit := h.allDigits c hc
    constructor <;> rintro rfl <;> cases hdigit
  · obtain ⟨plural, hunit⟩ := h.unit_eq
    have hmem : c.toLower ∈ (u.word plural).toList := hunit ▸ List.mem_map_of_mem hc
    constructor <;> rintro rfl <;> revert hmem <;> cases u <;> cases plural <;> decide

/-- A count of units is a bare span. -/
theorem isBareSpan (h : IsCount digits unit u) :
    TimeRange.isBareSpan (countText digits unit) = true := by
  obtain ⟨plural, hunit⟩ := h.unit_eq
  have hdigits : digits.all Text.isDigit = true := by
    refine List.all_eq_true.2 fun c hc ↦ ?_
    obtain ⟨d, hd, rfl⟩ := Text.exists_digitChar (h.allDigits c hc)
    interval_cases d <;> rfl
  rw [TimeRange.isBareSpan, h.words_lower, hunit]
  simp only [hdigits, Bool.true_and]
  cases u <;> cases plural <;> rfl

end IsCount

/-! ## Directions -/

namespace TimeRange.Direction

/-- The word in front of a shorthand. -/
def word : Direction → String
  | .last => "Last"
  | .next => "Next"

/-- The word behind a count of units. -/
def turnWord : Direction → String
  | .last => "ago"
  | .next => "later"

/-- A span in a direction. -/
def turn : Direction → Span → Span
  | .last => Span.negate
  | .next => id

/-- Where a count of units leads from midnight. -/
def moved? (d : Direction) (digits : List Char) (u : TimeUnit) (now : Instant) : Option Instant :=
  (Span.count? digits).bind fun n ↦ (d.turn ⟨n, u⟩).addTo now.startOfDay

/-- The window between midnight and another instant. -/
def window (d : Direction) (now t : Instant) : Window :=
  match d with
  | .last => ⟨some t, some now.startOfDay⟩
  | .next => ⟨some now.startOfDay, some t⟩

theorem unit_turn (d : Direction) (s : Span) : (d.turn s).unit = s.unit := by
  cases d <;> rfl

theorem plain_turnWord (d : Direction) : Iso.Plain d.turnWord.toList := by
  cases d <;> simp [Iso.Plain, turnWord]

theorem words_turnWord (d : Direction) :
    Text.words (Text.lower d.turnWord.toList) = [d.turnWord.toList] := by
  cases d <;> decide

theorem turn?_turnWord (d : Direction) : Moment.turn? [d.turnWord.toList] = some d.turn := by
  cases d <;> rfl

end TimeRange.Direction

namespace TimeExpression

open TimeRange (Direction)

variable {digits unit : List Char} {u : TimeUnit}

/-- The midnight before `now`. -/
theorem read_today (now : Instant) : read "today".toList now = .ok now.startOfDay := by
  have hmoment : Moment.ofExpression? "today".toList = some (.midnight 0) := by decide +kernel
  have hzero : now.startOfDay.shiftDays 0 = some now.startOfDay := if_pos rfl
  simp only [read, hmoment, Moment.resolve, hzero]

/-- A count of units in words, and which way. -/
def countExpression (digits unit : List Char) (d : Direction) : List Char :=
  countText digits unit ++ ' ' :: d.turnWord.toList

theorem words_countExpression (h : IsCount digits unit u) (d : Direction) :
    Text.words (Text.lower (countExpression digits unit d)) =
      [digits, Text.lower unit, d.turnWord.toList] := by
  rw [countExpression, Text.words_lower_append_cons rfl, h.words_lower, d.words_turnWord]
  rfl

theorem plain_countExpression (h : IsCount digits unit u) (d : Direction) :
    Iso.Plain (countExpression digits unit d) := h.plain.append d.plain_turnWord.space

/-- **A count of units is counted from midnight.** -/
theorem read_count (h : IsCount digits unit u) (d : Direction) (now : Instant) :
    read (countExpression digits unit d) now = match d.moved? digits u now with
      | some t => .ok t
      | none => .error (.timeParse (String.ofList (countExpression digits unit d))) := by
  have hiso : Iso.read (countExpression digits unit d) = none :=
    Iso.read_eq_none (plain_countExpression h d).dash_not_mem
  have hmoment : Moment.ofExpression? (countExpression digits unit d) =
      (Span.count? digits).map fun n ↦ .offset (d.turn ⟨n, u⟩) := by
    rw [Moment.ofExpression?, hiso, words_countExpression h]
    simp [Moment.ofName?, Moment.ofCount?, d.turn?_turnWord, h.ofWord?, Option.map_eq_bind]
  have hresolve (n : ℤ) : Moment.resolve now (.offset (d.turn ⟨n, u⟩)) =
      (d.turn ⟨n, u⟩).addTo now.startOfDay := by
    rw [Moment.resolve, d.unit_turn, h.isCalendar, if_pos rfl]
  rw [read, hmoment, Direction.moved?]
  cases Span.count? digits with
  | none => rfl
  | some n =>
    simp only [Option.map_some, Option.bind_some, hresolve]
    cases (d.turn ⟨n, u⟩).addTo now.startOfDay <;> rfl

end TimeExpression

namespace TimeRange

open TimeExpression (countExpression words_countExpression plain_countExpression)

variable {cs left right digits unit : List Char} {u : TimeUnit} {anchors : Anchors}

/-! ## Ranges with two sides -/

theorem head?_of_isPrefixOf {c : Char} (h : separator.isPrefixOf (c :: cs) = true) :
    cs.head? = some ':' := by
  cases cs with
  | nil => simp [separator, List.isPrefixOf] at h
  | cons d cs =>
    simp only [separator, List.isPrefixOf, Bool.and_eq_true, beq_iff_eq] at h
    rw [List.head?_cons, h.2.1]

/-- A text is cut at a separator with no colon before it. -/
theorem splitOnce_separator (h : ':' ∉ left) (right : List Char) :
    Text.splitOnce separator (left ++ (separator ++ right)) = some (left, right) := by
  induction left with
  | nil => rfl
  | cons c left ih =>
    have hleft : ':' ∉ left := mt (List.mem_cons_of_mem c) h
    -- a separator that begins here has its colon in the left part, or in place of its own blank
    have hprefix : ¬ separator.isPrefixOf (c :: (left ++ (separator ++ right))) := by
      intro hprefix
      have hhead := head?_of_isPrefixOf hprefix
      cases left with
      | nil => cases hhead
      | cons d left => exact hleft (Option.some.inj hhead ▸ List.mem_cons_self ..)
    rw [List.cons_append, Text.splitOnce, if_neg hprefix, ih hleft]
    rfl

theorem splitOnce_eq_none (h : ':' ∉ cs) : Text.splitOnce separator cs = none := by
  induction cs with
  | nil => rfl
  | cons c cs ih =>
    have hcs : ':' ∉ cs := mt (List.mem_cons_of_mem c) h
    have hprefix : ¬ separator.isPrefixOf (c :: cs) :=
      fun hprefix ↦ hcs (List.mem_of_mem_head? (head?_of_isPrefixOf hprefix))
    rw [Text.splitOnce, if_neg hprefix, ih hcs]
    rfl

/-- **A text without a colon has no sides.** -/
theorem sides?_eq_none (h : ':' ∉ cs) : sides? cs = none := by
  have htrim : ':' ∉ Text.trim cs := fun hmem ↦ h (Text.trim_subset cs hmem)
  rw [sides?, splitOnce_eq_none h]
  split
  · next hcut => cases hcut
  · split
    · next hcons => exact absurd (hcons ▸ List.mem_cons_self ..) htrim
    · exact if_neg fun hlast ↦ htrim (List.mem_of_getLast? hlast)

/-- What is open has no words, or says so. -/
theorem isOpen_trim_eq_false (hne : Text.words (Text.lower cs) ≠ [])
    (hfilter : Text.words (Text.lower cs) ≠ ["no".toList, "filter".toList]) :
    isOpen (Text.trim cs) = false := by
  rw [← Text.words_lower_trim] at hne hfilter
  rw [isOpen, Bool.or_eq_false_iff]
  refine ⟨List.isEmpty_eq_false_iff.2 fun hnil ↦ hne ?_, beq_eq_false_iff_ne.2 fun heq ↦ hfilter ?_⟩
  · rw [hnil]
    rfl
  · rw [heq]
    decide

/-- **A text with a separator has two sides.** -/
theorem unshifted_separator (hcolon : ':' ∉ left) (hleft : Text.trim left = left)
    (hright : Text.trim right = right) (anchors : Anchors) :
    unshifted (left ++ (separator ++ right)) anchors = do
      let start ← startSide left anchors.now
      let stop ← side right anchors.now
      return ⟨start, stop⟩ := by
  have hwords : Text.words (Text.lower (left ++ (separator ++ right))) =
      Text.words (Text.lower left) ++ [':'] :: Text.words (Text.lower right) :=
    (Text.words_lower_append_cons rfl left _).trans
      (congrArg _ (Text.words_lower_append_cons rfl [':'] right))
  have hmem : [':'] ∈ Text.words (Text.lower (left ++ (separator ++ right))) := by
    rw [hwords]
    exact List.mem_append_right _ (List.mem_cons_self ..)
  have hopen : isOpen (Text.trim (left ++ (separator ++ right))) = false :=
    isOpen_trim_eq_false (List.ne_nil_of_mem hmem) fun heq ↦ absurd (heq ▸ hmem) (by decide)
  have hsides : sides? (left ++ (separator ++ right)) = some (left, right) := by
    rw [sides?, splitOnce_separator hcolon]
    simp only [hleft, hright]
  rw [unshifted, hopen, if_neg Bool.false_ne_true, hsides]

/-! ## Ranges around today -/

/-- Relative ranges begin and end today. -/
def todayAnchors (now : Instant) : Anchors := ⟨"today", "today", now⟩

/-- The window between midnight and where a count of units leads from there, or a rejection. -/
def countWindow (d : Direction) (digits : List Char) (u : TimeUnit) (now : Instant)
    (text : List Char) : Except Rejection Window :=
  match d.moved? digits u now with
  | some t => .ok (d.window now t)
  | none => .error (.timeParse (String.ofList text))

theorem sameOutcome_countWindow (d : Direction) (digits : List Char) (u : TimeUnit) (now : Instant)
    (text text' : List Char) :
    SameOutcome (countWindow d digits u now text) (countWindow d digits u now text') := by
  rw [countWindow, countWindow]
  cases d.moved? digits u now with
  | none => exact .error (.timeParse ..)
  | some t => exact .ok _

theorem trim_today : Text.trim "today".toList = "today".toList := by decide +kernel

theorem side_today (now : Instant) : side "today".toList now = .ok (some now.startOfDay) := by
  rw [side, TimeExpression.read_today]
  rfl

theorem startSide_today (now : Instant) :
    startSide "today".toList now = .ok (some now.startOfDay) := by
  have hbare : isBareSpan "today".toList = false := by decide +kernel
  rw [startSide, hbare, if_neg Bool.false_ne_true, side_today]

theorem side_count (digits unit : List Char) (d : Direction) (now : Instant) :
    side (countExpression digits unit d) now =
      (TimeExpression.read (countExpression digits unit d) now).map some := by
  have hne : countExpression digits unit d ≠ [] := by simp [countExpression]
  rw [side, List.isEmpty_eq_false_iff.2 hne, if_neg Bool.false_ne_true]

/-- **A count of units begins as long ago**, whether that is said or not. -/
theorem startSide_count (h : IsCount digits unit u) (now : Instant) :
    startSide (countText digits unit) now = side (countExpression digits unit .last) now ∧
      startSide (countExpression digits unit .last) now =
        side (countExpression digits unit .last) now := by
  constructor
  · rw [startSide, h.isBareSpan, if_pos rfl, side_count]
    rfl
  · have hbare : isBareSpan (countExpression digits unit .last) = false := by
      rw [isBareSpan, words_countExpression h]
    rw [startSide, hbare, if_neg Bool.false_ne_true]

/-- What a shorthand is short for. -/
def explicitRange (d : Direction) (digits unit : List Char) : List Char :=
  match d with
  | .last => countExpression digits unit .last ++ (separator ++ "today".toList)
  | .next => "today".toList ++ (separator ++ countExpression digits unit .next)

theorem trim_countExpression (h : IsCount digits unit u) (d : Direction) :
    Text.trim (countExpression digits unit d) = countExpression digits unit d := by
  have hlast : Text.IsWord d.turnWord.toList := by
    cases d <;> exact Text.isWord_of_all (by decide) rfl
  have hassoc : countExpression digits unit d =
      digits ++ (' ' :: unit ++ [' '] ++ d.turnWord.toList) := by
    simp [countExpression, countText]
  rw [hassoc]
  exact h.isNumeral.isWord.trim_append hlast _

/-- **With two sides**, the window is between midnight and where the count of units leads. -/
theorem unshifted_explicitRange (h : IsCount digits unit u) (d : Direction) (now : Instant) :
    unshifted (explicitRange d digits unit) (todayAnchors now) =
      countWindow d digits u now (countExpression digits unit d) := by
  have hcolon := (plain_countExpression h d).colon_not_mem
  have hread := TimeExpression.read_count h d now
  rw [countWindow]
  cases d with
  | last =>
    rw [explicitRange, unshifted_separator hcolon (trim_countExpression h _) trim_today]
    simp only [todayAnchors, (startSide_count h now).2, side_count, side_today, hread]
    cases Direction.moved? .last digits u now <;> rfl
  | next =>
    rw [explicitRange, unshifted_separator (by decide) trim_today (trim_countExpression h _)]
    simp only [todayAnchors, startSide_today, side_count, hread]
    cases Direction.moved? .next digits u now <;> rfl

/-- **A count of units alone** at the beginning of a range says `ago`. -/
theorem unshifted_countText (h : IsCount digits unit u) (now : Instant) :
    unshifted (countText digits unit ++ (separator ++ "today".toList)) (todayAnchors now) =
      unshifted (explicitRange .last digits unit) (todayAnchors now) := by
  have htrim : Text.trim (countText digits unit) = countText digits unit :=
    h.isNumeral.isWord.trim_append h.isWord_unit [' ']
  have hcolon := (plain_countExpression h .last).colon_not_mem
  rw [explicitRange, unshifted_separator h.plain.colon_not_mem htrim trim_today,
    unshifted_separator hcolon (trim_countExpression h _) trim_today, todayAnchors,
    (startSide_count h now).1, (startSide_count h now).2]

/-- The direction, the amount and the unit in words. -/
def shorthandText (d : Direction) (digits unit : List Char) : List Char :=
  d.word.toList ++ ' ' :: countText digits unit

theorem words_shorthandText (h : IsCount digits unit u) (d : Direction) :
    Text.words (Text.lower (shorthandText d digits unit)) =
      [Text.lower d.word.toList, digits, Text.lower unit] := by
  have hword : Text.words (Text.lower d.word.toList) = [Text.lower d.word.toList] := by
    cases d <;> decide
  rw [shorthandText, Text.words_lower_append_cons rfl, hword, h.words_lower]
  rfl

theorem shorthand?_shorthandText (h : IsCount digits unit u) (d : Direction) :
    shorthand? (shorthandText d digits unit) =
      (Span.count? digits).map fun n ↦ (d, ⟨n, u⟩) := by
  have hword : direction? (Text.lower d.word.toList) = some d := by
    cases d <;> decide
  rw [shorthand?, words_shorthandText h]
  simp [hword, h.ofWord?, Option.map_eq_bind]

/-- **Without sides**, the window is the same. -/
theorem unshifted_shorthandText (h : IsCount digits unit u) (d : Direction) (now : Instant) :
    unshifted (shorthandText d digits unit) (todayAnchors now) =
      countWindow d digits u now (shorthandText d digits unit) := by
  have hwords := words_shorthandText h d
  have hopen : isOpen (Text.trim (shorthandText d digits unit)) = false :=
    isOpen_trim_eq_false (by simp [hwords]) (by simp [hwords])
  have hcolon : ':' ∉ shorthandText d digits unit := by
    have hword : Iso.Plain d.word.toList := by cases d <;> simp [Iso.Plain, Direction.word]
    exact (hword.append h.plain.space).colon_not_mem
  have htrim : Text.trim (shorthandText d digits unit) = shorthandText d digits unit := by
    have hword : Text.IsWord d.word.toList := by
      cases d <;> exact Text.isWord_of_all (by decide) rfl
    have happend := hword.trim_append h.isWord_unit (' ' :: (digits ++ [' ']))
    simpa [shorthandText, countText] using happend
  rw [unshifted, hopen, if_neg Bool.false_ne_true, sides?_eq_none hcolon, htrim, countWindow]
  simp only [shorthandWindow, todayAnchors, TimeExpression.read_today, shorthand?_shorthandText h,
    Direction.moved?]
  cases Span.count? digits with
  | none => rfl
  | some n =>
    simp only [bind, Except.bind, Option.map_some, Option.bind_some]
    cases d with
    | last =>
      simp only [Direction.turn]
      cases (Span.negate ⟨n, u⟩).addTo now.startOfDay <;> rfl
    | next =>
      simp only [Direction.turn, id]
      cases Span.addTo ⟨n, u⟩ now.startOfDay <;> rfl

/-- A shorthand comes to the same as what it is short for. -/
theorem sameOutcome_explicitRange (h : IsCount digits unit u) (d : Direction) (now : Instant) :
    SameOutcome (unshifted (shorthandText d digits unit) (todayAnchors now))
      (unshifted (explicitRange d digits unit) (todayAnchors now)) := by
  rw [unshifted_shorthandText h, unshifted_explicitRange h]
  exact sameOutcome_countWindow ..

/-- What comes to the same before a shift does so under it. -/
theorem sameOutcome_read_of_unshifted {range range' : String}
    (h : SameOutcome (unshifted range.toList anchors) (unshifted range'.toList anchors))
    (shift : Option String) :
    SameOutcome (read (some range) shift anchors) (read (some range') shift anchors) := by
  rw [read, read, Option.getD_some, Option.getD_some]
  generalize unshifted range.toList anchors = before at h ⊢
  generalize unshifted range'.toList anchors = before' at h ⊢
  cases h with
  | ok w => exact .refl _
  | error h => exact .error h

/-- **A shorthand is short for a range with two sides**: under every shift both have the same
outcome.  So has the range that begins with the count of units alone. -/
theorem sameOutcome_shorthand {digits unit : String} (h : IsCount digits.toList unit.toList u)
    (shift : Option String) (now : Instant) :
    SameOutcome (read (some ("Last " ++ digits ++ " " ++ unit)) shift (todayAnchors now))
        (read (some (digits ++ " " ++ unit ++ " ago : today")) shift (todayAnchors now)) ∧
      SameOutcome (read (some ("Last " ++ digits ++ " " ++ unit)) shift (todayAnchors now))
        (read (some (digits ++ " " ++ unit ++ " : today")) shift (todayAnchors now)) ∧
      SameOutcome (read (some ("Next " ++ digits ++ " " ++ unit)) shift (todayAnchors now))
        (read (some ("today : " ++ digits ++ " " ++ unit ++ " later")) shift
          (todayAnchors now)) := by
  have hlast : ("Last " ++ digits ++ " " ++ unit).toList =
      shorthandText .last digits.toList unit.toList := by
    simp [shorthandText, countText, Direction.word]
  have hago : (digits ++ " " ++ unit ++ " ago : today").toList =
      explicitRange .last digits.toList unit.toList := by
    simp [explicitRange, countExpression, countText, Direction.turnWord, separator]
  have hbare : (digits ++ " " ++ unit ++ " : today").toList =
      countText digits.toList unit.toList ++ (separator ++ "today".toList) := by
    simp [countText, separator]
  have hnext : ("Next " ++ digits ++ " " ++ unit).toList =
      shorthandText .next digits.toList unit.toList := by
    simp [shorthandText, countText, Direction.word]
  have hlater : ("today : " ++ digits ++ " " ++ unit ++ " later").toList =
      explicitRange .next digits.toList unit.toList := by
    simp [explicitRange, countExpression, countText, Direction.turnWord, separator]
  refine ⟨sameOutcome_read_of_unshifted ?_ shift, sameOutcome_read_of_unshifted ?_ shift,
    sameOutcome_read_of_unshifted ?_ shift⟩
  · rw [hlast, hago]
    exact sameOutcome_explicitRange h .last now
  · rw [hlast, hbare, unshifted_countText h]
    exact sameOutcome_explicitRange h .last now
  · rw [hnext, hlater]
    exact sameOutcome_explicitRange h .next now

/-- Three weeks with a zero in front and letters of both kinds, moved back by a day. -/
theorem sameOutcome_lastWeeks :
    IsCount "03".toList "wEEKS".toList .week ∧
      read (some "Last 03 wEEKS") (some "1 day") (todayAnchors noonAnchors.now) =
        .ok ⟨some ⟨1708560000, 0⟩, some ⟨1710374400, 0⟩⟩ ∧
      SameOutcome (read (some "Last 03 wEEKS") (some "1 day") (todayAnchors noonAnchors.now))
        (read (some "03 wEEKS : today") (some "1 day") (todayAnchors noonAnchors.now)) := by
  have hcount : IsCount "03".toList "wEEKS".toList .week :=
    ⟨by decide, List.all_eq_true.1 (by decide), rfl, true, by decide⟩
  have hsame := sameOutcome_shorthand hcount (some "1 day") noonAnchors.now
  exact ⟨hcount, by decide +kernel, hsame.2.1⟩

end TimeRange

end ChartFeed
