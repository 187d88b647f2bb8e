import ChartFeed.Proofs.Time.Characters

/-!
# Blanks around a range

A text is cut into sides at a separator, wherever blanks make one, and blanks around the text can
make a separator of a colon at its end.  Where a text is cut may therefore depend on the blanks
around it; what comes of it does not.

* `TimeRange.IsCut` — the colons where a trimmed text may be cut, `TimeRange.exists_isCut_of_sides?`
  and `TimeRange.not_isCut_of_sides?`: it is cut at such a colon whenever there is one;
* `TimeRange.IsCut.of_length_lt` — of two such colons the first one begins the text, and the second
  has a blank before it;
* `TimeExpression.read_colon` — no expression has such a colon, so both readings fail;
* `TimeRange.sameOutcome_padded` — blanks around a range do not matter.
-/

set_option autoImplicit false

namespace ChartFeed

/-! ## Colons that no expression has -/

namespace TimeExpression

/-- **A colon is never first, nor behind anything but a digit.** -/
theorem read_colon {before : List Char} (h : ∀ c ∈ before.getLast?, Iso.isDigit c = false)
    (after : List Char) (now : Instant) : read (before ++ ':' :: after) now =
      .error (.timeParse (String.ofList (before ++ ':' :: after))) := by
  have hplain : ¬ Iso.Plain (before ++ ':' :: after) :=
    fun hplain ↦ hplain.colon_not_mem (List.mem_append_right _ (List.mem_cons_self ..))
  have hiso : Iso.read (before ++ ':' :: after) = none := by
    refine Option.eq_none_iff_forall_ne_some.2 fun t ht ↦ ?_
    obtain ⟨letters, hwritten⟩ := Iso.exists_written_of_read ht
    rw [Text.trim_append_cons rfl] at hwritten
    have hdigit := hwritten.isDigit_getLast
    cases hlast : (Text.trimStart before).getLast? with
    | none =>
      rw [hlast] at hdigit
      cases hdigit
    | some c =>
      rw [hlast] at hdigit
      exact Bool.false_ne_true ((h c (Text.mem_getLast?_of_trimStart hlast)).symm.trans hdigit)
  rw [read, Moment.ofExpression?_of_not_plain hplain, hiso]
  rfl

end TimeExpression

namespace TimeRange

variable {range trimmed before after left right : List Char}

/-! ## Where a text is cut -/

/-- A trimmed text may be cut at this colon: it is first, or between blanks, or last in a text that
does not begin with a colon.  The ends of the text count as blanks, and no separator comes before
the colon. -/
structure IsCut (trimmed before after : List Char) : Prop where
  eq_append : trimmed = before ++ ':' :: after
  before_after : before = [] ∨
    before.getLast? = some ' ' ∧ (after = [] ∨ after.head? = some ' ') ∨
    after = [] ∧ trimmed.head? ≠ some ':'
  le_length (left right : List Char) (h : trimmed = left ++ (separator ++ right)) :
    before.length ≤ left.length + 1

theorem eq_append_of_splitOnce (h : Text.splitOnce separator range = some (left, right)) :
    range = (left ++ [' ']) ++ ':' :: ' ' :: right := by
  simp [(Text.splitOnce_eq_some h).1, separator]

theorem trim_of_splitOnce (h : Text.splitOnce separator range = some (left, right)) :
    Text.trim range = Text.trimStart (left ++ [' ']) ++ ':' :: Text.trimEnd (' ' :: right) := by
  rw [eq_append_of_splitOnce h, Text.trim_append_cons rfl]

/-- A separator in the trimmed part is one of the whole text, so none comes before the cut. -/
theorem le_length_of_splitOnce (h : Text.splitOnce separator range = some (left, right))
    {left' right' : List Char} (heq : Text.trim range = left' ++ (separator ++ right')) :
    (Text.trimStart (left ++ [' '])).length ≤ left'.length + 1 := by
  obtain ⟨-, hfirst⟩ := Text.splitOnce_eq_some h
  obtain ⟨blanks, hblanks, -⟩ := Text.exists_eq_append_trimStart (left ++ [' '])
  obtain ⟨blanks', hblanks', -⟩ := Text.exists_eq_trimEnd_append (' ' :: right)
  have hwhole : range = (blanks ++ left') ++ (separator ++ (right' ++ blanks')) := by
    calc range = blanks ++ Text.trim range ++ blanks' := by
          rw [trim_of_splitOnce h]
          conv_lhs => rw [eq_append_of_splitOnce h, hblanks, hblanks']
          simp
      _ = (blanks ++ left') ++ (separator ++ (right' ++ blanks')) := by simp [heq]
  have hle := hfirst _ _ hwhole
  have hlength := congrArg List.length hblanks
  simp only [List.length_append, List.length_singleton] at hle hlength
  omega

theorem exists_isCut_of_splitOnce (h : Text.splitOnce separator range = some (left, right)) :
    ∃ before after, IsCut (Text.trim range) before after ∧
      Text.trim left = Text.trim before ∧ Text.trim right = Text.trim after := by
  have hbefore : Text.trimStart (left ++ [' ']) = [] ∨
      (Text.trimStart (left ++ [' '])).getLast? = some ' ' := by
    cases hlast : (Text.trimStart (left ++ [' '])).getLast? with
    | none => exact .inl (List.getLast?_eq_none_iff.1 hlast)
    | some c =>
      have hc := Text.mem_getLast?_of_trimStart hlast
      rw [List.getLast?_concat] at hc
      exact .inr hc.symm
  have hafter : Text.trimEnd (' ' :: right) = [] ∨
      (Text.trimEnd (' ' :: right)).head? = some ' ' := by
    cases hhead : (Text.trimEnd (' ' :: right)).head? with
    | none => exact .inl (List.head?_eq_none_iff.1 hhead)
    | some c => exact .inr (Text.mem_head?_of_trimEnd hhead).symm
  have hspace : Text.Blank [' '] := by decide
  refine ⟨_, _, ⟨trim_of_splitOnce h, hbefore.imp_right fun h ↦ .inl ⟨h, hafter⟩,
    fun _ _ ↦ le_length_of_splitOnce h⟩, ?_, ?_⟩
  · rw [Text.trim_trimStart]
    have happend := Text.trim_append_append (List.forall_mem_nil _) hspace left
    rwa [List.nil_append, eq_comm] at happend
  · rw [Text.trim_trimEnd]
    have happend := Text.trim_append_append hspace (List.forall_mem_nil _) right
    rwa [List.append_nil, eq_comm] at happend

/-- What is not cut at a separator has none in its trimmed part. -/
theorem trim_ne_of_splitOnce (h : Text.splitOnce separator range = none) (left right : List Char) :
    Text.trim range ≠ left ++ (separator ++ right) := by
  obtain ⟨blanks, blanks', hrange, -, -⟩ := Text.exists_eq_append_trim range
  intro heq
  refine Text.ne_of_splitOnce_eq_none h (blanks ++ left) (right ++ blanks') ?_
  rw [hrange, heq]
  simp

/-- **A text that has sides** is cut at a colon of its trimmed part. -/
theorem exists_isCut_of_sides? (h : sides? range = some (left, right)) :
    ∃ before after, IsCut (Text.trim range) before after ∧
      left = Text.trim before ∧ right = Text.trim after := by
  rw [sides?] at h
  split at h
  · next hsplit =>
    cases h
    exact exists_isCut_of_splitOnce hsplit
  · next hsplit =>
    have hfirst (before left' right') (heq : Text.trim range = left' ++ (separator ++ right')) :
        before ≤ left'.length + 1 := absurd heq (trim_ne_of_splitOnce hsplit left' right')
    split at h
    · next rest heq =>
      cases h
      exact ⟨[], rest, ⟨heq, .inl rfl, hfirst _⟩, rfl, rfl⟩
    · next hcons =>
      obtain ⟨hlast, heq⟩ := Option.ite_none_right_eq_some.1 h
      cases heq
      refine ⟨_, [], ⟨(List.dropLast_append_getLast? _ hlast).symm, .inr (.inr ⟨rfl, ?_⟩),
        hfirst _⟩, rfl, rfl⟩
      intro hhead
      obtain ⟨rest, heq⟩ := List.head?_eq_some_iff.1 hhead
      exact hcons rest heq

/-- A colon between blanks is in a separator. -/
theorem exists_eq_append_separator (hbefore : before.getLast? = some ' ')
    (hafter : after.head? = some ' ') : ∃ left right, before = left ++ [' '] ∧
      before ++ ':' :: after = left ++ (separator ++ right) := by
  obtain ⟨left, rfl⟩ := List.getLast?_eq_some_iff.1 hbefore
  obtain ⟨right, rfl⟩ := List.head?_eq_some_iff.1 hafter
  exact ⟨left, right, rfl, by simp [separator]⟩

/-- **A text without sides** has no such colon. -/
theorem not_isCut_of_sides? (h : sides? range = none) :
    ¬ IsCut (Text.trim range) before after := by
  rintro ⟨heq, hcut, -⟩
  rw [sides?] at h
  split at h
  · cases h
  · next hsplit =>
    split at h
    · cases h
    · next hcons =>
      have hlast : after ≠ [] := by
        rintro rfl
        rw [heq, if_pos List.getLast?_concat] at h
        cases h
      rcases hcut with rfl | ⟨hbefore, hafter⟩ | ⟨hafter, -⟩
      · exact hcons after heq
      · obtain ⟨left, right, -, hseparator⟩ :=
          exists_eq_append_separator hbefore (hafter.resolve_left hlast)
        exact trim_ne_of_splitOnce hsplit left right (heq.trans hseparator)
      · exact hlast hafter

/-! ## Two cuts of one text -/

/-- **Of two colons where a text may be cut**, the first one begins the text, and the second has a
blank before it. -/
theorem IsCut.of_length_lt {before' after' : List Char} (h : IsCut trimmed before after)
    (h' : IsCut trimmed before' after') (hlt : before.length < before'.length) :
    before = [] ∧ ∃ between, before' = ':' :: between ∧ between.getLast? = some ' ' ∧
      after = between ++ ':' :: after' := by
  obtain ⟨between, rfl, hafter⟩ : ∃ between, before' = before ++ ':' :: between ∧
      after = between ++ ':' :: after' := by
    rcases List.append_eq_append_iff.1 (h.eq_append.symm.trans h'.eq_append) with
      ⟨cs, hcs, heq⟩ | ⟨cs, hcs, -⟩
    · cases cs with
      | nil => simp [hcs] at hlt
      | cons c between =>
        obtain ⟨rfl, hafter⟩ := List.cons.inj heq
        exact ⟨between, hcs, hafter⟩
    · rw [hcs, List.length_append] at hlt
      omega
  have hne : after ≠ [] := by simp [hafter]
  obtain rfl : before = [] := by
    rcases h.before_after with hnil | ⟨hlast, hhead⟩ | ⟨hnil, -⟩
    · exact hnil
    · -- a separator before the second colon
      obtain ⟨left, right, rfl, hseparator⟩ :=
        exists_eq_append_separator hlast (hhead.resolve_left hne)
      have hle := h'.le_length left right (h.eq_append.trans hseparator)
      simp only [List.length_append, List.length_cons, List.length_nil] at hle
      omega
    · exact absurd hnil hne
  refine ⟨rfl, between, rfl, ?_, hafter⟩
  rcases h'.before_after with hnil | ⟨hlast, -⟩ | ⟨-, hhead⟩
  · cases hnil
  · cases between with
    | nil => cases hlast
    | cons c between => rwa [List.nil_append, List.getLast?_cons_cons] at hlast
  · exact absurd (h.eq_append ▸ rfl) hhead

/-! ## What comes of a cut -/

/-- The window between two sides. -/
def sidesWindow (left right : List Char) (now : Instant) : Except Rejection Window := do
  let start ← startSide left now
  let stop ← side right now
  return ⟨start, stop⟩

theorem startSide_nil (now : Instant) : startSide [] now = .ok none := rfl

/-- A side that has such a colon is no expression. -/
theorem side_colon {before : List Char} (h : ∀ c ∈ before.getLast?, Iso.isDigit c = false)
    (after : List Char) (now : Instant) : side (before ++ ':' :: after) now =
      .error (.timeParse (String.ofList (before ++ ':' :: after))) := by
  have hne : before ++ ':' :: after ≠ [] := by simp
  rw [side, List.isEmpty_eq_false_iff.2 hne, if_neg Bool.false_ne_true,
    TimeExpression.read_colon h]
  rfl

theorem startSide_colon {before : List Char} (h : ∀ c ∈ before.getLast?, Iso.isDigit c = false)
    (after : List Char) (now : Instant) : startSide (before ++ ':' :: after) now =
      .error (.timeParse (String.ofList (before ++ ':' :: after))) := by
  have hbare : isBareSpan (before ++ ':' :: after) = false := by
    refine Bool.eq_false_of_not_eq_true fun hbare ↦ ?_
    exact (plain_of_isBareSpan hbare).colon_not_mem
      (List.mem_append_right _ (List.mem_cons_self ..))
  rw [startSide, hbare, if_neg Bool.false_ne_true, side_colon h]

/-- **Cut at two colons**, a text is no range either way. -/
theorem IsCut.sameOutcome_of_length_lt {before' after' : List Char}
    (h : IsCut trimmed before after) (h' : IsCut trimmed before' after')
    (hlt : before.length < before'.length) (now : Instant) :
    SameOutcome (sidesWindow (Text.trim before) (Text.trim after) now)
      (sidesWindow (Text.trim before') (Text.trim after') now) := by
  obtain ⟨rfl, between, rfl, hlast, rfl⟩ := h.of_length_lt h' hlt
  have hstart : ∀ c ∈ (Text.trimStart between).getLast?, Iso.isDigit c = false := by
    intro c hc
    obtain rfl : ' ' = c := Option.some.inj (hlast.symm.trans (Text.mem_getLast?_of_trimStart hc))
    rfl
  have hright := side_colon hstart (Text.trimEnd after') now
  have hempty : ∀ c ∈ ([] : List Char).getLast?, Iso.isDigit c = false := nofun
  have hleft := startSide_colon hempty (Text.trimEnd between) now
  rw [← Text.trim_append_cons rfl] at hright
  have htrim : Text.trim (':' :: between) = [] ++ ':' :: Text.trimEnd between :=
    Text.trim_append_cons rfl [] between
  rw [← htrim] at hleft
  have hnil : Text.trim ([] : List Char) = [] := rfl
  rw [sidesWindow, sidesWindow, hnil, startSide_nil, hright, hleft]
  exact .error (.timeParse ..)

/-- **Texts that differ in the blanks around them** come to the same. -/
theorem sameOutcome_unshifted {range' : List Char} (h : Text.trim range = Text.trim range')
    (anchors : Anchors) : SameOutcome (unshifted range anchors) (unshifted range' anchors) := by
  rw [unshifted, unshifted, h]
  split
  · exact .refl _
  cases hsides : sides? range with
  | none =>
    cases hsides' : sides? range' with
    | none => exact .refl _
    | some cut =>
      obtain ⟨before, after, hcut, -, -⟩ := exists_isCut_of_sides? hsides'
      exact absurd (h ▸ hcut) (not_isCut_of_sides? hsides)
  | some cut =>
    obtain ⟨before, after, hcut, hleft, hright⟩ := exists_isCut_of_sides? hsides
    cases hsides' : sides? range' with
    | none => exact absurd (h ▸ hcut) (not_isCut_of_sides? hsides')
    | some cut' =>
      obtain ⟨before', after', hcut', hleft', hright'⟩ := exists_isCut_of_sides? hsides'
      rw [h] at hcut
      change SameOutcome (sidesWindow cut.1 cut.2 anchors.now)
        (sidesWindow cut'.1 cut'.2 anchors.now)
      rw [hleft, hright, hleft', hright']
      rcases lt_trichotomy before.length before'.length with hlt | heq | hlt
      · exact hcut.sameOutcome_of_length_lt hcut' hlt _
      · obtain ⟨rfl, hcons⟩ :=
          List.append_inj (hcut.eq_append.symm.trans hcut'.eq_append) heq
        rw [(List.cons.inj hcons).2]
        exact .refl _
      · exact (hcut'.sameOutcome_of_length_lt hcut hlt _).symm

/-- **Blanks around a range do not matter**, whatever the shift and the anchors. -/
theorem sameOutcome_padded {before after : String} (hbefore : Text.Blank before.toList)
    (hafter : Text.Blank after.toList) (range : String) (shift : Option String)
    (anchors : Anchors) :
    SameOutcome (read (some (before ++ range ++ after)) shift anchors)
      (read (some range) shift anchors) := by
  refine sameOutcome_read_of_unshifted (sameOutcome_unshifted ?_ anchors) shift
  rw [String.toList_append, String.toList_append, Text.trim_append_append hbefore hafter]

/-- Without the blank in front, the text is cut at its second colon. -/
theorem sameOutcome_twoColons :
    (Text.Blank " ".toList ∧ Text.Blank "\t".toList ∧
      sides? " : 2024-03-15 : today\t".toList = some ([], "2024-03-15 : today".toList) ∧
      sides? ": 2024-03-15 : today".toList = some (": 2024-03-15".toList, "today".toList)) ∧
    SameOutcome (read (some (" " ++ ": 2024-03-15 : today" ++ "\t")) (some "1 day") noonAnchors)
      (read (some ": 2024-03-15 : today") (some "1 day") noonAnchors) := by
  have hbefore : Text.Blank " ".toList := by decide
  have hafter : Text.Blank "\t".toList := by decide
  exact ⟨⟨hbefore, hafter, by decide +kernel, by decide +kernel⟩,
    sameOutcome_padded hbefore hafter _ _ _⟩

end TimeRange

end ChartFeed
