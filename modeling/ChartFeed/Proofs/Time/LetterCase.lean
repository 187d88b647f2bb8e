import ChartFeed.Proofs.Time.Characters

/-!
# The case of letters in time expressions

Words are read in small letters, so their case does not matter.  Timestamps are read as they stand:
the strict form has its letters in either case, the lenient forms have a capital T or none.

* `Iso.strict_lower` — the strict form does not depend on the case of its letters;
* `Iso.IsLocal` — the lenient forms with a T, `Iso.IsLocal.filter_isAlpha`: it is their only letter;
* `TimeExpression.agree_iff` — the case of letters does not matter, except in those.
-/

set_option autoImplicit false

namespace ChartFeed

open Text (lower)

namespace Iso

variable {cs : List Char}

/-! ## The strict form -/

theorem isDigit_toLower (c : Char) : isDigit c.toLower = isDigit c := by
  cases hc : c.isAlpha with
  | false => rw [Text.toLower_of_not_isAlpha hc]
  | true =>
    have hnone {d : Char} (hd : d.isAlpha = true) : isDigit d = false :=
      Bool.eq_false_of_not_eq_true fun hdigit ↦
        Bool.false_ne_true ((isAlpha_eq_false_of_isDigit hdigit).symm.trans hd)
    rw [hnone hc, hnone ((Char.isAlpha_toLower_eq_isAlpha c).trans hc)]

/-- A reader that finds the same in small letters, and leaves the rest in small letters. -/
def CaseBlind {α : Type} (read : List Char → Option (α × List Char)) : Prop :=
  ∀ cs, read (lower cs) = (read cs).map (Prod.map id lower)

/-- What reads on behind it is the same if it does not see the case of letters either. -/
theorem CaseBlind.bind_eq {α β : Type} {read : List Char → Option (α × List Char)}
    (h : CaseBlind read) {next next' : α × List Char → Option β}
    (hnext : ∀ a rest, next (a, lower rest) = next' (a, rest)) (cs : List Char) :
    (read (lower cs)).bind next = (read cs).bind next' := by
  rw [h cs]
  cases read cs with
  | none => rfl
  | some found => exact hnext found.1 found.2

/-- So is what reads on behind a character. -/
theorem bind_lower {β : Type} {read : Option (List Char)} {next next' : List Char → Option β}
    (hnext : ∀ rest, next (lower rest) = next' rest) :
    (read.map lower).bind next = read.bind next' := by
  cases read with
  | none => rfl
  | some rest => exact hnext rest

theorem takeDigits_lower (most : ℕ) (cs : List Char) :
    takeDigits most (lower cs) = Prod.map id lower (takeDigits most cs) := by
  have hdigit : isDigit ∘ Char.toLower = isDigit := funext isDigit_toLower
  have hdigits : ((lower cs).take most).takeWhile isDigit = (cs.take most).takeWhile isDigit := by
    rw [lower, ← List.map_take, List.takeWhile_map, hdigit]
    refine (List.map_congr_left fun c hc ↦ ?_).trans (List.map_id _)
    exact Text.toLower_of_not_isAlpha (isAlpha_eq_false_of_isDigit (List.mem_takeWhile_imp hc))
  simp only [takeDigits, hdigits, Prod.map, id]
  rw [lower, lower, List.map_drop]

theorem caseBlind_exactly (width : ℕ) : CaseBlind (exactly width) := by
  intro cs
  simp only [exactly, takeDigits_lower, Prod.map, id]
  split <;> rfl

theorem expect_lower {c : Char} (hc : c.isAlpha = false) (cs : List Char) :
    expect c (lower cs) = (expect c cs).map lower := by
  cases cs with
  | nil => rfl
  | cons d cs =>
    change (if d.toLower = c then some (lower cs) else none) =
      (if d = c then some cs else none).map lower
    simp only [Text.toLower_eq_iff hc]
    split <;> rfl

/-- What may stand between a date and a time of day. -/
theorem expectMark_lower (cs : List Char) :
    (expect 'T' (lower cs) <|> expect 't' (lower cs) <|> expect ' ' (lower cs)) =
      (expect 'T' cs <|> expect 't' cs <|> expect ' ' cs).map lower := by
  have hmark (c : Char) (cs : List Char) :
      (expect 'T' (c :: cs) <|> expect 't' (c :: cs) <|> expect ' ' (c :: cs)) =
        if (c = 'T' ∨ c = 't') ∨ c = ' ' then some cs else none := by
    simp only [expect]
    split_ifs <;> simp_all
  cases cs with
  | nil => rfl
  | cons c cs =>
    have hletter : c.toLower = 'T' ∨ c.toLower = 't' ↔ c = 'T' ∨ c = 't' :=
      Text.toLower_eq_or_iff rfl rfl rfl
    rw [lower, List.map_cons, hmark, hmark]
    simp only [hletter, Text.toLower_eq_iff (c := ' ') rfl]
    split <;> rfl

theorem caseBlind_fraction : CaseBlind fraction := by
  have hpoint (cs : List Char) : fraction ('.' :: cs) =
      if (takeDigits cs.length cs).1.isEmpty then none
      else some (nanosOf (takeDigits cs.length cs).1, (takeDigits cs.length cs).2) := rfl
  have hnone {c : Char} (hc : c ≠ '.') (cs : List Char) :
      fraction (c :: cs) = some (0, c :: cs) := by
    rw [fraction]
    exact fun rest heq ↦ hc (List.cons.inj heq).1
  intro cs
  cases cs with
  | nil => rfl
  | cons c cs =>
    by_cases hc : c = '.'
    · subst hc
      have hlength : (lower cs).length = cs.length := List.length_map _
      change fraction ('.' :: lower cs) = _
      rw [hpoint, hpoint, hlength, takeDigits_lower]
      simp only [Prod.map, id]
      split <;> rfl
    · rw [hnone hc]
      exact hnone (mt (Text.toLower_eq_iff rfl).1 hc) _

theorem caseBlind_minutes : CaseBlind offset.minutes := by
  intro cs
  simp only [offset.minutes, Option.bind_eq_bind, Option.map_bind]
  refine (caseBlind_exactly 2).bind_eq (fun hours cs ↦ ?_) cs
  simp only [Function.comp_apply, Option.map_bind]
  rw [expect_lower rfl]
  refine bind_lower fun cs ↦ ?_
  refine (caseBlind_exactly 2).bind_eq (fun minutes cs ↦ ?_) cs
  dsimp only
  split <;> rfl

theorem caseBlind_offset : CaseBlind offset := by
  intro cs
  cases cs with
  | nil => rfl
  | cons c cs =>
    have hletter : c.toLower = 'Z' ∨ c.toLower = 'z' ↔ c = 'Z' ∨ c = 'z' :=
      Text.toLower_eq_or_iff rfl rfl rfl
    have hminus : (Char.ofNat 0x2212).isAlpha = false := rfl
    have hminutes : offset.minutes (lower cs) = _ := caseBlind_minutes cs
    change offset (c.toLower :: lower cs) = _
    simp only [offset, hletter, Text.toLower_eq_iff (c := '+') rfl,
      Text.toLower_eq_iff (c := '-') rfl, Text.toLower_eq_iff hminus, hminutes]
    split_ifs
    · rfl
    all_goals cases offset.minutes cs <;> rfl

/-- **The strict form** does not depend on the case of its letters. -/
theorem strict_lower (cs : List Char) : strict (lower cs) = strict cs := by
  rw [strict, strict]
  refine (caseBlind_exactly 4).bind_eq (fun year cs ↦ ?_) cs
  dsimp only
  rw [expect_lower rfl]
  refine bind_lower fun cs ↦ ?_
  refine (caseBlind_exactly 2).bind_eq (fun month cs ↦ ?_) cs
  dsimp only
  rw [expect_lower rfl]
  refine bind_lower fun cs ↦ ?_
  refine (caseBlind_exactly 2).bind_eq (fun day cs ↦ ?_) cs
  dsimp only
  rw [expectMark_lower]
  refine bind_lower fun cs ↦ ?_
  refine (caseBlind_exactly 2).bind_eq (fun hour cs ↦ ?_) cs
  dsimp only
  rw [expect_lower rfl]
  refine bind_lower fun cs ↦ ?_
  refine (caseBlind_exactly 2).bind_eq (fun minute cs ↦ ?_) cs
  dsimp only
  rw [expect_lower rfl]
  refine bind_lower fun cs ↦ ?_
  refine (caseBlind_exactly 2).bind_eq (fun second cs ↦ ?_) cs
  refine caseBlind_fraction.bind_eq (fun nanos cs ↦ ?_) cs
  refine caseBlind_offset.bind_eq (fun minutes cs ↦ ?_) cs
  dsimp only
  rw [lower, List.isEmpty_map]

theorem strict_eq_of_lower_eq {ds : List Char} (h : lower cs = lower ds) :
    strict (Text.trim cs) = strict (Text.trim ds) := by
  rw [← strict_lower, ← Text.trim_lower, h, Text.trim_lower, strict_lower]

/-! ## The letters of the lenient forms -/

/-- A timestamp without an offset that has a T between its date and its time of day. -/
def IsLocal (cs : List Char) : Prop :=
  strict (Text.trim cs) = none ∧
    ∃ withSeconds, (lenient true withSeconds (Text.trim cs)).isSome = true

instance (cs : List Char) : Decidable (IsLocal cs) :=
  inferInstanceAs (Decidable (_ ∧ _))

theorem Written.filter_isAlpha {digit : Bool} {letters : List Char} (h : Written digit letters cs) :
    cs.filter Char.isAlpha = letters := by
  induction h with
  | nil => rfl
  | digit hc _ ih =>
    rw [List.filter_cons_of_neg (by simp [isAlpha_eq_false_of_isDigit hc]), ih]
  | blank hc _ ih =>
    rw [List.filter_cons_of_neg (by simp [Text.isAlpha_eq_false_of_isBlank hc]), ih]
  | mark hc _ ih =>
    rw [List.filter_cons_of_neg (by rcases hc with rfl | rfl | rfl | rfl <;> decide), ih]
  | colon _ ih => rw [List.filter_cons_of_neg (by decide), ih]
  | letter hc _ ih => rw [List.filter_cons_of_pos hc, ih]

/-- A timestamp of a lenient form has the letters of its form. -/
theorem Written.filter_isAlpha_trim {digit : Bool} {letters : List Char}
    (h : Written digit letters (Text.trim cs)) : cs.filter Char.isAlpha = letters := by
  rw [← Text.filter_isAlpha_trim, h.filter_isAlpha]

/-- **A local timestamp** has one letter. -/
theorem IsLocal.filter_isAlpha (h : IsLocal cs) : cs.filter Char.isAlpha = ['T'] := by
  obtain ⟨-, withSeconds, hsome⟩ := h
  obtain ⟨t, ht⟩ := Option.isSome_iff_exists.1 hsome
  exact (written_lenient ht).filter_isAlpha_trim

theorem IsLocal.exists_read (h : IsLocal cs) : ∃ t, read cs = some t := by
  rw [← Option.ne_none_iff_exists']
  intro hread
  obtain ⟨-, withSeconds, hsome⟩ := h
  simp only [read, Option.orElse_eq_orElse, Option.orElse_eq_or, Option.or_eq_none_iff] at hread
  obtain ⟨-, hseconds, -, hminutes, -⟩ := hread
  cases withSeconds with
  | false => rw [hminutes] at hsome; cases hsome
  | true => rw [hseconds] at hsome; cases hsome

/-- **The other lenient forms** have none. -/
theorem filter_isAlpha_of_not_isLocal {t : Instant} (hstrict : strict (Text.trim cs) = none)
    (hlocal : ¬ IsLocal cs) (h : read cs = some t) : cs.filter Char.isAlpha = [] := by
  have hnone (withSeconds : Bool) : lenient true withSeconds (Text.trim cs) = none :=
    Option.not_isSome_iff_eq_none.1 fun hsome ↦ hlocal ⟨hstrict, withSeconds, hsome⟩
  simp only [read, hstrict, hnone, Option.orElse_eq_orElse, Option.orElse_eq_or,
    Option.none_or, Option.or_eq_some_iff] at h
  rcases h with h | ⟨-, h | ⟨-, h⟩⟩
  · exact (written_lenient h).filter_isAlpha_trim
  · exact (written_lenient h).filter_isAlpha_trim
  · exact (written_dateOnly h).filter_isAlpha_trim

/-- Of texts that differ in the case of letters, one that is local is the only timestamp. -/
theorem IsLocal.read_eq_none {ds : List Char} (h : IsLocal cs) (hlower : lower cs = lower ds)
    (hne : cs ≠ ds) : read ds = none := by
  refine Option.eq_none_iff_forall_ne_some.2 fun t ht ↦ ?_
  have hstrict : strict (Text.trim ds) = none := (strict_eq_of_lower_eq hlower).symm.trans h.1
  have hletters : lower (ds.filter Char.isAlpha) = ['t'] := by
    rw [← Text.lower_filter_isAlpha_eq hlower, h.filter_isAlpha]
    rfl
  by_cases hlocal : IsLocal ds
  · exact hne (Text.eq_of_lower_eq hlower (h.filter_isAlpha.trans hlocal.filter_isAlpha.symm))
  · rw [filter_isAlpha_of_not_isLocal hstrict hlocal ht] at hletters
    cases hletters

/-- **Timestamps that are not local** do not depend on the case of letters. -/
theorem read_eq_of_lower_eq {ds : List Char} (hlower : lower cs = lower ds) (hcs : ¬ IsLocal cs)
    (hds : ¬ IsLocal ds) : read cs = read ds := by
  have hstrict := strict_eq_of_lower_eq hlower
  cases hcs' : strict (Text.trim cs) with
  | some t =>
    rw [hcs'] at hstrict
    simp only [read, hcs', ← hstrict, Option.orElse_eq_orElse, Option.orElse_eq_or, Option.some_or]
  | none =>
    rw [hcs'] at hstrict
    -- without letters the texts are equal
    have heq {xs ys : List Char} (hlower : lower xs = lower ys)
        (hxs : xs.filter Char.isAlpha = []) : xs = ys := by
      have hletters := Text.lower_filter_isAlpha_eq hlower
      rw [hxs] at hletters
      exact Text.eq_of_lower_eq hlower (hxs.trans (List.map_eq_nil_iff.1 hletters.symm).symm)
    refine Option.ext fun t ↦ ⟨fun h ↦ ?_, fun h ↦ ?_⟩
    · rwa [← heq hlower (filter_isAlpha_of_not_isLocal hcs' hcs h)]
    · rwa [← heq hlower.symm (filter_isAlpha_of_not_isLocal hstrict.symm hds h)]

end Iso

namespace TimeExpression

variable {e e' : List Char} {now : Instant}

/-- Both expressions name one instant, or neither can be read. -/
def Agree (e e' : List Char) (now : Instant) : Prop :=
  (∃ t, read e now = .ok t ∧ read e' now = .ok t) ∨
    read e now = .error (.timeParse (String.ofList e)) ∧
      read e' now = .error (.timeParse (String.ofList e'))

theorem Agree.symm (h : Agree e e' now) : Agree e' e now :=
  h.imp (fun ⟨t, ht, ht'⟩ ↦ ⟨t, ht', ht⟩) And.symm

/-- **Of expressions that differ in the case of letters**, a local timestamp is read and another
one is not. -/
theorem not_agree_of_isLocal (h : Iso.IsLocal e) (hlower : lower e = lower e') (hne : e ≠ e')
    (now : Instant) : ¬ Agree e e' now := by
  obtain ⟨t, ht⟩ := h.exists_read
  have hdash : '-' ∈ e := by
    by_contra hdash
    rw [Iso.read_eq_none hdash] at ht
    cases ht
  have hdash' : '-' ∈ e' := by
    have hmem : '-' ∈ lower e' := hlower ▸ List.mem_map.2 ⟨'-', hdash, rfl⟩
    obtain ⟨c, hc, heq⟩ := List.mem_map.1 hmem
    rwa [(Text.toLower_eq_iff rfl).1 heq] at hc
  have hread := read_of_iso_read ht now
  have hread' : read e' now = .error (.timeParse (String.ofList e')) := by
    rw [read, Moment.ofExpression?_of_not_plain fun hplain ↦ hplain.dash_not_mem hdash',
      h.read_eq_none hlower hne]
    rfl
  rintro (⟨t', -, ht'⟩ | ⟨herror, -⟩)
  · rw [hread'] at ht'
    cases ht'
  · rw [hread] at herror
    cases herror

/-- **The case of letters does not matter**, except in local timestamps.  Days that have names may
be out of the calendar, whatever their case. -/
theorem agree_iff (hlower : lower e = lower e') (now : Instant) :
    Agree e e' now ↔
      (Iso.IsLocal e ∨ Iso.IsLocal e' → e = e') ∧ read e now ≠ .error .outOfCalendar := by
  constructor
  · refine fun hagree ↦ ⟨fun hlocal ↦ by_contra fun hne ↦ ?_, fun hout ↦ ?_⟩
    · rcases hlocal with h | h
      · exact not_agree_of_isLocal h hlower hne now hagree
      · exact not_agree_of_isLocal h hlower.symm (Ne.symm hne) now hagree.symm
    · rcases hagree with ⟨t, ht, -⟩ | ⟨ht, -⟩ <;> rw [hout] at ht <;> cases ht
  · rintro ⟨hlocal, hout⟩
    have hiso : Iso.read e = Iso.read e' := by
      by_cases h : Iso.IsLocal e ∨ Iso.IsLocal e'
      · rw [hlocal h]
      · exact Iso.read_eq_of_lower_eq hlower (fun he ↦ h (.inl he)) fun he' ↦ h (.inr he')
    have hmoment : Moment.ofExpression? e' = Moment.ofExpression? e := by
      rw [Moment.ofExpression?, Moment.ofExpression?, hiso, hlower]
    rw [read] at hout
    rw [Agree, read, read, hmoment]
    generalize Moment.ofExpression? e = moment at hout ⊢
    cases moment with
    | none => exact .inr ⟨rfl, rfl⟩
    | some m =>
      cases hm : m.resolve now with
      | some t => exact .inl ⟨t, by simp [hm], by simp [hm]⟩
      | none =>
        simp only [hm] at hout ⊢
        cases m with
        | midnight days => exact absurd rfl hout
        | now | absolute | offset => exact .inr ⟨rfl, rfl⟩

/-- With an offset the letters may be small. -/
theorem agree_smallLetters :
    lower "2024-01-15T10:30:00Z".toList = lower "2024-01-15t10:30:00z".toList ∧
      Agree "2024-01-15T10:30:00Z".toList "2024-01-15t10:30:00z".toList ⟨0, 0⟩ := by
  have hlower : lower "2024-01-15T10:30:00Z".toList = lower "2024-01-15t10:30:00z".toList := by
    decide
  exact ⟨hlower, (agree_iff hlower ⟨0, 0⟩).2 ⟨by decide +kernel, by decide +kernel⟩⟩

/-- Without one the letter may not. -/
theorem not_agree_smallT :
    lower "2024-01-15T10:30".toList = lower "2024-01-15t10:30".toList ∧
      read "2024-01-15T10:30".toList ⟨0, 0⟩ = .ok ⟨1705314600, 0⟩ ∧
      read "2024-01-15t10:30".toList ⟨0, 0⟩ = .error (.timeParse "2024-01-15t10:30") := by
  decide +kernel

end TimeExpression

end ChartFeed
