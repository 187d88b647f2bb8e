import Mathlib
import ChartFeed.Text.Blank

/-!
# Words, blanks and the case of letters

* `Text.trim_append_append` — blanks at the ends are trimmed, and nothing else;
* `Text.words_append_blank_append` — a text falls apart at every blank; nearly all that is said here
  about words follows from this equation;
* `Text.IsWord.words_append` — the first word of a text, `Text.exists_mem_words` — every character
  that is no blank is in some word;
* `Text.splitOnce_eq_some` — a text is cut at the first separator;
* `Text.words_lower_trim` — blanks around a text do not matter;
* `Text.lower_upper`, `Text.isBlank_toLower` — nor does the case of letters, and blanks have none;
* `Text.eq_of_lower_eq` — texts that differ in the case of letters differ in their letters.
-/

set_option autoImplicit false

namespace ChartFeed.Text

/-! ## Blanks -/

/-- A text of blanks only. -/
def Blank (cs : List Char) : Prop := ∀ c ∈ cs, isBlank c = true

instance (cs : List Char) : Decidable (Blank cs) :=
  decidable_of_iff (cs.all isBlank = true) List.all_eq_true

/-- No blank of ASCII comes after the space. -/
theorem isBlank_eq_false {c : Char} (h : 32 < c.toNat) (h' : c.toNat < 128) :
    isBlank c = false := by
  simp only [isBlank, Bool.or_eq_false_iff, Bool.and_eq_false_iff, decide_eq_false_iff_not,
    beq_eq_false_iff_ne]
  omega

theorem exists_eq_append_trimStart (cs : List Char) :
    ∃ before : List Char, cs = before ++ trimStart cs ∧ Blank before :=
  ⟨cs.takeWhile isBlank, List.takeWhile_append_dropWhile.symm,
    fun _ hc ↦ List.mem_takeWhile_imp hc⟩

theorem exists_eq_trimEnd_append (cs : List Char) :
    ∃ after : List Char, cs = trimEnd cs ++ after ∧ Blank after := by
  obtain ⟨before, heq, hbefore⟩ := exists_eq_append_trimStart cs.reverse
  refine ⟨before.reverse, ?_, fun c hc ↦ hbefore c (List.mem_reverse.1 hc)⟩
  rw [trimEnd, ← List.reverse_append, ← heq, List.reverse_reverse]

/-- A text is its trimmed part between blanks. -/
theorem exists_eq_append_trim (cs : List Char) : ∃ before after : List Char,
    cs = before ++ trim cs ++ after ∧ Blank before ∧ Blank after := by
  obtain ⟨before, hstart, hbefore⟩ := exists_eq_append_trimStart cs
  obtain ⟨after, hend, hafter⟩ := exists_eq_trimEnd_append (trimStart cs)
  exact ⟨before, after, by rw [List.append_assoc, trim, ← hend, ← hstart], hbefore, hafter⟩

theorem trim_subset (cs : List Char) : trim cs ⊆ cs := by
  obtain ⟨before, after, hcs, -, -⟩ := exists_eq_append_trim cs
  intro c hc
  rw [hcs]
  exact List.mem_append_left _ (List.mem_append_right _ hc)

theorem trimStart_append {before : List Char} (h : Blank before) (cs : List Char) :
    trimStart (before ++ cs) = trimStart cs :=
  List.dropWhile_append_of_pos h

theorem trimEnd_append {after : List Char} (h : Blank after) (cs : List Char) :
    trimEnd (cs ++ after) = trimEnd cs := by
  rw [trimEnd, trimEnd, List.reverse_append]
  rw [trimStart_append fun c hc ↦ h c (List.mem_reverse.1 hc)]

/-- **Blanks around a text are trimmed.** -/
theorem trim_append_append {before after : List Char} (hbefore : Blank before)
    (hafter : Blank after) (cs : List Char) : trim (before ++ cs ++ after) = trim cs := by
  rw [List.append_assoc, trim, trimStart_append hbefore, trim, trimStart, List.dropWhile_append]
  split
  · next hnil =>
    rw [List.dropWhile_eq_nil_iff.2 hafter, trimStart, List.isEmpty_iff.1 hnil]
  · exact trimEnd_append hafter _

theorem trimStart_append_cons {c : Char} (hc : isBlank c = false) (before after : List Char) :
    trimStart (before ++ c :: after) = trimStart before ++ c :: after := by
  rw [trimStart, List.dropWhile_append]
  split
  · next hnil =>
    rw [trimStart, List.isEmpty_iff.1 hnil, List.dropWhile_cons_of_neg (by simp [hc])]
    rfl
  · rfl

theorem trimEnd_append_cons {c : Char} (hc : isBlank c = false) (before after : List Char) :
    trimEnd (before ++ c :: after) = before ++ c :: trimEnd after := by
  have hreverse : (before ++ c :: after).reverse = after.reverse ++ c :: before.reverse := by simp
  rw [trimEnd, hreverse, trimStart_append_cons hc, trimEnd]
  simp

/-- **A character that is no blank stays**, and what stands on either side is trimmed at the far
end. -/
theorem trim_append_cons {c : Char} (hc : isBlank c = false) (before after : List Char) :
    trim (before ++ c :: after) = trimStart before ++ c :: trimEnd after := by
  rw [trim, trimStart_append_cons hc, trimEnd_append_cons hc]

theorem mem_getLast?_of_trimStart {c : Char} {cs : List Char} (h : c ∈ (trimStart cs).getLast?) :
    c ∈ cs.getLast? := by
  obtain ⟨before, hcs, -⟩ := exists_eq_append_trimStart cs
  rw [hcs, List.getLast?_append, Option.mem_def, Option.mem_def.1 h, Option.some_or]

theorem mem_head?_of_trimEnd {c : Char} {cs : List Char} (h : c ∈ (trimEnd cs).head?) :
    c ∈ cs.head? := by
  obtain ⟨after, hcs, -⟩ := exists_eq_trimEnd_append cs
  rw [hcs, List.head?_append, Option.mem_def, Option.mem_def.1 h, Option.some_or]

theorem trim_trimStart (cs : List Char) : trim (trimStart cs) = trim cs := by
  obtain ⟨before, hcs, hbefore⟩ := exists_eq_append_trimStart cs
  conv_rhs => rw [hcs, ← List.append_nil (before ++ _)]
  exact (trim_append_append hbefore (List.forall_mem_nil _) _).symm

theorem trim_trimEnd (cs : List Char) : trim (trimEnd cs) = trim cs := by
  obtain ⟨after, hcs, hafter⟩ := exists_eq_trimEnd_append cs
  conv_rhs => rw [hcs, ← List.nil_append (trimEnd cs)]
  exact (trim_append_append (List.forall_mem_nil _) hafter _).symm

/-- Nothing is left of blanks. -/
theorem trim_eq_nil {blanks : List Char} (h : Blank blanks) : trim blanks = [] := by
  rw [trim, trimStart, List.dropWhile_eq_nil_iff.2 h]
  rfl

/-! ## Words -/

theorem wordsFrom_append_blank_append {c : Char} (hc : isBlank c = true)
    (run cs rest : List Char) :
    wordsFrom run (cs ++ c :: rest) = wordsFrom run cs ++ words rest := by
  induction cs generalizing run with
  | nil => cases run <;> simp [wordsFrom, words, hc]
  | cons d cs ih =>
    rw [List.cons_append, wordsFrom, wordsFrom, ih, ih]
    split
    · split <;> rfl
    · rfl

/-- **A text falls apart at every blank.** -/
theorem words_append_blank_append {c : Char} (hc : isBlank c = true) (cs rest : List Char) :
    words (cs ++ c :: rest) = words cs ++ words rest :=
  wordsFrom_append_blank_append hc [] cs rest

variable {blanks cs word : List Char}

theorem words_append_blanks_append (h : Blank blanks) (hne : blanks ≠ []) (cs rest : List Char) :
    words (cs ++ (blanks ++ rest)) = words cs ++ words rest := by
  obtain ⟨c, blanks, rfl⟩ := List.exists_cons_of_ne_nil hne
  obtain ⟨hc, hrest⟩ := List.forall_mem_cons.1 h
  rw [List.cons_append, words_append_blank_append hc]
  clear h hne
  induction blanks with
  | nil => rfl
  | cons d blanks ih =>
    obtain ⟨hd, hrest⟩ := List.forall_mem_cons.1 hrest
    rw [← ih hrest]
    exact congrArg _ (words_append_blank_append hd [] _)

theorem words_append_blanks (h : Blank blanks) (cs : List Char) :
    words (cs ++ blanks) = words cs := by
  by_cases hne : blanks = []
  · rw [hne, List.append_nil]
  · have happend := words_append_blanks_append h hne cs []
    rw [List.append_nil] at happend
    exact happend.trans (List.append_nil _)

theorem words_blanks_append (h : Blank blanks) (cs : List Char) :
    words (blanks ++ cs) = words cs := by
  by_cases hne : blanks = []
  · rw [hne, List.nil_append]
  · exact words_append_blanks_append h hne [] cs

theorem exists_mem_wordsFrom {c : Char} (hc : isBlank c = false) {run : List Char}
    (h : c ∈ run ∨ c ∈ cs) : ∃ word ∈ wordsFrom run cs, c ∈ word := by
  induction cs generalizing run with
  | nil =>
    have hrun : c ∈ run := h.resolve_right List.not_mem_nil
    exact ⟨run, by simp [wordsFrom, List.ne_nil_of_mem hrun], hrun⟩
  | cons d cs ih =>
    rw [wordsFrom]
    split
    · next hd =>
      have hne : c ≠ d := by
        rintro rfl
        exact Bool.false_ne_true (hc.symm.trans hd)
      split
      · next hnil =>
        refine ih (h.imp (fun hrun ↦ ?_) fun hmem ↦ (List.mem_cons.1 hmem).resolve_left hne)
        exact List.isEmpty_iff.1 hnil ▸ hrun
      · rcases h with hrun | hmem
        · exact ⟨run, List.mem_cons_self .., hrun⟩
        · obtain ⟨word, hword, hmem⟩ := ih (.inr ((List.mem_cons.1 hmem).resolve_left hne))
          exact ⟨word, List.mem_cons_of_mem _ hword, hmem⟩
    · refine ih ?_
      rcases h with hrun | hmem
      · exact .inl (List.mem_append_left _ hrun)
      · exact (List.mem_cons.1 hmem).imp (fun heq ↦ by simp [heq]) id

/-- **Every character that is no blank is in some word.** -/
theorem exists_mem_words {c : Char} (hc : isBlank c = false) (h : c ∈ cs) :
    ∃ word ∈ words cs, c ∈ word :=
  exists_mem_wordsFrom hc (.inr h)

/-- A text without a blank that is not empty. -/
structure IsWord (cs : List Char) : Prop where
  ne_nil : cs ≠ []
  not_blank : ∀ c ∈ cs, isBlank c = false

/-- Whether a given text is a word can be computed. -/
theorem isWord_of_all (hne : cs ≠ []) (h : cs.all (fun c ↦ !isBlank c) = true) : IsWord cs :=
  ⟨hne, by simpa using h⟩

theorem wordsFrom_of_forall {run : List Char} (hrun : run ≠ [])
    (h : ∀ c ∈ cs, isBlank c = false) : wordsFrom run cs = [run ++ cs] := by
  induction cs generalizing run with
  | nil => simp [wordsFrom, hrun]
  | cons c cs ih =>
    obtain ⟨hc, hcs⟩ := List.forall_mem_cons.1 h
    rw [wordsFrom, hc, if_neg Bool.false_ne_true, ih (by simp) hcs, List.append_assoc]
    rfl

theorem IsWord.words_eq (h : IsWord word) : words word = [word] := by
  obtain ⟨c, cs, rfl⟩ := List.exists_cons_of_ne_nil h.ne_nil
  obtain ⟨hc, hcs⟩ := List.forall_mem_cons.1 h.not_blank
  rw [words, wordsFrom, hc, if_neg Bool.false_ne_true]
  exact wordsFrom_of_forall (by simp) hcs

/-- The first word of a text ends at the first blank. -/
theorem IsWord.words_append (h : IsWord word) (hblanks : Blank blanks) (hne : blanks ≠ [])
    (rest : List Char) : words (word ++ (blanks ++ rest)) = word :: words rest := by
  rw [words_append_blanks_append hblanks hne, h.words_eq, List.singleton_append]

theorem IsWord.reverse (h : IsWord word) : IsWord word.reverse where
  ne_nil := List.reverse_ne_nil_iff.2 h.ne_nil
  not_blank c hc := h.not_blank c (List.mem_reverse.1 hc)

theorem IsWord.trimStart_append (h : IsWord word) (rest : List Char) :
    trimStart (word ++ rest) = word ++ rest := by
  obtain ⟨c, cs, rfl⟩ := List.exists_cons_of_ne_nil h.ne_nil
  exact List.dropWhile_cons_of_neg (by simp [h.not_blank c (List.mem_cons_self ..)])

/-- There is nothing to drop around words. -/
theorem IsWord.trim_append {last : List Char} (h : IsWord word) (hlast : IsWord last)
    (cs : List Char) : trim (word ++ (cs ++ last)) = word ++ (cs ++ last) := by
  rw [trim, h.trimStart_append, trimEnd, ← List.append_assoc, List.reverse_append,
    hlast.reverse.trimStart_append, ← List.reverse_append, List.reverse_reverse]

/-! ## Cutting -/

/-- **A text is cut at the first separator.** -/
theorem splitOnce_eq_some {separator left right : List Char}
    (h : splitOnce separator cs = some (left, right)) :
    cs = left ++ (separator ++ right) ∧
      ∀ left' right', cs = left' ++ (separator ++ right') → left.length ≤ left'.length := by
  induction cs generalizing left with
  | nil =>
    rw [splitOnce] at h
    split at h
    · next hnil =>
      cases h
      exact ⟨by simp [List.isEmpty_iff.1 hnil], fun _ _ _ ↦ Nat.zero_le _⟩
    · cases h
  | cons c cs ih =>
    rw [splitOnce] at h
    split at h
    · next hprefix =>
      cases h
      obtain ⟨rest, hrest⟩ := List.isPrefixOf_iff_prefix.1 hprefix
      exact ⟨by rw [← hrest, List.drop_left, List.nil_append], fun _ _ _ ↦ Nat.zero_le _⟩
    · next hprefix =>
      obtain ⟨⟨before, after⟩, hcut, heq⟩ := Option.map_eq_some_iff.1 h
      cases heq
      obtain ⟨hcs, hfirst⟩ := ih hcut
      refine ⟨by rw [hcs, List.cons_append], fun left' right' heq ↦ ?_⟩
      cases left' with
      | nil => exact absurd (List.isPrefixOf_iff_prefix.2 ⟨right', heq.symm⟩) hprefix
      | cons d left' =>
        rw [List.cons_append, List.cons.injEq] at heq
        exact Nat.succ_le_succ (hfirst left' right' heq.2)

/-- What is not cut has no separator. -/
theorem ne_of_splitOnce_eq_none {separator : List Char} (h : splitOnce separator cs = none)
    (left right : List Char) : cs ≠ left ++ (separator ++ right) := by
  induction cs generalizing left with
  | nil =>
    rw [splitOnce] at h
    split at h
    · cases h
    · next hne =>
      intro heq
      have hnil := List.append_eq_nil_iff.1 (List.append_eq_nil_iff.1 heq.symm).2
      exact hne (List.isEmpty_iff.2 hnil.1)
  | cons c cs ih =>
    rw [splitOnce] at h
    split at h
    · cases h
    · next hprefix =>
      intro heq
      cases left with
      | nil => exact hprefix (List.isPrefixOf_iff_prefix.2 ⟨right, heq.symm⟩)
      | cons d left =>
        rw [List.cons_append, List.cons.injEq] at heq
        exact ih (Option.map_eq_none_iff.1 h) left heq.2

/-! ## The case of letters -/

/-- Maps the small letters of ASCII to capital ones. -/
def upper (cs : List Char) : List Char := cs.map Char.toUpper

theorem lower_upper (cs : List Char) : lower (upper cs) = lower cs := by
  rw [lower, upper, List.map_map]
  exact List.map_congr_left fun c _ ↦ Char.toLower_toUpper_eq_toLower c

theorem lower_append (cs ds : List Char) : lower (cs ++ ds) = lower cs ++ lower ds :=
  List.map_append

/-- Neither kind of letter is a blank. -/
theorem isBlank_toLower (c : Char) : isBlank c.toLower = isBlank c := by
  by_cases h : c.isUpper = true
  · have hrange : 65 ≤ c.toNat ∧ c.toNat ≤ 90 := by
      simpa [Char.isUpper, UInt32.le_iff_toNat_le] using h
    have hvalid : (c.toNat + 32).isValidChar := .inl (by omega)
    have hlower : c.toLower.toNat = c.toNat + 32 := by
      rw [Char.toLower_eq_of_isUpper h, Char.toNat_ofNat, if_pos hvalid]
    rw [isBlank_eq_false (by omega) (by omega), isBlank_eq_false (by omega) (by omega)]
  · rw [Char.toLower_eq_of_not_isUpper h]

theorem lower_ne_nil (h : cs ≠ []) : lower cs ≠ [] := by
  simpa [lower] using h

theorem Blank.lower (h : Blank blanks) : Blank (lower blanks) :=
  List.forall_mem_map.2 fun c hc ↦ (isBlank_toLower c).trans (h c hc)

theorem IsWord.lower (h : IsWord word) : IsWord (lower word) where
  ne_nil := lower_ne_nil h.ne_nil
  not_blank := List.forall_mem_map.2 fun c hc ↦ (isBlank_toLower c).trans (h.not_blank c hc)

theorem isWord_of_lower (h : IsWord (lower cs)) : IsWord cs where
  ne_nil hnil := h.ne_nil (by rw [hnil]; rfl)
  not_blank c hc :=
    (isBlank_toLower c).symm.trans (h.not_blank _ (List.mem_map_of_mem hc))

/-- Words in small letters are those on either side of a blank. -/
theorem words_lower_append_cons {c : Char} (hc : isBlank c = true) (cs rest : List Char) :
    words (lower (cs ++ c :: rest)) = words (lower cs) ++ words (lower rest) := by
  rw [lower_append]
  exact words_append_blank_append ((isBlank_toLower c).trans hc) _ _

/-- Words do not depend on the blanks around them. -/
theorem words_lower_trim (cs : List Char) : words (lower (trim cs)) = words (lower cs) := by
  obtain ⟨before, after, hcs, hbefore, hafter⟩ := exists_eq_append_trim cs
  conv_rhs => rw [hcs]
  rw [lower_append, lower_append, words_append_blanks hafter.lower,
    words_blanks_append hbefore.lower]

theorem trimStart_lower (cs : List Char) : trimStart (lower cs) = lower (trimStart cs) := by
  have hblank : isBlank ∘ Char.toLower = isBlank := funext isBlank_toLower
  rw [trimStart, lower, List.dropWhile_map, hblank]
  rfl

theorem trim_lower (cs : List Char) : trim (lower cs) = lower (trim cs) := by
  have hreverse (cs : List Char) : (lower cs).reverse = lower cs.reverse := List.map_reverse.symm
  rw [trim, trimEnd, trimStart_lower, hreverse, trimStart_lower, hreverse]
  rfl

theorem toLower_of_not_isAlpha {c : Char} (h : c.isAlpha = false) : c.toLower = c :=
  Char.toLower_eq_of_not_isUpper fun hupper ↦ by simp [Char.isAlpha, hupper] at h

/-- A character that is no letter has no other case. -/
theorem toLower_eq_iff {c d : Char} (hc : c.isAlpha = false) : d.toLower = c ↔ d = c := by
  constructor
  · rintro rfl
    rw [Char.isAlpha_toLower_eq_isAlpha] at hc
    exact (toLower_of_not_isAlpha hc).symm
  · rintro rfl
    exact toLower_of_not_isAlpha hc

/-- A letter in either case. -/
theorem toLower_eq_or_iff {small capital c : Char} (hlower : small.toLower = small)
    (hupper : small.toUpper = capital) (hcapital : capital.isUpper = true) :
    c.toLower = capital ∨ c.toLower = small ↔ c = capital ∨ c = small := by
  constructor
  · rintro (h | h)
    · rw [← h, Char.isUpper_toLower_eq_false] at hcapital
      cases hcapital
    · by_cases hc : c.isUpper = true
      · have hnot : ¬ c.isLower = true := Char.not_isLower_of_isUpper hc
        left
        rw [← hupper, ← h, Char.toUpper_toLower_eq_toUpper, Char.toUpper_eq_of_not_isLower hnot]
      · exact .inr (by rw [← h, Char.toLower_eq_of_not_isUpper hc])
  · rintro (rfl | rfl)
    · exact .inr (by rw [← hupper, Char.toLower_toUpper_eq_toLower, hlower])
    · exact .inr hlower

theorem isAlpha_eq_false_of_isBlank {c : Char} (h : isBlank c = true) : c.isAlpha = false := by
  refine Bool.eq_false_of_not_eq_true fun halpha ↦ ?_
  have hrange : 65 ≤ c.toNat ∧ c.toNat ≤ 122 := by
    simp only [Char.isAlpha, Char.isUpper, Char.isLower, Bool.or_eq_true, Bool.and_eq_true,
      decide_eq_true_eq, ge_iff_le, UInt32.le_iff_toNat_le] at halpha
    simp at halpha
    omega
  exact Bool.false_ne_true ((isBlank_eq_false (by omega) (by omega)).symm.trans h)

theorem filter_isAlpha_trim (cs : List Char) :
    (trim cs).filter Char.isAlpha = cs.filter Char.isAlpha := by
  have hblank {blanks : List Char} (h : Blank blanks) : blanks.filter Char.isAlpha = [] :=
    List.filter_eq_nil_iff.2 fun c hc ↦ by simp [isAlpha_eq_false_of_isBlank (h c hc)]
  obtain ⟨before, after, hcs, hbefore, hafter⟩ := exists_eq_append_trim cs
  conv_rhs => rw [hcs]
  rw [List.filter_append, List.filter_append, hblank hbefore, hblank hafter, List.append_nil,
    List.nil_append]

theorem filter_isAlpha_lower (cs : List Char) :
    (lower cs).filter Char.isAlpha = lower (cs.filter Char.isAlpha) := by
  have halpha : Char.isAlpha ∘ Char.toLower = Char.isAlpha := funext Char.isAlpha_toLower_eq_isAlpha
  rw [lower, List.filter_map, halpha]
  rfl

theorem lower_filter_isAlpha_eq {cs ds : List Char} (h : lower cs = lower ds) :
    lower (cs.filter Char.isAlpha) = lower (ds.filter Char.isAlpha) := by
  rw [← filter_isAlpha_lower, h, filter_isAlpha_lower]

/-- **Texts that differ in the case of letters** are equal if their letters are. -/
theorem eq_of_lower_eq {cs ds : List Char} (h : lower cs = lower ds)
    (hletters : cs.filter Char.isAlpha = ds.filter Char.isAlpha) : cs = ds := by
  induction cs generalizing ds with
  | nil => exact (List.map_eq_nil_iff.1 h.symm).symm
  | cons c cs ih =>
    obtain ⟨d, ds, rfl⟩ : ∃ d ds', ds = d :: ds' := by
      cases ds with
      | nil => cases h
      | cons d ds => exact ⟨d, ds, rfl⟩
    obtain ⟨hcd, hrest⟩ := List.cons.inj h
    have halpha : c.isAlpha = d.isAlpha := by
      rw [← Char.isAlpha_toLower_eq_isAlpha, hcd, Char.isAlpha_toLower_eq_isAlpha]
    cases hd : d.isAlpha with
    | true =>
      rw [List.filter_cons_of_pos (halpha.trans hd), List.filter_cons_of_pos hd] at hletters
      obtain ⟨rfl, hfilter⟩ := List.cons.inj hletters
      rw [ih hrest hfilter]
    | false =>
      have hc := halpha.trans hd
      rw [List.filter_cons_of_neg (by simp [hc]), List.filter_cons_of_neg (by simp [hd])]
        at hletters
      rw [toLower_of_not_isAlpha hc, toLower_of_not_isAlpha hd] at hcd
      rw [hcd, ih hrest hletters]

end ChartFeed.Text
