import Mathlib.Data.List.TakeWhile
import ChartFeed.Proofs.Decimal.Interval

/-!
# The text of a double tells which double it is

A layout decides where the point stands and whether there is an exponent.  Whatever it decides, the
value of the decimal can be read off the text, and with it the double.

* `valueOf` — the value that a text spells: digits with a point among them, and an exponent;
* `valueOf_renderDigits` — the text of a decimal spells its value;
* `Layout.render_injective` — two doubles with one text under a layout are one double.
-/

set_option autoImplicit false

namespace ChartFeed.Decimal

/-! ## Reading values off texts -/

/-- The natural that digits spell. -/
def naturalOf (cs : List Char) : Nat := Nat.ofDigitChars 10 cs 0

/-- The value of digits with a point among them. -/
def pointValue (cs : List Char) : ℚ :=
  let fraction := (cs.dropWhile (· ≠ '.')).drop 1
  naturalOf (cs.takeWhile (· ≠ '.') ++ fraction) * 10 ^ (-(fraction.length : ℤ))

/-- The number after the mark of an exponent; without a mark it is zero. -/
def exponentOf : List Char → ℤ
  | _ :: '-' :: cs => -(naturalOf cs : ℤ)
  | _ :: _ :: cs => naturalOf cs
  | _ => 0

/-- The value of digits with a point among them and perhaps an exponent behind. -/
def valueOf (cs : List Char) : ℚ :=
  pointValue (cs.takeWhile (· ≠ 'e')) * 10 ^ exponentOf (cs.dropWhile (· ≠ 'e'))

/-- All characters are digits. -/
def AllDigits (cs : List Char) : Prop := ∀ c ∈ cs, c.isDigit = true

theorem allDigits_toDigits (n : Nat) : AllDigits (Nat.toDigits 10 n) :=
  fun _ hc ↦ Nat.isDigit_of_mem_toDigits (by decide) (by decide) hc

theorem allDigits_replicate_zero (n : Nat) : AllDigits (List.replicate n '0') := by
  intro c hc
  rw [List.eq_of_mem_replicate hc]
  rfl

theorem AllDigits.append {cs ds : List Char} (hc : AllDigits cs) (hd : AllDigits ds) :
    AllDigits (cs ++ ds) := by
  intro c h
  rcases List.mem_append.1 h with h | h
  · exact hc c h
  · exact hd c h

theorem AllDigits.ne_of_not_isDigit {cs : List Char} (h : AllDigits cs) (mark : Char)
    (hmark : mark.isDigit = false) : ∀ c ∈ cs, c ≠ mark := by
  rintro c hc rfl
  rw [h c hc] at hmark
  cases hmark

theorem takeWhile_ne_append_cons {cs ds : List Char} {mark : Char} (h : ∀ c ∈ cs, c ≠ mark) :
    (cs ++ mark :: ds).takeWhile (· ≠ mark) = cs := by
  rw [List.takeWhile_append_of_pos (by simpa using h)]
  simp

theorem dropWhile_ne_append_cons {cs ds : List Char} {mark : Char} (h : ∀ c ∈ cs, c ≠ mark) :
    (cs ++ mark :: ds).dropWhile (· ≠ mark) = mark :: ds := by
  rw [List.dropWhile_append_of_pos (by simpa using h)]
  simp

theorem naturalOf_append (cs ds : List Char) :
    naturalOf (cs ++ ds) = 10 ^ ds.length * naturalOf cs + naturalOf ds := by
  rw [naturalOf, naturalOf, naturalOf, Nat.ofDigitChars_append,
    Nat.ofDigitChars_eq_ofDigitChars_zero]

@[simp] theorem naturalOf_replicate_zero (n : Nat) : naturalOf (List.replicate n '0') = 0 := by
  simp [naturalOf]

@[simp] theorem naturalOf_zero : naturalOf ['0'] = 0 := naturalOf_replicate_zero 1

@[simp] theorem naturalOf_toDigits (n : Nat) : naturalOf (Nat.toDigits 10 n) = n := by
  simp [naturalOf]

/-! ## Positional notation -/

theorem pointValue_point {cs : List Char} (hc : AllDigits cs) (ds : List Char) :
    pointValue (cs ++ '.' :: ds) = naturalOf (cs ++ ds) * 10 ^ (-(ds.length : ℤ)) := by
  have hne := hc.ne_of_not_isDigit '.' rfl
  rw [pointValue, takeWhile_ne_append_cons hne, dropWhile_ne_append_cons hne]
  rfl

theorem pointValue_whole {cs : List Char} (hc : AllDigits cs) : pointValue cs = naturalOf cs := by
  have hne := hc.ne_of_not_isDigit '.' rfl
  have htake : cs.takeWhile (· ≠ '.') = cs := List.takeWhile_eq_self_iff.2 (by simpa using hne)
  have hdrop : cs.dropWhile (· ≠ '.') = [] := List.dropWhile_eq_nil_iff.2 (by simpa using hne)
  rw [pointValue, htake, hdrop]
  simp

/-- Wherever the point stands, digits spell their natural, moved by the digits after the point. -/
theorem pointValue_pointAt {digits : List Char} (hd : AllDigits digits) (after : ℤ) (whole : Bool) :
    pointValue (pointAt digits after whole) =
      naturalOf digits * 10 ^ (after - (digits.length : ℤ)) := by
  rw [pointAt]
  split
  · next hbefore =>
    have hzero : AllDigits ['0'] := by
      intro c hc
      rw [List.mem_singleton.1 hc]
      rfl
    have hpoint := pointValue_point hzero (List.replicate (-after).toNat '0' ++ digits)
    have hexponent : -((-after).toNat + digits.length : ℤ) = after - digits.length := by omega
    rw [List.singleton_append, naturalOf_append, naturalOf_append] at hpoint
    rw [List.cons_append, List.cons_append, hpoint]
    simp only [List.length_append, List.length_replicate, naturalOf_replicate_zero, naturalOf_zero]
    push_cast
    rw [hexponent]
    ring
  · split
    · next hbefore hbeyond =>
      have hzeros : AllDigits (digits ++ List.replicate (after.toNat - digits.length) '0') :=
        hd.append (allDigits_replicate_zero _)
      have hexponent : after - (digits.length : ℤ) = (after.toNat - digits.length : Nat) := by omega
      cases whole with
      | false =>
        rw [if_neg (by simp), List.append_nil, pointValue_whole hzeros, naturalOf_append, hexponent]
        simp
        ring
      | true =>
        rw [if_pos rfl, pointValue_point hzeros, naturalOf_append, naturalOf_append, hexponent]
        simp
        ring
    · next hbefore hwithin =>
      have htake : AllDigits (digits.take after.toNat) := fun c hc ↦ hd c (List.mem_of_mem_take hc)
      have hexponent : -((digits.length - after.toNat : Nat) : ℤ) = after - digits.length := by
        omega
      rw [pointValue_point htake, List.take_append_drop, List.length_drop, hexponent]

/-! ## The value of a text -/

theorem valueOf_of_notMem {cs : List Char} (h : ∀ c ∈ cs, c ≠ 'e') :
    valueOf cs = pointValue cs := by
  have htake : cs.takeWhile (· ≠ 'e') = cs := List.takeWhile_eq_self_iff.2 (by simpa using h)
  have hdrop : cs.dropWhile (· ≠ 'e') = [] := List.dropWhile_eq_nil_iff.2 (by simpa using h)
  rw [valueOf, htake, hdrop]
  simp [exponentOf]

theorem valueOf_exponent {cs ds : List Char} (h : ∀ c ∈ cs, c ≠ 'e') :
    valueOf (cs ++ 'e' :: ds) = pointValue cs * 10 ^ exponentOf ('e' :: ds) := by
  rw [valueOf, takeWhile_ne_append_cons h, dropWhile_ne_append_cons h]

/-- The characters of digits with a point among them. -/
def IsPointed (c : Char) : Prop := c.isDigit = true ∨ c = '.'

theorem IsPointed.ne_e {c : Char} (h : IsPointed c) : c ≠ 'e' := by
  rintro rfl
  rcases h with h | h
  · cases h
  · exact absurd h (by decide)

theorem isPointed_of_mem_pointAt {digits : List Char} (hd : AllDigits digits) (after : ℤ)
    (whole : Bool) : ∀ c ∈ pointAt digits after whole, IsPointed c := by
  intro c hc
  have hzeros {n : Nat} : c ∈ List.replicate n '0' → IsPointed c :=
    fun h ↦ .inl (allDigits_replicate_zero n c h)
  have hdigits : c ∈ digits → IsPointed c := fun h ↦ .inl (hd c h)
  rw [pointAt] at hc
  split at hc
  · simp only [List.cons_append, List.mem_cons, List.mem_append] at hc
    rcases hc with rfl | rfl | hc | hc
    · exact .inl rfl
    · exact .inr rfl
    · exact hzeros hc
    · exact hdigits hc
  · split at hc
    · simp only [List.mem_append] at hc
      rcases hc with (hc | hc) | hc
      · exact hdigits hc
      · exact hzeros hc
      · split at hc
        · simp only [List.mem_cons, List.not_mem_nil, or_false] at hc
          rcases hc with rfl | rfl
          · exact .inr rfl
          · exact .inl rfl
        · cases hc
    · simp only [List.mem_append, List.mem_cons] at hc
      rcases hc with hc | rfl | hc
      · exact hdigits (List.mem_of_mem_take hc)
      · exact .inr rfl
      · exact hdigits (List.mem_of_mem_drop hc)

/-- The first digit, and the others after a point. -/
def leadingPoint (digits : List Char) : List Char :=
  digits.take 1 ++ if digits.length ≤ 1 then [] else '.' :: digits.drop 1

theorem withExponent_eq (digits : List Char) (exponent : ℤ) :
    withExponent digits exponent = leadingPoint digits ++
      'e' :: (if exponent < 0 then '-' else '+') :: Nat.toDigits 10 exponent.natAbs := rfl

theorem isPointed_of_mem_leadingPoint {digits : List Char} (hd : AllDigits digits) :
    ∀ c ∈ leadingPoint digits, IsPointed c := by
  intro c hc
  rcases List.mem_append.1 hc with hc | hc
  · exact .inl (hd c (List.mem_of_mem_take hc))
  · split at hc
    · cases hc
    · rcases List.mem_cons.1 hc with rfl | hc
      · exact .inr rfl
      · exact .inl (hd c (List.mem_of_mem_drop hc))

theorem pointValue_leadingPoint {digits : List Char} (hd : AllDigits digits) (hne : digits ≠ []) :
    pointValue (leadingPoint digits) = naturalOf digits * 10 ^ (1 - (digits.length : ℤ)) := by
  obtain ⟨c, cs, rfl⟩ := List.exists_cons_of_ne_nil hne
  have hc : AllDigits [c] := fun x hx ↦ hd x (by simp_all)
  rw [leadingPoint]
  split
  · next hone =>
    have hcs : cs = [] := List.eq_nil_of_length_eq_zero (by simpa using hone)
    subst hcs
    rw [List.append_nil, pointValue_whole (by simpa using hc)]
    simp
  · have hexponent : 1 - ((c :: cs).length : ℤ) = -(cs.length : ℤ) := by
      rw [List.length_cons]
      push_cast
      ring
    rw [hexponent]
    exact pointValue_point hc cs

theorem exponentOf_sign (exponent : ℤ) :
    exponentOf ('e' :: (if exponent < 0 then '-' else '+') :: Nat.toDigits 10 exponent.natAbs) =
      exponent := by
  have hminus (cs : List Char) : exponentOf ('e' :: '-' :: cs) = -(naturalOf cs : ℤ) := rfl
  have hplus (cs : List Char) : exponentOf ('e' :: '+' :: cs) = naturalOf cs := rfl
  by_cases h : exponent < 0
  · rw [if_pos h, hminus, naturalOf_toDigits]
    omega
  · rw [if_neg h, hplus, naturalOf_toDigits]
    omega

/-- **The text of a decimal spells its value.** -/
theorem valueOf_renderDigits (layout : Layout) (d : Scientific) :
    valueOf (layout.renderDigits d) = d.value := by
  have hd := allDigits_toDigits d.digits
  have hpoint (after : ℤ) (whole : Bool) :
      valueOf (pointAt (Nat.toDigits 10 d.digits) after whole) =
      d.digits * 10 ^ (after - ((Nat.toDigits 10 d.digits).length : ℤ)) := by
    rw [valueOf_of_notMem fun c hc ↦ (isPointed_of_mem_pointAt hd after whole c hc).ne_e,
      pointValue_pointAt hd, naturalOf_toDigits]
  have hexponent (count : ℤ) : d.exponent + count - 1 + 1 - count = d.exponent := by ring
  unfold Layout.renderDigits
  simp only
  split
  · next hzero =>
    rw [hpoint, Scientific.value, hzero]
    simp
  · split
    · rw [hpoint, hexponent]
      rfl
    · split
      · rw [hpoint, hexponent]
        rfl
      · rw [withExponent_eq,
          valueOf_exponent fun c hc ↦ (isPointed_of_mem_leadingPoint hd c hc).ne_e,
          pointValue_leadingPoint hd Nat.toDigits_ne_nil, exponentOf_sign, naturalOf_toDigits,
          Scientific.value, mul_assoc, ← zpow_add₀ (by norm_num)]
        congr 2
        ring

/-! ## The characters of a text -/

/-- The characters of a double's text. -/
def IsNumeric (c : Char) : Prop :=
  c.isDigit = true ∨ c = '.' ∨ c = 'e' ∨ c = '+' ∨ c = '-'

theorem IsPointed.isNumeric {c : Char} (h : IsPointed c) : IsNumeric c :=
  h.elim .inl fun h ↦ .inr (.inl h)

theorem isNumeric_of_mem_renderDigits (layout : Layout) (d : Scientific) :
    ∀ c ∈ layout.renderDigits d, IsNumeric c := by
  have hd := allDigits_toDigits d.digits
  intro c hc
  have hpoint {after : ℤ} {whole : Bool} (h : c ∈ pointAt (Nat.toDigits 10 d.digits) after whole) :
      IsNumeric c := (isPointed_of_mem_pointAt hd after whole c h).isNumeric
  unfold Layout.renderDigits at hc
  simp only at hc
  split at hc
  · exact hpoint hc
  · split at hc
    · exact hpoint hc
    · split at hc
      · exact hpoint hc
      · rw [withExponent_eq] at hc
        rcases List.mem_append.1 hc with hc | hc
        · exact (isPointed_of_mem_leadingPoint hd c hc).isNumeric
        · rcases List.mem_cons.1 hc with rfl | hc
          · exact .inr (.inr (.inl rfl))
          · rcases List.mem_cons.1 hc with rfl | hc
            · split
              · exact .inr (.inr (.inr (.inr rfl)))
              · exact .inr (.inr (.inr (.inl rfl)))
            · exact .inl (allDigits_toDigits _ c hc)

theorem isDigit_head_pointAt {digits : List Char} (hd : AllDigits digits) (hne : digits ≠ [])
    (after : ℤ) (whole : Bool) :
    ∃ c cs, pointAt digits after whole = c :: cs ∧ c.isDigit = true := by
  obtain ⟨c, cs, rfl⟩ := List.exists_cons_of_ne_nil hne
  have hc : c.isDigit = true := hd c (List.mem_cons_self ..)
  rw [pointAt]
  split
  · exact ⟨'0', _, rfl, rfl⟩
  · split
    · exact ⟨c, _, rfl, hc⟩
    · next hbefore _ =>
      obtain ⟨k, hk⟩ : ∃ k, after.toNat = k + 1 := ⟨after.toNat - 1, by omega⟩
      rw [hk]
      exact ⟨c, _, rfl, hc⟩

/-- A text begins with a digit, so a sign before it is told from it. -/
theorem isDigit_head_renderDigits (layout : Layout) (d : Scientific) :
    ∃ c cs, layout.renderDigits d = c :: cs ∧ c.isDigit = true := by
  have hd := allDigits_toDigits d.digits
  have hne : Nat.toDigits 10 d.digits ≠ [] := Nat.toDigits_ne_nil
  unfold Layout.renderDigits
  simp only
  split
  · exact isDigit_head_pointAt hd hne _ _
  · split
    · exact isDigit_head_pointAt hd hne _ _
    · split
      · exact isDigit_head_pointAt hd hne _ _
      · obtain ⟨c, cs, hcons⟩ := List.exists_cons_of_ne_nil hne
        rw [withExponent_eq, hcons]
        exact ⟨c, _, rfl, hd c (by simp [hcons])⟩

/-! ## One text, one double -/

theorem toBits_injective {x y : Float} (h : x.toBits = y.toBits) : x = y := by
  obtain ⟨⟨bits, hbits⟩⟩ := x
  obtain ⟨⟨bits', hbits'⟩⟩ := y
  cases h
  rfl

/-- The characters of a double's text. -/
theorem toList_render (layout : Layout) (x : Float) :
    (layout.render x).toList =
      if isNegative x then '-' :: layout.renderDigits ((Binary.ofFloat x).shortest layout.ties)
      else layout.renderDigits ((Binary.ofFloat x).shortest layout.ties) := by
  rw [Layout.render]
  split <;> simp_all

theorem magnitude_eq_of_renderDigits {layout : Layout} {x y : Float}
    (h : layout.renderDigits ((Binary.ofFloat x).shortest layout.ties) =
      layout.renderDigits ((Binary.ofFloat y).shortest layout.ties)) :
    x.toBits.toNat % 0x8000000000000000 = y.toBits.toNat % 0x8000000000000000 := by
  have hvalue : ((Binary.ofFloat x).shortest layout.ties).value =
      ((Binary.ofFloat y).shortest layout.ties).value := by
    rw [← valueOf_renderDigits layout, ← valueOf_renderDigits layout, h]
  have hx := (Binary.ofFloat x).holds_shortest layout.ties
  have hy := (Binary.ofFloat y).holds_shortest layout.ties
  rw [← Binary.holds_congr _ hvalue, Binary.ofFloat_eq y] at hy
  generalize (Binary.ofFloat x).shortest layout.ties = d at hx hy
  rw [Binary.ofFloat_eq] at hx
  exact Binary.eq_of_holds hx hy

/-- **Two doubles with one text are one double.** -/
theorem Layout.render_injective (layout : Layout) {x y : Float}
    (h : layout.render x = layout.render y) : x = y := by
  have hlist := congrArg String.toList h
  rw [toList_render, toList_render] at hlist
  obtain ⟨c, cs, hx, hc⟩ :=
    isDigit_head_renderDigits layout ((Binary.ofFloat x).shortest layout.ties)
  obtain ⟨d, ds, hy, hd⟩ :=
    isDigit_head_renderDigits layout ((Binary.ofFloat y).shortest layout.ties)
  have hsign : isNegative x = isNegative y ∧
      layout.renderDigits ((Binary.ofFloat x).shortest layout.ties) =
        layout.renderDigits ((Binary.ofFloat y).shortest layout.ties) := by
    cases hnx : isNegative x <;> cases hny : isNegative y <;> simp [hnx, hny] at hlist
    · exact ⟨rfl, hlist⟩
    · rw [hx] at hlist
      cases hlist
      cases hc
    · rw [hy] at hlist
      cases hlist
      cases hd
    · exact ⟨rfl, hlist⟩
  have hmagnitude := magnitude_eq_of_renderDigits hsign.2
  have hnegative : (0x8000000000000000 ≤ x.toBits.toNat) = (0x8000000000000000 ≤ y.toBits.toNat) :=
    by simpa [isNegative] using hsign.1
  refine toBits_injective (UInt64.toNat_inj.1 ?_)
  have hxlt := x.toBits.toNat_lt
  have hylt := y.toBits.toNat_lt
  by_cases hn : 0x8000000000000000 ≤ x.toBits.toNat
  · have hn' : 0x8000000000000000 ≤ y.toBits.toNat := hnegative ▸ hn
    omega
  · have hn' : ¬ 0x8000000000000000 ≤ y.toBits.toNat := hnegative ▸ hn
    omega

/-- Under a layout that shows whole numbers with a fraction, a text has a point or an exponent. -/
theorem exists_mark_of_wholeFraction (layout : Layout) (h : layout.wholeFraction = true)
    (d : Scientific) : '.' ∈ layout.renderDigits d ∨ 'e' ∈ layout.renderDigits d := by
  have hpoint (digits : List Char) (after : ℤ) : '.' ∈ pointAt digits after true := by
    rw [pointAt]
    split
    · simp
    · split <;> simp
  unfold Layout.renderDigits
  simp only [h]
  split
  · exact .inl (hpoint _ _)
  · split
    · exact .inl (hpoint _ _)
    · split
      · exact .inl (hpoint _ _)
      · refine .inr ?_
        rw [withExponent_eq]
        simp

end ChartFeed.Decimal
