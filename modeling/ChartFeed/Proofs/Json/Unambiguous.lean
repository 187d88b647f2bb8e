import ChartFeed.Json.Canonical
import ChartFeed.Proofs.Decimal.Unambiguous

/-!
# JSON text is unambiguous

The compact text of a value tells which value it is, also when other characters follow that no
number goes on with.

* `Number.text_injective` — numbers with one text are one number; whether it is an integer or a
  double shows;
* `escapeChar_cancel`, `quoted_cancel` — what is escaped can be told apart, and where a string ends;
* `chars_cancel` — a value can be cut off the front of a text in one way only;
* `canonicalText_eq_iff` — values with one canonical text are the same when sorted.
-/

set_option autoImplicit false

namespace ChartFeed

open Decimal (IsNumeric AllDigits allDigits_toDigits)

/-! ## Numbers -/

namespace Number

theorem toList_text_int (n : Int) :
    (Number.int n).text.toList =
      if n < 0 then '-' :: Nat.toDigits 10 n.natAbs else Nat.toDigits 10 n.natAbs := by
  rw [text]
  split <;> simp [Nat.toList_repr]

theorem isNumeric_of_mem_text (n : Number) : ∀ c ∈ n.text.toList, IsNumeric c := by
  intro c hc
  cases n with
  | int n =>
    have hdigits {k : Nat} : c ∈ Nat.toDigits 10 k → IsNumeric c :=
      fun h ↦ .inl (allDigits_toDigits k c h)
    rw [toList_text_int] at hc
    split at hc
    · rcases List.mem_cons.1 hc with rfl | hc
      · exact .inr (.inr (.inr (.inr rfl)))
      · exact hdigits hc
    · exact hdigits hc
  | float x =>
    have hdigits := Decimal.isNumeric_of_mem_renderDigits Decimal.jsonLayout
      ((Decimal.Binary.ofFloat x).shortest Decimal.jsonLayout.ties)
    rw [text, Decimal.toList_render] at hc
    split at hc
    · rcases List.mem_cons.1 hc with rfl | hc
      · exact .inr (.inr (.inr (.inr rfl)))
      · exact hdigits c hc
    · exact hdigits c hc

/-- A number begins with a digit or a minus. -/
theorem head_text (n : Number) :
    ∃ c cs, n.text.toList = c :: cs ∧ (c.isDigit = true ∨ c = '-') := by
  cases n with
  | int n =>
    obtain ⟨c, cs, hcons⟩ :=
      List.exists_cons_of_ne_nil (Nat.toDigits_ne_nil (n := n.natAbs) (b := 10))
    have hc : c.isDigit = true := allDigits_toDigits n.natAbs c (by simp [hcons])
    rw [toList_text_int, hcons]
    split
    · exact ⟨'-', _, rfl, .inr rfl⟩
    · exact ⟨c, cs, rfl, .inl hc⟩
  | float x =>
    obtain ⟨c, cs, hcons, hc⟩ := Decimal.isDigit_head_renderDigits Decimal.jsonLayout
      ((Decimal.Binary.ofFloat x).shortest Decimal.jsonLayout.ties)
    rw [text, Decimal.toList_render, hcons]
    split
    · exact ⟨'-', _, rfl, .inr rfl⟩
    · exact ⟨c, cs, rfl, .inl hc⟩

theorem text_int_injective {m n : Int} (h : (Number.int m).text = (Number.int n).text) : m = n := by
  have hread {k l : Nat} (hkl : Nat.toDigits 10 k = Nat.toDigits 10 l) : k = l := by
    rw [← Decimal.naturalOf_toDigits k, hkl, Decimal.naturalOf_toDigits]
  have hminus {k : Nat} {cs : List Char} (hk : Nat.toDigits 10 k = '-' :: cs) : False := by
    have hdigit := allDigits_toDigits k '-' (by simp [hk])
    cases hdigit
  have hlist := congrArg String.toList h
  rw [toList_text_int, toList_text_int] at hlist
  split at hlist <;> split at hlist
  · have habs := hread (List.tail_eq_of_cons_eq hlist)
    omega
  · exact (hminus hlist.symm).elim
  · exact (hminus hlist).elim
  · have habs := hread hlist
    omega

/-- A double shows a point or an exponent, and an integer does not. -/
theorem text_int_ne_float (n : Int) (x : Float) : (Number.int n).text ≠ (Number.float x).text := by
  intro h
  have hmark : '.' ∈ (Number.float x).text.toList ∨ 'e' ∈ (Number.float x).text.toList := by
    have hshown := Decimal.exists_mark_of_wholeFraction Decimal.jsonLayout rfl
      ((Decimal.Binary.ofFloat x).shortest Decimal.jsonLayout.ties)
    rw [text, Decimal.toList_render]
    split
    · exact hshown.imp (List.mem_cons_of_mem _) (List.mem_cons_of_mem _)
    · exact hshown
  have hnone {c : Char} (hc : c ∈ (Number.int n).text.toList) : c.isDigit = true ∨ c = '-' := by
    rw [toList_text_int] at hc
    split at hc
    · rcases List.mem_cons.1 hc with rfl | hc
      · exact .inr rfl
      · exact .inl (allDigits_toDigits _ c hc)
    · exact .inl (allDigits_toDigits _ c hc)
  rw [← h] at hmark
  rcases hmark with hmark | hmark
  · rcases hnone hmark with hd | hd
    · cases hd
    · exact absurd hd (by decide)
  · rcases hnone hmark with hd | hd
    · cases hd
    · exact absurd hd (by decide)

/-- **Numbers with one text are one number.** -/
theorem text_injective {m n : Number} (h : m.text = n.text) : m = n := by
  cases m with
  | int m =>
    cases n with
    | int n => rw [text_int_injective h]
    | float x => exact absurd h (text_int_ne_float m x)
  | float x =>
    cases n with
    | int n => exact absurd h.symm (text_int_ne_float n x)
    | float y => rw [Decimal.jsonLayout.render_injective h]

end Number

namespace Json

/-! ## Strings -/

/-- The number that a digit to base sixteen stands for. -/
def hexValue (c : Char) : Nat := if c.isDigit then c.toNat - 48 else c.toNat - 87

/-- Reads one character that may be escaped. -/
def unescape : List Char → Option (Char × List Char)
  | '\\' :: 'n' :: rest => some ('\n', rest)
  | '\\' :: 'r' :: rest => some ('\r', rest)
  | '\\' :: 't' :: rest => some ('\t', rest)
  | '\\' :: 'b' :: rest => some (Char.ofNat 8, rest)
  | '\\' :: 'f' :: rest => some (Char.ofNat 12, rest)
  | '\\' :: 'u' :: _ :: _ :: high :: low :: rest =>
    some (Char.ofNat (16 * hexValue high + hexValue low), rest)
  | '\\' :: c :: rest => some (c, rest)
  | c :: rest => some (c, rest)
  | [] => none

theorem hexValue_hexDigits :
    ∀ n < 32, 16 * hexValue (hexDigit (n / 16)) + hexValue (hexDigit n) = n := by
  decide

/-- What is escaped is read back. -/
theorem unescape_escapeChar (c : Char) (rest : List Char) :
    unescape (escapeChar c ++ rest) = some (c, rest) := by
  have hofNat {n : Nat} (h : c.toNat = n) : Char.ofNat n = c := by rw [← h, Char.ofNat_toNat]
  unfold escapeChar
  split
  · next h => subst h; rfl
  split
  · next h => subst h; rfl
  split
  · next h => subst h; rfl
  split
  · next h => subst h; rfl
  split
  · next h => subst h; rfl
  split
  · next h => simpa [unescape] using hofNat h
  split
  · next h => simpa [unescape] using hofNat h
  split
  · next h => simp [unescape, hofNat (hexValue_hexDigits _ h).symm]
  · next hback _ _ _ _ _ _ =>
    simp only [List.singleton_append]
    unfold unescape
    split <;> simp_all

theorem escapeChar_cancel {c d : Char} {r r' : List Char}
    (h : escapeChar c ++ r = escapeChar d ++ r') : c = d ∧ r = r' := by
  have hread := unescape_escapeChar c r
  rw [h, unescape_escapeChar] at hread
  cases hread
  exact ⟨rfl, rfl⟩

/-- No escape begins with the quote that ends a string. -/
theorem escapeChar_ne_quote {c : Char} {r r' : List Char} : escapeChar c ++ r ≠ '\"' :: r' := by
  unfold escapeChar
  repeat' split
  all_goals simp_all

theorem escaped_cancel {cs ds : List Char} {r r' : List Char}
    (h : cs.flatMap escapeChar ++ '\"' :: r = ds.flatMap escapeChar ++ '\"' :: r') :
    cs = ds ∧ r = r' := by
  induction cs generalizing ds with
  | nil =>
    cases ds with
    | nil => simpa using h
    | cons d ds =>
      rw [List.flatMap_cons, List.append_assoc] at h
      exact absurd h.symm escapeChar_ne_quote
  | cons c cs ih =>
    cases ds with
    | nil =>
      rw [List.flatMap_cons, List.append_assoc] at h
      exact absurd h escapeChar_ne_quote
    | cons d ds =>
      rw [List.flatMap_cons, List.flatMap_cons, List.append_assoc, List.append_assoc] at h
      obtain ⟨rfl, hrest⟩ := escapeChar_cancel h
      obtain ⟨rfl, hr⟩ := ih hrest
      exact ⟨rfl, hr⟩

/-- A string can be cut off the front in one way only. -/
theorem quoted_cancel {s t : String} {r r' : List Char} (h : quoted s ++ r = quoted t ++ r') :
    s = t ∧ r = r' := by
  have hbody : s.toList.flatMap escapeChar ++ '\"' :: r =
      t.toList.flatMap escapeChar ++ '\"' :: r' := by
    simpa [quoted] using h
  obtain ⟨hs, hr⟩ := escaped_cancel hbody
  exact ⟨String.toList_inj.1 hs, hr⟩

/-! ## Kinds -/

/-- The kinds of values, by what they begin with. -/
inductive Kind where
  | null
  | bool (b : Bool)
  | num
  | str
  | arr
  | obj
deriving DecidableEq

/-- The kind of a value. -/
def kind : Json → Kind
  | .null => .null
  | .bool b => .bool b
  | .num _ => .num
  | .str _ => .str
  | .arr _ => .arr
  | .obj _ => .obj

/-- The kind that a first character announces, if a value can begin with it. -/
def kindOf? (c : Char) : Option Kind :=
  if c = 'n' then some .null
  else if c = 't' then some (.bool true)
  else if c = 'f' then some (.bool false)
  else if c = '\"' then some .str
  else if c = '[' then some .arr
  else if c = '{' then some .obj
  else if c.isDigit ∨ c = '-' then some .num
  else none

theorem kindOf?_number {c : Char} (h : c.isDigit = true ∨ c = '-') : kindOf? c = some .num := by
  have hne (mark : Char) (hd : mark.isDigit = false) (hm : mark ≠ '-') : c ≠ mark := by
    rintro rfl
    rcases h with h | h
    · rw [h] at hd
      cases hd
    · exact hm h
  simp only [kindOf?, hne 'n' rfl (by decide), hne 't' rfl (by decide), hne 'f' rfl (by decide),
    hne '\"' rfl (by decide), hne '[' rfl (by decide), hne '{' rfl (by decide), if_false, h,
    if_true]

/-- The first character of a value tells its kind. -/
theorem head_chars (v : Json) : ∃ c cs, chars v = c :: cs ∧ kindOf? c = some v.kind := by
  cases v with
  | null => exact ⟨'n', _, rfl, rfl⟩
  | bool b =>
    cases b
    · exact ⟨'f', _, rfl, rfl⟩
    · exact ⟨'t', _, rfl, rfl⟩
  | num n =>
    obtain ⟨c, cs, hcons, hc⟩ := n.head_text
    exact ⟨c, cs, hcons, kindOf?_number hc⟩
  | str s => exact ⟨'\"', _, rfl, rfl⟩
  | arr items => exact ⟨'[', _, rfl, rfl⟩
  | obj fields => exact ⟨'{', _, rfl, rfl⟩

theorem kind_eq_of_chars {v w : Json} {r r' : List Char} (h : chars v ++ r = chars w ++ r') :
    v.kind = w.kind := by
  obtain ⟨c, cs, hv, hc⟩ := head_chars v
  obtain ⟨d, ds, hw, hd⟩ := head_chars w
  rw [hv, hw] at h
  cases List.head_eq_of_cons_eq h
  rw [hc] at hd
  exact Option.some.inj hd

/-! ## Values -/

/-- No number goes on with what follows. -/
def Delimited (r : List Char) : Prop := ∀ c ∈ r.head?, ¬ IsNumeric c

theorem delimited_cons {c : Char} {r : List Char} (h : c = ',' ∨ c = ']' ∨ c = '}') :
    Delimited (c :: r) := by
  intro d hd
  cases hd
  rcases h with rfl | rfl | rfl <;> simp [IsNumeric]

/-- Characters up to the first that is not numeric can be cut off in one way only. -/
theorem numeric_cancel {cs ds r r' : List Char} (hc : ∀ c ∈ cs, IsNumeric c)
    (hd : ∀ d ∈ ds, IsNumeric d) (hr : Delimited r) (hr' : Delimited r')
    (h : cs ++ r = ds ++ r') : cs = ds ∧ r = r' := by
  induction cs generalizing ds with
  | nil =>
    cases ds with
    | nil => exact ⟨rfl, h⟩
    | cons d ds =>
      rw [List.nil_append] at h
      exact absurd (hd d (List.mem_cons_self ..)) (hr d (by simp [h]))
  | cons c cs ih =>
    cases ds with
    | nil =>
      rw [List.nil_append] at h
      exact absurd (hc c (List.mem_cons_self ..)) (hr' c (by simp [← h]))
    | cons d ds =>
      rw [List.cons_append, List.cons_append] at h
      obtain ⟨rfl, hrest⟩ := List.cons_eq_cons.1 h
      obtain ⟨rfl, hrr⟩ := ih (fun x hx ↦ hc x (List.mem_cons_of_mem _ hx))
        (fun x hx ↦ hd x (List.mem_cons_of_mem _ hx)) hrest
      exact ⟨rfl, hrr⟩

/-- What follows the first item of a list. -/
def moreItems : List Json → List Char
  | [] => []
  | v :: rest => ',' :: charsItems (v :: rest)

theorem charsItems_cons (v : Json) (rest : List Json) :
    charsItems (v :: rest) = chars v ++ moreItems rest := by
  cases rest with
  | nil => simp [charsItems, moreItems]
  | cons w rest => rfl

theorem delimited_moreItems (rest : List Json) (r : List Char) :
    Delimited (moreItems rest ++ ']' :: r) := by
  cases rest with
  | nil => exact delimited_cons (.inr (.inl rfl))
  | cons w rest => exact delimited_cons (.inl rfl)

/-- What follows the first field of an object. -/
def moreFields : List (String × Json) → List Char
  | [] => []
  | entry :: rest => ',' :: charsFields (entry :: rest)

theorem charsFields_cons (key : String) (v : Json) (rest : List (String × Json)) :
    charsFields ((key, v) :: rest) = quoted key ++ ':' :: (chars v ++ moreFields rest) := by
  cases rest with
  | nil => simp [charsFields, moreFields]
  | cons w rest => simp [charsFields, moreFields]

theorem delimited_moreFields (rest : List (String × Json)) (r : List Char) :
    Delimited (moreFields rest ++ '}' :: r) := by
  cases rest with
  | nil => exact delimited_cons (.inr (.inr rfl))
  | cons w rest => exact delimited_cons (.inl rfl)

mutual

/-- **A value can be cut off the front of a text in one way only.** -/
theorem chars_cancel {v w : Json} {r r' : List Char} (hr : Delimited r) (hr' : Delimited r')
    (h : chars v ++ r = chars w ++ r') : v = w ∧ r = r' := by
  have hkind := kind_eq_of_chars h
  match v, w, hkind with
  | .null, .null, _ => exact ⟨rfl, List.append_cancel_left h⟩
  | .bool b, .bool c, hkind =>
    cases Kind.bool.inj hkind
    exact ⟨rfl, List.append_cancel_left h⟩
  | .num m, .num n, _ =>
    obtain ⟨htext, hrest⟩ :=
      numeric_cancel m.isNumeric_of_mem_text n.isNumeric_of_mem_text hr hr' h
    rw [Number.text_injective (String.toList_inj.1 htext)]
    exact ⟨rfl, hrest⟩
  | .str s, .str t, _ =>
    obtain ⟨rfl, hrest⟩ := quoted_cancel h
    exact ⟨rfl, hrest⟩
  | .arr vs, .arr ws, _ =>
    have hitems : charsItems vs ++ ']' :: r = charsItems ws ++ ']' :: r' := by
      simpa [chars] using h
    obtain ⟨rfl, hrest⟩ := charsItems_cancel hitems
    exact ⟨rfl, hrest⟩
  | .obj vs, .obj ws, _ =>
    have hfields : charsFields vs ++ '}' :: r = charsFields ws ++ '}' :: r' := by
      simpa [chars] using h
    obtain ⟨rfl, hrest⟩ := charsFields_cancel hfields
    exact ⟨rfl, hrest⟩

theorem charsItems_cancel {vs ws : List Json} {r r' : List Char}
    (h : charsItems vs ++ ']' :: r = charsItems ws ++ ']' :: r') : vs = ws ∧ r = r' := by
  have hend {v : Json} {rest : List Json} {r r' : List Char} :
      ']' :: r ≠ charsItems (v :: rest) ++ r' := by
    intro h
    obtain ⟨c, cs, hv, hc⟩ := head_chars v
    rw [charsItems_cons, hv] at h
    cases List.head_eq_of_cons_eq h
    cases hc
  match vs, ws with
  | [], [] => exact ⟨rfl, List.tail_eq_of_cons_eq h⟩
  | [], w :: ws => exact absurd h hend
  | v :: vs, [] => exact absurd h.symm hend
  | v :: vs, w :: ws =>
    rw [charsItems_cons, charsItems_cons, List.append_assoc, List.append_assoc] at h
    obtain ⟨rfl, hmore⟩ := chars_cancel (delimited_moreItems vs r) (delimited_moreItems ws r') h
    match vs, ws with
    | [], [] => exact ⟨rfl, List.tail_eq_of_cons_eq hmore⟩
    | [], _ :: _ => exact absurd (List.head_eq_of_cons_eq hmore) (by decide)
    | _ :: _, [] => exact absurd (List.head_eq_of_cons_eq hmore) (by decide)
    | _ :: _, _ :: _ =>
      obtain ⟨hrest, hr⟩ := charsItems_cancel (List.tail_eq_of_cons_eq hmore)
      exact ⟨by rw [hrest], hr⟩

theorem charsFields_cancel {vs ws : List (String × Json)} {r r' : List Char}
    (h : charsFields vs ++ '}' :: r = charsFields ws ++ '}' :: r') : vs = ws ∧ r = r' := by
  match vs, ws with
  | [], [] => exact ⟨rfl, List.tail_eq_of_cons_eq h⟩
  | [], (l, w) :: ws =>
    rw [charsFields_cons] at h
    exact absurd (List.head_eq_of_cons_eq h) (by decide)
  | (k, v) :: vs, [] =>
    rw [charsFields_cons] at h
    exact absurd (List.head_eq_of_cons_eq h) (by decide)
  | (k, v) :: vs, (l, w) :: ws =>
    rw [charsFields_cons, charsFields_cons, List.append_assoc, List.append_assoc] at h
    obtain ⟨rfl, hvalue⟩ := quoted_cancel h
    have hvalue : chars v ++ (moreFields vs ++ '}' :: r) =
        chars w ++ (moreFields ws ++ '}' :: r') := by
      simpa using hvalue
    obtain ⟨rfl, hmore⟩ :=
      chars_cancel (delimited_moreFields vs r) (delimited_moreFields ws r') hvalue
    match vs, ws with
    | [], [] => exact ⟨rfl, List.tail_eq_of_cons_eq hmore⟩
    | [], _ :: _ => exact absurd (List.head_eq_of_cons_eq hmore) (by decide)
    | _ :: _, [] => exact absurd (List.head_eq_of_cons_eq hmore) (by decide)
    | _ :: _, _ :: _ =>
      obtain ⟨hrest, hr⟩ := charsFields_cancel (List.tail_eq_of_cons_eq hmore)
      exact ⟨by rw [hrest], hr⟩

end

/-- **Values with one text are one value.** -/
theorem text_injective {v w : Json} (h : text v = text w) : v = w := by
  have hchars : chars v ++ [] = chars w ++ [] := by
    simpa [text] using congrArg String.toList h
  exact (chars_cancel (by simp [Delimited]) (by simp [Delimited]) hchars).1

/-- Values have one canonical text when they are the same after sorting, and only then. -/
theorem canonicalText_eq_iff {v w : Json} :
    canonicalText v = canonicalText w ↔ sorted v = sorted w :=
  ⟨text_injective, fun h ↦ congrArg text h⟩

end Json

end ChartFeed
