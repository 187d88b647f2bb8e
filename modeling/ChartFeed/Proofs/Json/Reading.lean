import ChartFeed.Json.Shape
import ChartFeed.Proofs.Json.Reordering

/-!
# Readers do not see the order of fields

A reader takes apart objects by their keys, so it reads values that differ in the order of fields
alike.  What this means depends on what is read: a text or a number is the same, a list has alike
items, and a mapping has the same entries in another order.

* `Shape.Respects` — the reader takes alike values to related ones, if it takes both;
* `respects_scalar`, `respects_items`, `respects_fields`, … — the readers of one kind of value each;
* `Record.entries_alike` — the fields of a record, also when they are written as an array;
* `Dict.AlikeAt.optional`, `Dict.Alike.required`, `Dict.Alike.defaulted` — one field of a record.
-/

set_option autoImplicit false

namespace ChartFeed

open Dict (get? keys)

variable {α β ε : Type}

/-! ## Outcomes -/

theorem bind_eq_ok {x : Except ε α} {f : α → Except ε β} {b : β} :
    (x >>= f) = .ok b ↔ ∃ a, x = .ok a ∧ f a = .ok b := by
  cases x with
  | error e => exact ⟨nofun, nofun⟩
  | ok a => exact ⟨fun h ↦ ⟨a, rfl, h⟩, fun ⟨_, rfl, h⟩ ↦ h⟩

theorem map_eq_ok {x : Except ε α} {f : α → β} {b : β} :
    x.map f = .ok b ↔ ∃ a, x = .ok a ∧ f a = b := by
  cases x with
  | error e => exact ⟨nofun, nofun⟩
  | ok a => exact ⟨fun h ↦ ⟨a, rfl, Except.ok.inj h⟩, fun ⟨_, rfl, h⟩ ↦ congrArg Except.ok h⟩

theorem pure_eq_ok {a b : α} : (pure a : Except ε α) = .ok b ↔ a = b :=
  ⟨Except.ok.inj, congrArg Except.ok⟩

theorem eq_of_rel {a b : Option α} (h : Option.Rel Eq a b) : a = b := by
  cases h with
  | none => rfl
  | some hab => rw [hab]

namespace Shape

variable {reader : Reader α} {R : α → α → Prop}

/-- Alike values that can both be read are read as related ones. -/
def Respects (reader : Reader α) (R : α → α → Prop) : Prop :=
  ∀ {v w a b}, Json.Alike v w → reader v = .ok a → reader w = .ok b → R a b

/-! ## Scalars -/

/-- A reader that takes neither arrays nor objects. -/
theorem respects_scalar (harr : ∀ vs a, reader (.arr vs) ≠ .ok a)
    (hobj : ∀ d a, reader (.obj d) ≠ .ok a) : Respects reader Eq := by
  intro v w a b h ha hb
  cases h.view with
  | scalar => exact Except.ok.inj (ha.symm.trans hb)
  | arr => exact absurd ha (harr _ a)
  | obj => exact absurd ha (hobj _ a)

theorem respects_text : Respects text Eq := respects_scalar nofun nofun

theorem respects_boolean : Respects boolean Eq := respects_scalar nofun nofun

theorem respects_unsigned : Respects unsigned Eq := respects_scalar nofun nofun

theorem respects_signed : Respects signed Eq := respects_scalar nofun nofun

theorem respects_any : Respects any Json.Alike := by
  intro v w a b h ha hb
  cases ha
  cases hb
  exact h

/-! ## Containers -/

/-- Null is read as nothing, and any other value as the reader reads it. -/
theorem optional_eq_ok {v : Json} {a : Option α} (h : optional reader v = .ok a) :
    (v = .null ∧ a = none) ∨ (v ≠ .null ∧ ∃ x, reader v = .ok x ∧ a = some x) := by
  cases v with
  | null =>
    cases h
    exact .inl ⟨rfl, rfl⟩
  | bool | num | str | arr | obj =>
    obtain ⟨x, hx, rfl⟩ := map_eq_ok.1 h
    exact .inr ⟨by simp, x, hx, rfl⟩

theorem respects_optional (h : Respects reader R) : Respects (optional reader) (Option.Rel R) := by
  intro v w a b hvw ha hb
  rcases optional_eq_ok ha with ⟨hv, rfl⟩ | ⟨hv, x, hx, rfl⟩
  · rcases optional_eq_ok hb with ⟨-, rfl⟩ | ⟨hw, -⟩
    · exact .none
    · exact absurd (hvw.isNull_iff.1 hv) hw
  · rcases optional_eq_ok hb with ⟨hw, -⟩ | ⟨-, y, hy, rfl⟩
    · exact absurd (hvw.isNull_iff.2 hw) hv
    · exact .some (h hvw hx hy)

theorem eachItem_eq_ok {values : List Json} {as : List α} :
    eachItem reader values = .ok as ↔ List.Forall₂ (fun v a ↦ reader v = .ok a) values as := by
  induction values generalizing as with
  | nil => simp [eachItem, eq_comm]
  | cons v rest ih =>
    simp only [eachItem, bind_eq_ok, pure_eq_ok, List.forall₂_cons_left_iff, ih]
    constructor
    · rintro ⟨a, ha, as, has, rfl⟩
      exact ⟨a, as, ha, has, rfl⟩
    · rintro ⟨a, as, ha, has, rfl⟩
      exact ⟨a, ha, as, has, rfl⟩

theorem items_eq_ok {v : Json} {as : List α} (h : items reader v = .ok as) :
    ∃ values, v = .arr values ∧ List.Forall₂ (fun v a ↦ reader v = .ok a) values as := by
  cases v with
  | arr values => exact ⟨values, rfl, eachItem_eq_ok.1 h⟩
  | null | bool | num | str | obj => cases h

theorem respects_items (h : Respects reader R) : Respects (items reader) (List.Forall₂ R) := by
  intro v w as bs hvw ha hb
  obtain ⟨vs, rfl, hvs⟩ := items_eq_ok ha
  obtain ⟨ws, rfl, hws⟩ := items_eq_ok hb
  have hitems := Json.alike_arr_iff.1 hvw
  clear ha hb hvw
  induction hitems generalizing as bs with
  | nil =>
    cases hvs
    cases hws
    exact .nil
  | cons hvw _ ih =>
    cases hvs with
    | cons ha has =>
      cases hws with
      | cons hb hbs => exact .cons (h hvw ha hb) (ih has hbs)

theorem respects_items_eq (h : Respects reader Eq) : Respects (items reader) Eq := by
  intro v w as bs hvw ha hb
  have has := respects_items h hvw ha hb
  rwa [List.forall₂_eq_eq_eq] at has

theorem respects_texts : Respects (items text) Eq := respects_items_eq respects_text

theorem pair_eq_ok {second : Reader β} {v : Json} {x : α × β} (h : pair reader second v = .ok x) :
    ∃ a b, v = .arr [a, b] ∧ reader a = .ok x.1 ∧ second b = .ok x.2 := by
  match v with
  | .arr [] => cases h
  | .arr [a] =>
    simp only [pair, bind_eq_ok] at h
    obtain ⟨_, _, h⟩ := h
    cases h
  | .arr (a :: b :: rest) =>
    simp only [pair, bind_eq_ok] at h
    obtain ⟨y, hy, z, hz, h⟩ := h
    cases rest with
    | nil =>
      cases h
      exact ⟨a, b, rfl, hy, hz⟩
    | cons c rest => cases h
  | .null | .bool _ | .num _ | .str _ | .obj _ => cases h

theorem respects_pair {second : Reader β} {S : β → β → Prop} (h : Respects reader R)
    (h' : Respects second S) :
    Respects (pair reader second) fun x y ↦ R x.1 y.1 ∧ S x.2 y.2 := by
  intro v w x y hvw hx hy
  obtain ⟨a, b, rfl, ha, hb⟩ := pair_eq_ok hx
  obtain ⟨c, d, rfl, hc, hd⟩ := pair_eq_ok hy
  rcases Json.alike_arr_iff.1 hvw with _ | ⟨hac, _ | ⟨hbd, _⟩⟩
  exact ⟨h hac ha hc, h' hbd hb hd⟩

theorem choose_eq_ok {known : List (String × α)} {name : String} {a : α} :
    choose known name = .ok a ↔ get? known name = some a := by
  rw [choose]
  cases get? known name <;> simp

theorem respects_variant (known : List (String × α)) : Respects (variant known) Eq := by
  have hobj {d : Dict Json} {a : α} (ha : variant known (.obj d) = .ok a) :
      ∃ name, d = [(name, .null)] ∧ get? known name = some a := by
    match d with
    | [] => cases ha
    | [(name, content)] =>
      simp only [variant, bind_eq_ok, choose_eq_ok] at ha
      obtain ⟨b, hb, ha⟩ := ha
      cases content with
      | null =>
        cases ha
        exact ⟨name, rfl, hb⟩
      | bool | num | str | arr | obj => cases ha
    | _ :: _ :: _ => cases ha
  intro v w a b hvw ha hb
  cases hvw.view with
  | scalar => exact Except.ok.inj (ha.symm.trans hb)
  | arr => cases ha
  | obj hd he h =>
    obtain ⟨name, rfl, hknown⟩ := hobj ha
    obtain ⟨name', rfl, hknown'⟩ := hobj hb
    have hname : name ∈ keys [(name', Json.null)] := (h.mem_keys_iff name).1 (by simp [keys])
    have hname' : name = name' := by simpa [keys] using hname
    rw [hname', hknown'] at hknown
    exact (Option.some.inj hknown).symm

/-! ## Objects -/

/-- A well-formed object is read as its fields. -/
theorem fields_eq_ok {v : Json} {d : Dict Json} (hv : v.WellFormed) (h : fields v = .ok d) :
    v = .obj d := by
  cases v with
  | obj e =>
    cases h
    rw [Dict.ofEntries_eq_self (Json.wellFormed_obj_iff.1 hv).1]
  | null | bool | num | str | arr => cases h

theorem respects_fields : Respects fields fun d e ↦ Json.Alike (.obj d) (.obj e) := by
  intro v w d e hvw hd he
  rw [← fields_eq_ok hvw.left hd, ← fields_eq_ok hvw.right he]
  exact hvw

/-- Every value is read where it stands. -/
theorem related_of_eachField {d : Dict Json} {as : Dict α} (h : eachField reader d = .ok as) :
    Dict.Related (fun v a ↦ reader v = .ok a) d as := by
  intro key
  induction d generalizing as with
  | nil =>
    cases h
    exact .inl ⟨rfl, rfl⟩
  | cons entry rest ih =>
    obtain ⟨k, v⟩ := entry
    simp only [eachField, bind_eq_ok, pure_eq_ok] at h
    obtain ⟨a, ha, as, has, rfl⟩ := h
    exact (ih has).cons k ha

theorem keys_of_eachField {d : Dict Json} {as : Dict α} (h : eachField reader d = .ok as) :
    keys as = keys d := by
  induction d generalizing as with
  | nil =>
    cases h
    rfl
  | cons entry rest ih =>
    simp only [eachField, bind_eq_ok, pure_eq_ok] at h
    obtain ⟨a, -, as, has, rfl⟩ := h
    have hrest : as.map Prod.fst = rest.map Prod.fst := ih has
    simp [keys, hrest]

/-- A mapping of well-formed fields has an entry for each field. -/
theorem mapping_eq_ok {v : Json} {m : OrderedMap α} (hv : v.WellFormed)
    (h : mapping reader v = .ok m) : ∃ d, v = .obj d ∧ eachField reader d = .ok m.entries := by
  cases v with
  | obj d =>
    obtain ⟨as, has, rfl⟩ := map_eq_ok.1 h
    refine ⟨d, rfl, ?_⟩
    have hkeys : (keys as).Nodup := keys_of_eachField has ▸ (Json.wellFormed_obj_iff.1 hv).1
    have hself : (OrderedMap.ofEntries as).entries = as := Dict.ofEntries_eq_self hkeys
    rw [hself, has]
  | null | bool | num | str | arr => cases h

/-- **Alike mappings have related entries**, in whatever order. -/
theorem respects_mapping (h : Respects reader R) :
    Respects (mapping reader) fun m n ↦ Dict.Related R m.entries n.entries := by
  intro v w m n hvw hm hn
  obtain ⟨d, rfl, hd⟩ := mapping_eq_ok hvw.left hm
  obtain ⟨e, rfl, he⟩ := mapping_eq_ok hvw.right hn
  have hde : Dict.Alike d e := (Json.alike_obj_iff hvw.left hvw.right).1 hvw
  exact hde.square (related_of_eachField hd) (related_of_eachField he) h

/-- Alike mappings of values that are read alike are rearrangements of each other. -/
theorem respects_mapping_perm (h : Respects reader Eq) :
    Respects (mapping reader) fun m n ↦ m.entries.Perm n.entries := by
  intro v w m n hvw hm hn
  exact (respects_mapping h hvw hm hn).perm m.nodup n.nodup

end Shape

/-! ## Records -/

theorem Field.check_of {reader : Reader α} {v : Json} {a : α} (h : reader v = .ok a)
    (name : String) (presence : Presence) : (Field.of name presence reader).check v = .ok () := by
  simp only [Field.of, h]
  rfl

namespace Record

theorem checkItems_eq_ok {r : Record} {total position : Nat} {fields : List Field}
    {items : List Json} {d : Dict Json} (h : r.checkItems total position fields items = .ok d) :
    d = (fields.map Field.name).zip items := by
  induction fields generalizing position items d with
  | nil =>
    cases items with
    | nil =>
      cases h
      rfl
    | cons v rest => cases h
  | cons f fields ih =>
    cases items with
    | nil =>
      rw [checkItems] at h
      split at h
      · rw [ih h]
        simp
      · cases h
    | cons v rest =>
      simp only [checkItems, bind_eq_ok, pure_eq_ok] at h
      obtain ⟨_, -, d, hd, rfl⟩ := h
      rw [ih hd]
      rfl

theorem alike_zip (names : List String) {vs ws : List Json} (h : List.Forall₂ Json.Alike vs ws) :
    Dict.Alike (names.zip vs) (names.zip ws) := by
  induction h generalizing names with
  | nil => exact fun key ↦ .inl (by simp)
  | @cons v w vs ws hvw _ ih =>
    intro key
    cases names with
    | nil => exact .inl (by simp)
    | cons name names =>
      rw [List.zip_cons_cons, List.zip_cons_cons]
      exact (ih names key).cons name hvw

theorem entries_obj {r : Record} {d e : Dict Json} (h : r.entries (.obj d) = .ok e) : e = d := by
  simp only [entries, bind_eq_ok] at h
  obtain ⟨_, -, h⟩ := h
  split at h
  · cases h
  · cases h
    rfl

/-- An open record takes distinct fields that are one by one as it wants them. -/
theorem checkEntries_eq_ok_iff {r : Record} (hopen : r.closed = false) {seen : List String}
    {d : Dict Json} (hd : (keys d).Nodup) (hseen : ∀ key ∈ seen, key ∉ keys d) :
    r.checkEntries seen d = .ok () ↔
      ∀ entry ∈ d, ∀ f, r.field? entry.1 = some f → f.check entry.2 = .ok () := by
  induction d generalizing seen with
  | nil => simp [checkEntries]
  | cons entry rest ih =>
    obtain ⟨key, v⟩ := entry
    have hkey : key ∉ keys rest ∧ (keys rest).Nodup := by simpa [keys] using hd
    have hnew : key ∉ seen := fun h ↦ hseen key h (by simp [keys])
    have hrest : ∀ other ∈ seen, other ∉ keys rest := fun other h hmem ↦
      hseen other h (List.mem_cons_of_mem _ hmem)
    rw [checkEntries, List.forall_mem_cons]
    cases hf : r.field? key with
    | none =>
      simp [hopen, ih hkey.2 hrest]
    | some f =>
      have hcons : ∀ other ∈ key :: seen, other ∉ keys rest := by
        simpa [List.forall_mem_cons] using ⟨hkey.1, hrest⟩
      simp only [hnew, if_false, bind_eq_ok, ih hkey.2 hcons, Option.some.injEq, forall_eq']
      exact ⟨fun ⟨_, h, h'⟩ ↦ ⟨h, h'⟩, fun ⟨h, h'⟩ ↦ ⟨(), h, h'⟩⟩

/-- **Alike values have alike fields**, whether they are written as objects or as arrays. -/
theorem entries_alike {r : Record} {v w : Json} {d e : Dict Json} (h : Json.Alike v w)
    (hd : r.entries v = .ok d) (he : r.entries w = .ok e) : Dict.Alike d e := by
  cases h.view with
  | scalar harr hobj =>
    cases v with
    | arr items => exact absurd rfl (harr items)
    | obj fields => exact absurd rfl (hobj fields)
    | null | bool | num | str => cases hd
  | arr hitems =>
    rw [checkItems_eq_ok hd, checkItems_eq_ok he]
    exact alike_zip _ hitems
  | obj _ _ hfields =>
    rw [entries_obj hd, entries_obj he]
    exact hfields

end Record

section

variable {reader : Reader α} {R : α → α → Prop} {d e : Dict Json}

/-- A field that may be left out or null has no value then, and else the one that is read. -/
theorem Dict.optional_eq_ok {name : String} {a : Option α} (h : d.optional name reader = .ok a) :
    ((get? d name = none ∨ get? d name = some .null) ∧ a = none) ∨
      ∃ v x, get? d name = some v ∧ v ≠ .null ∧ reader v = .ok x ∧ a = some x := by
  rw [Dict.optional] at h
  cases hv : get? d name with
  | none =>
    rw [hv] at h
    cases h
    exact .inl ⟨.inl rfl, rfl⟩
  | some v =>
    rw [hv] at h
    rcases Shape.optional_eq_ok h with ⟨rfl, rfl⟩ | ⟨hnull, x, hx, rfl⟩
    · exact .inl ⟨.inr rfl, rfl⟩
    · exact .inr ⟨v, x, rfl, hnull, hx, rfl⟩

/-- A field that may be left out is read alike when what stands under its name is. -/
theorem Dict.AlikeAt.optional {name : String} (h : Dict.AlikeAt d e name)
    (hr : Shape.Respects reader R) {a b : Option α} (ha : d.optional name reader = .ok a)
    (hb : e.optional name reader = .ok b) : Option.Rel R a b := by
  rw [Dict.optional] at ha hb
  rcases h with ⟨hd, he⟩ | ⟨v, w, hd, he, hvw⟩ <;> simp only [hd, he] at ha hb
  · cases ha
    cases hb
    exact .none
  · exact Shape.respects_optional hr hvw ha hb

theorem Dict.AlikeAt.optional_eq {name : String} (h : Dict.AlikeAt d e name)
    (hr : Shape.Respects reader Eq) {a b : Option α} (ha : d.optional name reader = .ok a)
    (hb : e.optional name reader = .ok b) : a = b :=
  eq_of_rel (h.optional hr ha hb)

namespace Dict.Alike

theorem required (h : Dict.Alike d e) (hr : Shape.Respects reader R) {name : String} {a b : α}
    (ha : d.required name reader = .ok a) (hb : e.required name reader = .ok b) : R a b := by
  rw [Dict.required] at ha hb
  rcases h name with ⟨hd, he⟩ | ⟨v, w, hd, he, hvw⟩ <;> simp only [hd, he] at ha hb
  · cases ha
  · exact hr hvw ha hb

theorem optional (h : Dict.Alike d e) (hr : Shape.Respects reader R) {name : String}
    {a b : Option α} (ha : d.optional name reader = .ok a) (hb : e.optional name reader = .ok b) :
    Option.Rel R a b :=
  AlikeAt.optional (h name) hr ha hb

theorem optional_eq (h : Dict.Alike d e) (hr : Shape.Respects reader Eq) {name : String}
    {a b : Option α} (ha : d.optional name reader = .ok a) (hb : e.optional name reader = .ok b) :
    a = b :=
  eq_of_rel (h.optional hr ha hb)

theorem defaulted (h : Dict.Alike d e) (hr : Shape.Respects reader R) {name : String}
    {default a b : α} (hdefault : R default default)
    (ha : d.defaulted name reader default = .ok a) (hb : e.defaulted name reader default = .ok b) :
    R a b := by
  rw [Dict.defaulted] at ha hb
  rcases h name with ⟨hd, he⟩ | ⟨v, w, hd, he, hvw⟩ <;> simp only [hd, he] at ha hb
  · cases ha
    cases hb
    exact hdefault
  · exact hr hvw ha hb

end Dict.Alike

end

end ChartFeed
