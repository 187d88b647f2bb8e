import Mathlib.Data.List.Forall2
import ChartFeed.Proofs.Dict.Lookup

/-!
# Values that differ in the order of fields

The order in which an object has its fields is often of no importance.

* `Json.Same` — the fields of objects may be rearranged, at every level;
* `Json.Alike` — two well-formed values are the same when sorted, and `Alike.view` what this means
  for each kind of value;
* `Dict.Alike` — under every key there is nothing, or there are values that are alike;
* `alike_of_same` — rearranging leaves a value alike.
-/

set_option autoImplicit false

namespace ChartFeed

open Dict (keys mapValues sortKeys)

namespace Json

/-! ## Rearranging -/

mutual

/-- The values differ at most in the order of fields. -/
def Same : Json → Json → Prop
  | .arr vs, w => ∃ ws, w = .arr ws ∧ SameItems vs ws
  | .obj d, w => ∃ e, w = .obj e ∧ SameFields d e
  | .null, w => w = .null
  | .bool b, w => w = .bool b
  | .num n, w => w = .num n
  | .str s, w => w = .str s

/-- The items differ at most in the order of fields inside them. -/
def SameItems : List Json → List Json → Prop
  | [], ws => ws = []
  | v :: vs, ws => ∃ w rest, ws = w :: rest ∧ Same v w ∧ SameItems vs rest

/-- The fields are the same up to their order, and up to the order of fields inside them. -/
def SameFields : List (String × Json) → List (String × Json) → Prop
  | [], e => e = []
  | (key, v) :: d, e =>
    ∃ before w after, e = before ++ (key, w) :: after ∧ Same v w ∧ SameFields d (before ++ after)

end

mutual

theorem same_refl (v : Json) : Same v v := by
  match v with
  | .null | .bool _ | .num _ | .str _ => rw [Same]
  | .arr items =>
    rw [Same]
    exact ⟨items, rfl, sameItems_refl items⟩
  | .obj fields =>
    rw [Same]
    exact ⟨fields, rfl, sameFields_refl fields⟩

theorem sameItems_refl (items : List Json) : SameItems items items := by
  match items with
  | [] => rw [SameItems]
  | v :: rest =>
    rw [SameItems]
    exact ⟨v, rest, rfl, same_refl v, sameItems_refl rest⟩

theorem sameFields_refl (d : List (String × Json)) : SameFields d d := by
  match d with
  | [] => rw [SameFields]
  | (key, v) :: rest =>
    rw [SameFields]
    exact ⟨[], v, rest, rfl, same_refl v, sameFields_refl rest⟩

end

/-- Rearranging the fields of an object alone is one way of rearranging. -/
theorem same_of_perm {d e : Dict Json} (h : d.Perm e) : Same (.obj d) (.obj e) := by
  rw [Same]
  refine ⟨e, rfl, ?_⟩
  induction d generalizing e with
  | nil => rw [SameFields, h.nil_eq]
  | cons entry rest ih =>
    obtain ⟨before, after, rfl⟩ := List.append_of_mem (h.subset List.mem_cons_self)
    rw [SameFields]
    exact ⟨before, entry.2, after, rfl, same_refl _,
      ih ((List.perm_cons entry).1 (h.trans List.perm_middle))⟩

/-! ## Sorting and well-formedness, inside and out -/

theorem sortedItems_eq (items : List Json) : sortedItems items = items.map sorted := by
  induction items with
  | nil => rfl
  | cons v rest ih => rw [sortedItems, ih, List.map_cons]

theorem sortedFields_eq (d : Dict Json) : sortedFields d = mapValues sorted d := by
  induction d with
  | nil => rfl
  | cons entry rest ih =>
    rw [sortedFields, ih]
    rfl

theorem sorted_arr (items : List Json) : sorted (.arr items) = .arr (items.map sorted) := by
  rw [sorted, sortedItems_eq]

theorem sorted_obj (d : Dict Json) : sorted (.obj d) = .obj (sortKeys (mapValues sorted d)) := by
  rw [sorted, sortedFields_eq]

theorem wellFormed_arr_iff {items : List Json} :
    (Json.arr items).WellFormed ↔ ∀ v ∈ items, v.WellFormed := by
  rw [WellFormed]
  induction items with
  | nil => simp [WellFormedItems]
  | cons v rest ih => simp [WellFormedItems, ih]

theorem wellFormed_obj_iff {d : Dict Json} :
    (Json.obj d).WellFormed ↔ (keys d).Nodup ∧ ∀ entry ∈ d, entry.2.WellFormed := by
  rw [WellFormed]
  refine and_congr_right fun _ ↦ ?_
  clear * -
  induction d with
  | nil => simp [WellFormedFields]
  | cons entry rest ih => simp [WellFormedFields, ih]

theorem WellFormed.of_get? {d : Dict Json} (h : (Json.obj d).WellFormed) {key : String} {v : Json}
    (hv : Dict.get? d key = some v) : v.WellFormed :=
  (wellFormed_obj_iff.1 h).2 _ (Dict.mem_of_get? hv)

/-! ## Alike values -/

/-- Well-formed values that are the same when sorted. -/
structure Alike (v w : Json) : Prop where
  left : v.WellFormed
  right : w.WellFormed
  sorted_eq : sorted v = sorted w

end Json

/-- Under this key there is nothing in either, or there are values that are alike. -/
def Dict.AlikeAt (d e : Dict Json) (key : String) : Prop := Dict.RelatedAt Json.Alike d e key

/-- Under every key there is nothing in either, or there are values that are alike. -/
def Dict.Alike (d e : Dict Json) : Prop := Dict.Related Json.Alike d e

theorem Dict.AlikeAt.map_sorted_eq {d e : Dict Json} {key : String} (h : Dict.AlikeAt d e key) :
    (Dict.get? d key).map Json.sorted = (Dict.get? e key).map Json.sorted := by
  rcases h with ⟨hd, he⟩ | ⟨v, w, hd, he, hvw⟩
  · rw [hd, he]
  · rw [hd, he, Option.map_some, Option.map_some, hvw.sorted_eq]

namespace Json

theorem Alike.refl {v : Json} (h : v.WellFormed) : Alike v v := ⟨h, h, rfl⟩

theorem Alike.symm {v w : Json} (h : Alike v w) : Alike w v := ⟨h.right, h.left, h.sorted_eq.symm⟩

theorem forall₂_alike_iff {vs ws : List Json} :
    List.Forall₂ Alike vs ws ↔
      (∀ v ∈ vs, v.WellFormed) ∧ (∀ w ∈ ws, w.WellFormed) ∧ vs.map sorted = ws.map sorted := by
  constructor
  · intro h
    induction h with
    | nil => simp
    | cons hvw _ ih =>
      simp only [List.forall_mem_cons, List.map_cons, hvw.sorted_eq, ih.2.2]
      exact ⟨⟨hvw.left, ih.1⟩, ⟨hvw.right, ih.2.1⟩, trivial⟩
  · rintro ⟨hv, hw, hsorted⟩
    induction vs generalizing ws with
    | nil =>
      rw [List.map_nil, eq_comm, List.map_eq_nil_iff] at hsorted
      subst hsorted
      exact .nil
    | cons v vs ih =>
      cases ws with
      | nil => cases hsorted
      | cons w ws =>
        simp only [List.map_cons, List.cons.injEq, List.forall_mem_cons] at hv hw hsorted
        exact .cons ⟨hv.1, hw.1, hsorted.1⟩ (ih hv.2 hw.2 hsorted.2)

theorem rel_alike_of_map_sorted {a b : Option Json} (ha : ∀ v, a = some v → v.WellFormed)
    (hb : ∀ v, b = some v → v.WellFormed) (h : a.map sorted = b.map sorted) :
    Option.Rel Alike a b := by
  cases a with
  | none =>
    rw [Option.map_none, eq_comm, Option.map_eq_none_iff] at h
    rw [h]
    exact .none
  | some v =>
    rw [Option.map_some, eq_comm, Option.map_eq_some_iff] at h
    obtain ⟨w, rfl, hvw⟩ := h
    exact .some ⟨ha v rfl, hb w rfl, hvw.symm⟩

theorem alike_arr_iff {vs ws : List Json} :
    Alike (.arr vs) (.arr ws) ↔ List.Forall₂ Alike vs ws := by
  rw [forall₂_alike_iff]
  constructor
  · rintro ⟨hv, hw, hsorted⟩
    rw [sorted_arr, sorted_arr] at hsorted
    exact ⟨wellFormed_arr_iff.1 hv, wellFormed_arr_iff.1 hw, Json.arr.inj hsorted⟩
  · rintro ⟨hv, hw, hsorted⟩
    refine ⟨wellFormed_arr_iff.2 hv, wellFormed_arr_iff.2 hw, ?_⟩
    rw [sorted_arr, sorted_arr, hsorted]

/-- **Objects are alike when their fields are**, key by key. -/
theorem alike_obj_iff {d e : Dict Json} (hd : (Json.obj d).WellFormed)
    (he : (Json.obj e).WellFormed) : Alike (.obj d) (.obj e) ↔ Dict.Alike d e := by
  have hdk : (keys (mapValues sorted d)).Nodup := by simpa using (wellFormed_obj_iff.1 hd).1
  have hek : (keys (mapValues sorted e)).Nodup := by simpa using (wellFormed_obj_iff.1 he).1
  constructor
  · intro h key
    have hsorted := h.sorted_eq
    rw [sorted_obj, sorted_obj] at hsorted
    have hget : (Dict.get? d key).map sorted = (Dict.get? e key).map sorted := by
      rw [← Dict.get?_mapValues, ← Dict.get?_mapValues, ← Dict.get?_sortKeys hdk,
        ← Dict.get?_sortKeys hek, Json.obj.inj hsorted]
    cases hdv : Dict.get? d key with
    | none =>
      rw [hdv, Option.map_none, eq_comm, Option.map_eq_none_iff] at hget
      exact .inl ⟨hdv, hget⟩
    | some v =>
      rw [hdv, Option.map_some, eq_comm, Option.map_eq_some_iff] at hget
      obtain ⟨w, hew, hvw⟩ := hget
      exact .inr ⟨v, w, hdv, hew, hd.of_get? hdv, he.of_get? hew, hvw.symm⟩
  · intro h
    refine ⟨hd, he, ?_⟩
    rw [sorted_obj, sorted_obj, (Dict.sortKeys_eq_iff_perm hdk).2]
    refine Dict.perm_of_get? hdk hek fun key ↦ ?_
    rw [Dict.get?_mapValues, Dict.get?_mapValues]
    exact Dict.AlikeAt.map_sorted_eq (h key)

/-- What it means for values to be alike, by their kind. -/
inductive AlikeView : Json → Json → Prop
  | scalar {u : Json} (harr : ∀ vs, u ≠ .arr vs) (hobj : ∀ d, u ≠ .obj d) : AlikeView u u
  | arr {vs ws : List Json} (h : List.Forall₂ Alike vs ws) : AlikeView (.arr vs) (.arr ws)
  | obj {d e : Dict Json} (hd : (Json.obj d).WellFormed) (he : (Json.obj e).WellFormed)
      (h : Dict.Alike d e) : AlikeView (.obj d) (.obj e)

theorem Alike.view {v w : Json} (h : Alike v w) : AlikeView v w := by
  have hsorted := h.sorted_eq
  cases v with
  | null =>
    cases w <;> simp [sorted] at hsorted
    exact .scalar nofun nofun
  | bool b =>
    cases w <;> simp [sorted] at hsorted
    subst hsorted
    exact .scalar nofun nofun
  | num n =>
    cases w <;> simp [sorted] at hsorted
    subst hsorted
    exact .scalar nofun nofun
  | str s =>
    cases w <;> simp [sorted] at hsorted
    subst hsorted
    exact .scalar nofun nofun
  | arr vs =>
    cases w with
    | arr ws => exact .arr (alike_arr_iff.1 h)
    | null | bool | num | str | obj => simp [sorted] at hsorted
  | obj d =>
    cases w with
    | obj e => exact .obj h.left h.right ((alike_obj_iff h.left h.right).1 h)
    | null | bool | num | str | arr => simp [sorted] at hsorted

theorem Alike.eq_null {w : Json} (h : Alike .null w) : w = .null := by
  have hsorted := h.sorted_eq
  cases w <;> simp [sorted] at hsorted
  rfl

theorem Alike.isNull_iff {v w : Json} (h : Alike v w) : v = .null ↔ w = .null :=
  ⟨fun e ↦ Alike.eq_null (e ▸ h), fun e ↦ Alike.eq_null (e ▸ h.symm)⟩

theorem Alike.asString?_eq {v w : Json} (h : Alike v w) : v.asString? = w.asString? := by
  cases h.view <;> rfl

theorem Alike.asFloat?_eq {v w : Json} (h : Alike v w) : v.asFloat? = w.asFloat? := by
  cases h.view <;> rfl

theorem Alike.truthy_eq {v w : Json} (h : Alike v w) : v.truthy = w.truthy := by
  cases h.view with
  | scalar => rfl
  | arr hitems => cases hitems <;> rfl
  | @obj d e _ _ _ =>
    have hsorted := h.sorted_eq
    rw [sorted_obj, sorted_obj] at hsorted
    have hlength : d.length = e.length := by
      have hsame := congrArg List.length (Json.obj.inj hsorted)
      rw [(Dict.perm_sortKeys _).length_eq, (Dict.perm_sortKeys _).length_eq] at hsame
      simpa [mapValues] using hsame
    have hempty : d.isEmpty = e.isEmpty := by
      rw [Bool.eq_iff_iff, List.isEmpty_iff_length_eq_zero, hlength,
        List.isEmpty_iff_length_eq_zero]
    rw [truthy, truthy, hempty]

end Json

theorem Dict.Alike.bind_eq {α : Type} {d e : Dict Json} (h : Dict.Alike d e) {f : Json → Option α}
    (hf : ∀ {v w}, Json.Alike v w → f v = f w) (key : String) :
    (Dict.get? d key).bind f = (Dict.get? e key).bind f := by
  rcases h key with ⟨hd, he⟩ | ⟨v, w, hd, he, hvw⟩
  · rw [hd, he]
  · rw [hd, he, Option.bind_some, Option.bind_some, hf hvw]

theorem Dict.Alike.refl {d : Dict Json} (h : (Json.obj d).WellFormed) : Dict.Alike d d := by
  intro key
  cases hv : Dict.get? d key with
  | none => exact .inl ⟨hv, hv⟩
  | some v => exact .inr ⟨v, v, hv, hv, Json.Alike.refl (h.of_get? hv)⟩

/-! ## Rearranged values are alike -/

namespace Json

theorem keys_perm_of_sameFields {d e : Dict Json} (h : SameFields d e) :
    (keys d).Perm (keys e) := by
  induction d generalizing e with
  | nil => rw [SameFields] at h; subst h; exact List.Perm.refl _
  | cons entry rest ih =>
    rw [SameFields] at h
    obtain ⟨before, w, after, rfl, -, hrest⟩ := h
    have hperm := ih hrest
    simp only [keys, List.map_cons, List.map_append] at hperm ⊢
    exact (hperm.cons _).trans List.perm_middle.symm

mutual

/-- **Rearranging fields leaves a value alike.** -/
theorem alike_of_same {v w : Json} (hv : v.WellFormed) (h : Same v w) : Alike v w := by
  match v with
  | .null | .bool _ | .num _ | .str _ =>
    rw [Same] at h
    subst h
    exact Alike.refl hv
  | .arr vs =>
    rw [Same] at h
    obtain ⟨ws, rfl, hitems⟩ := h
    exact alike_arr_iff.2 (alike_of_sameItems (wellFormed_arr_iff.1 hv) hitems)
  | .obj d =>
    rw [Same] at h
    obtain ⟨e, rfl, hfields⟩ := h
    obtain ⟨hkeys, hvalues⟩ := wellFormed_obj_iff.1 hv
    obtain ⟨hsorted, hwell⟩ := alike_of_sameFields hvalues hfields
    have he : (Json.obj e).WellFormed :=
      wellFormed_obj_iff.2 ⟨(keys_perm_of_sameFields hfields).nodup_iff.1 hkeys, hwell⟩
    refine ⟨hv, he, ?_⟩
    rw [sorted_obj, sorted_obj, (Dict.sortKeys_eq_iff_perm (by simpa using hkeys)).2 hsorted]

theorem alike_of_sameItems {vs ws : List Json} (hv : ∀ v ∈ vs, v.WellFormed)
    (h : SameItems vs ws) : List.Forall₂ Alike vs ws := by
  match vs with
  | [] =>
    rw [SameItems] at h
    subst h
    exact .nil
  | v :: vs =>
    rw [SameItems] at h
    obtain ⟨w, rest, rfl, hvw, hrest⟩ := h
    rw [List.forall_mem_cons] at hv
    exact .cons (alike_of_same hv.1 hvw) (alike_of_sameItems hv.2 hrest)

theorem alike_of_sameFields {d e : Dict Json} (hd : ∀ entry ∈ d, entry.2.WellFormed)
    (h : SameFields d e) :
    (mapValues sorted d).Perm (mapValues sorted e) ∧ ∀ entry ∈ e, entry.2.WellFormed := by
  match d with
  | [] =>
    rw [SameFields] at h
    subst h
    exact ⟨List.Perm.refl _, hd⟩
  | (key, v) :: rest =>
    rw [SameFields] at h
    obtain ⟨before, w, after, rfl, hvw, hrest⟩ := h
    rw [List.forall_mem_cons] at hd
    have hw := alike_of_same hd.1 hvw
    obtain ⟨hperm, hwell⟩ := alike_of_sameFields hd.2 hrest
    constructor
    · simp only [mapValues, List.map_cons, List.map_append, hw.sorted_eq] at hperm ⊢
      exact (hperm.cons _).trans List.perm_middle.symm
    · intro entry hentry
      rcases List.mem_append.1 hentry with hmem | hmem
      · exact hwell entry (List.mem_append.2 (.inl hmem))
      · rcases List.mem_cons.1 hmem with rfl | hmem
        · exact hw.right
        · exact hwell entry (List.mem_append.2 (.inr hmem))

end

end Json

end ChartFeed
