import ChartFeed.Proofs.Json.Reading

/-!
# What is written is read back

Readers are more liberal than writers: a value can be spelled in several ways, and is written in
one.  A writer restores what a reader reads when the value that is written is read as the same.

* `Shape.Restores` — a writer for a reader, whatever was read;
* `restores_text`, `restores_items`, … — the writers for one kind of value each;
* `Shape.Restores.field` — a field that may be left out, and is written as null then;
* `Record.entries_eq_ok` — the fields of a record.
-/

set_option autoImplicit false

namespace ChartFeed

open Dict (get? keys)

variable {α β : Type}

namespace Shape

variable {reader : Reader α} {write : α → Json}

/-- Whatever was read is written so that it is read again, and not as null unless it was null. -/
structure Restores (reader : Reader α) (write : α → Json) : Prop where
  read_write : ∀ {v a}, reader v = .ok a → reader (write a) = .ok a
  write_ne_null : ∀ {v a}, reader v = .ok a → v ≠ .null → write a ≠ .null

/-! ## Scalars -/

theorem restores_any : Restores any id where
  read_write _ := rfl
  write_ne_null h hv := by
    cases h
    exact hv

theorem restores_text : Restores text .str := ⟨fun _ ↦ rfl, fun _ _ ↦ by simp⟩

theorem restores_boolean : Restores boolean .bool := ⟨fun _ ↦ rfl, fun _ _ ↦ by simp⟩

theorem unsigned_eq_ok {v : Json} {n : Nat} (h : unsigned v = .ok n) : n ≤ uint64Max := by
  match v with
  | .num (.int k) =>
    rw [unsigned] at h
    split at h
    · next hk =>
      cases h
      exact Int.toNat_le.2 hk.2
    · cases h
  | .num (.float _) | .null | .bool _ | .str _ | .arr _ | .obj _ => cases h

theorem restores_unsigned : Restores unsigned .nat where
  read_write h := by
    have hn := unsigned_eq_ok h
    rw [Json.nat, unsigned, if_pos ⟨Int.natCast_nonneg _, Int.ofNat_le.2 hn⟩]
    rfl
  write_ne_null _ _ := nofun

/-! ## Containers -/

/-- Items are read back together exactly when they are read back one by one. -/
theorem items_map_iff {as : List α} :
    items reader (.arr (as.map write)) = .ok as ↔ ∀ a ∈ as, reader (write a) = .ok a := by
  rw [items, eachItem_eq_ok, List.forall₂_map_left_iff, List.forall₂_same]

/-- Items that are read back together can be read one by one. -/
theorem exists_of_items_map {as : List α} {bs : List β} {reader : Reader β}
    (h : items reader (.arr (as.map write)) = .ok bs) :
    ∀ a ∈ as, ∃ b, reader (write a) = .ok b := by
  rw [items, eachItem_eq_ok, List.forall₂_map_left_iff] at h
  induction h with
  | nil => simp
  | cons hread _ ih => exact List.forall_mem_cons.2 ⟨⟨_, hread⟩, ih⟩

theorem restores_items (h : Restores reader write) :
    Restores (items reader) fun as ↦ .arr (as.map write) where
  read_write hv := by
    obtain ⟨values, rfl, hvalues⟩ := items_eq_ok hv
    refine items_map_iff.2 ?_
    clear hv
    induction hvalues with
    | nil => simp
    | cons hread _ ih => exact List.forall_mem_cons.2 ⟨h.read_write hread, ih⟩
  write_ne_null _ _ := nofun

theorem restores_pair {second : Reader β} {write' : β → Json} (h : Restores reader write)
    (h' : Restores second write') :
    Restores (pair reader second) fun x ↦ .arr [write x.1, write' x.2] where
  read_write hv := by
    obtain ⟨a, b, rfl, ha, hb⟩ := pair_eq_ok hv
    simp only [pair, h.read_write ha, h'.read_write hb]
    rfl
  write_ne_null _ _ := nofun

/-- Fields are read with repeated keys resolved, so that there is nothing left to resolve. -/
theorem restores_fields : Restores fields .obj where
  read_write hv := by
    rename_i v d
    cases v with
    | obj entries =>
      cases hv
      rw [fields, Dict.ofEntries_eq_self (Dict.nodup_keys_ofEntries entries)]
    | null | bool | num | str | arr => cases hv
  write_ne_null _ _ := nofun

/-- A choice is written by name. -/
theorem restores_variant {known : List (String × α)} {nameOf : α → String}
    (h : ∀ a, get? known (nameOf a) = some a) :
    Restores (variant known) fun a ↦ .str (nameOf a) where
  read_write _ := choose_eq_ok.2 (h _)
  write_ne_null _ _ := nofun

/-- Nothing is written as null. -/
theorem restores_optional (h : Restores reader write) :
    Restores (optional reader) (Json.ofOption write) where
  read_write hv := by
    rcases optional_eq_ok hv with ⟨-, rfl⟩ | ⟨hnull, x, hx, rfl⟩
    · rfl
    · rw [Json.ofOption, optional, h.read_write hx]
      · rfl
      · exact h.write_ne_null hx hnull
  write_ne_null hv hnull := by
    rcases optional_eq_ok hv with ⟨rfl, -⟩ | ⟨-, x, hx, rfl⟩
    · exact absurd rfl hnull
    · exact h.write_ne_null hx hnull

theorem Restores.ofOption_eq_null_iff (h : Restores reader write) {v : Json} {a : Option α}
    (ha : optional reader v = .ok a) : Json.ofOption write a = .null ↔ v = .null := by
  constructor
  · intro hnull
    by_contra hv
    exact (restores_optional h).write_ne_null ha hv hnull
  · rintro rfl
    cases ha
    rfl

/-! ## Fields -/

/-- A field that may be left out is read like null when it is. -/
theorem optional_field_eq (d : Dict Json) (name : String) (reader : Reader α) :
    d.optional name reader = optional reader ((get? d name).getD .null) := by
  rw [Dict.optional]
  cases get? d name <;> rfl

/-- A field is read back when it is written where it is looked for. -/
theorem Restores.field (h : Restores reader write) {d e : Dict Json} {name : String} {a : Option α}
    (ha : d.optional name reader = .ok a) (he : get? e name = some (Json.ofOption write a)) :
    e.optional name reader = .ok a := by
  rw [optional_field_eq] at ha ⊢
  rw [he]
  exact (restores_optional h).read_write ha

end Shape

/-! ## Records -/

/-- An object is read as an open record when its fields are as they have to be, and none is
missing. -/
theorem Record.entries_eq_ok {r : Record} (hopen : r.closed = false) {d : Dict Json}
    (hd : (keys d).Nodup)
    (hchecked : ∀ entry ∈ d, ∀ f, r.field? entry.1 = some f → f.check entry.2 = .ok ())
    (hmissing : r.missing? d = none) : r.entries (.obj d) = .ok d := by
  rw [entries, (checkEntries_eq_ok_iff hopen hd (by simp)).2 hchecked, hmissing]
  rfl

end ChartFeed
