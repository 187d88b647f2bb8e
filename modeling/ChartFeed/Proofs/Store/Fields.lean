import ChartFeed.Proofs.Dict.Lookup
import ChartFeed.Store.Database

/-!
# Fields that properties set

A model is changed by a bag of properties, a dictionary of JSON values.  A database shows its fields
as such a dictionary too, and this file says that a bag sets the fields that it names and no others.

* `Model.Accepts` — a bag names properties only, each with a value that it takes; then, and only
  then, can the bag be applied to a model (`accepts_iff`);
* `Database.fields` — the fields of a database by name;
* `Database.Sets` — a property sets the field of its name, `sets_of_mem` says that each does;
* `fields_assign`, `field?_assign` — the fields after a bag was applied.
-/

set_option autoImplicit false

namespace ChartFeed

/-! ## Bags that can be applied -/

namespace Model

variable {α : Type} [Model α]

/-- The bag names properties only, each with a value that it takes. -/
def Accepts (α : Type) [Model α] (bag : Dict Json) : Prop :=
  ∀ entry ∈ bag, ∃ property set,
    Dict.get? (properties : Dict (Property α)) entry.1 = some property ∧
      property entry.2 = .ok set

theorem assign_cons {entry : String × Json} {property : Property α} {set : α → α}
    (hproperty : Dict.get? (properties : Dict (Property α)) entry.1 = some property)
    (hset : property entry.2 = .ok set) (rest : Dict Json) (m : α) :
    assign (entry :: rest) m = assign rest (set m) := by
  rw [assign, hproperty]
  simp only [hset]

/-- A bag that was applied begins with a property that was set. -/
theorem exists_of_assign_cons {entry : String × Json} {rest : Dict Json} {m changed : α}
    (h : assign (entry :: rest) m = .ok changed) :
    ∃ property set, Dict.get? (properties : Dict (Property α)) entry.1 = some property ∧
      property entry.2 = .ok set ∧ assign rest (set m) = .ok changed := by
  rw [assign] at h
  split at h
  · cases h
  · next property hproperty =>
    split at h
    · cases h
    · next set hset => exact ⟨property, set, hproperty, hset, h⟩

/-- Whether a bag can be applied does not depend on the model. -/
theorem accepts_iff {bag : Dict Json} (m : α) :
    Accepts α bag ↔ ∃ changed, assign bag m = .ok changed := by
  induction bag generalizing m with
  | nil => exact ⟨fun _ ↦ ⟨m, rfl⟩, fun _ entry hentry ↦ nomatch hentry⟩
  | cons entry rest ih =>
    rw [Accepts, List.forall_mem_cons]
    constructor
    · rintro ⟨⟨property, set, hproperty, hset⟩, hrest⟩
      rw [assign_cons hproperty hset]
      exact (ih (set m)).1 hrest
    · rintro ⟨changed, h⟩
      obtain ⟨property, set, hproperty, hset, hrest⟩ := exists_of_assign_cons h
      exact ⟨⟨property, set, hproperty, hset⟩, (ih (set m)).2 ⟨changed, hrest⟩⟩

end Model

/-! ## The fields of a database -/

namespace Database

/-- The fields by name, the number among them. -/
def fields (d : Database) : Dict Json :=
  match d.toJson with
  | .obj entries => entries
  | _ => []

/-- The value of a field. -/
def field? (d : Database) (name : String) : Option Json := Dict.get? d.fields name

/-- Setting the property puts the value into the field of its name and leaves the others. -/
def Sets (entry : String × Property Database) : Prop :=
  ∀ v set, entry.2 v = .ok set →
    ∀ d, (set d).fields = Dict.insert d.fields entry.1 v ∧ (set d).id = d.id

section Families

variable {name : String}

theorem sets_text {set : String → Database → Database}
    (h : ∀ s d, (set s d).fields = Dict.insert d.fields name (.str s) ∧ (set s d).id = d.id) :
    Sets (name, .text set) := by
  intro v set' hset
  cases v with
  | str s =>
    cases hset
    exact h s
  | _ => cases hset

theorem sets_boolean {set : Bool → Database → Database}
    (h : ∀ b d, (set b d).fields = Dict.insert d.fields name (.bool b) ∧ (set b d).id = d.id) :
    Sets (name, .boolean set) := by
  intro v set' hset
  cases v with
  | bool b =>
    cases hset
    exact h b
  | _ => cases hset

theorem sets_optionalText {set : Option String → Database → Database}
    (h : ∀ s? d, (set s? d).fields = Dict.insert d.fields name (Json.ofOption .str s?) ∧
      (set s? d).id = d.id) :
    Sets (name, .optionalText set) := by
  intro v set' hset
  cases v with
  | null =>
    cases hset
    exact h none
  | str s =>
    cases hset
    exact h (some s)
  | _ => cases hset

end Families

/-- Every property sets the field of its name, and only that. -/
theorem sets_of_mem : ∀ entry ∈ properties, Sets entry := by
  simp only [properties, List.forall_mem_cons]
  exact ⟨sets_text fun _ _ ↦ ⟨rfl, rfl⟩, sets_text fun _ _ ↦ ⟨rfl, rfl⟩,
    sets_boolean fun _ _ ↦ ⟨rfl, rfl⟩, sets_boolean fun _ _ ↦ ⟨rfl, rfl⟩,
    sets_boolean fun _ _ ↦ ⟨rfl, rfl⟩, sets_boolean fun _ _ ↦ ⟨rfl, rfl⟩,
    sets_boolean fun _ _ ↦ ⟨rfl, rfl⟩, sets_boolean fun _ _ ↦ ⟨rfl, rfl⟩,
    sets_boolean fun _ _ ↦ ⟨rfl, rfl⟩, sets_optionalText fun _ _ ↦ ⟨rfl, rfl⟩, nofun⟩

/-! ## Databases after a bag was applied -/

variable {bag : Dict Json} {d changed : Database}

theorem fields_assign (h : Model.assign bag d = .ok changed) :
    changed.fields = Dict.insertAll d.fields bag ∧ changed.id = d.id := by
  induction bag generalizing d with
  | nil =>
    cases h
    exact ⟨rfl, rfl⟩
  | cons entry rest ih =>
    obtain ⟨property, set, hproperty, hset, hrest⟩ := Model.exists_of_assign_cons h
    have hmem : (entry.1, property) ∈ properties := Dict.mem_of_get? hproperty
    obtain ⟨hfields, hid⟩ := sets_of_mem _ hmem entry.2 set hset d
    obtain ⟨hfields', hid'⟩ := ih hrest
    exact ⟨by rw [hfields', hfields, Dict.insertAll_cons], hid'.trans hid⟩

/-- Applying properties does not change the number. -/
theorem id_assign (h : Model.assign bag d = .ok changed) : changed.id = d.id := (fields_assign h).2

/-- **A bag sets the fields that it names**, to the values it gives, and leaves the others. -/
theorem field?_assign (h : Model.assign bag d = .ok changed) (hbag : (Dict.keys bag).Nodup)
    (name : String) : changed.field? name = (Dict.get? bag name).or (d.field? name) := by
  rw [field?, (fields_assign h).1, Dict.get?_insertAll hbag]
  rfl

end Database

end ChartFeed
