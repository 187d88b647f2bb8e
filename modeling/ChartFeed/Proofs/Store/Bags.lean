import Mathlib.Data.List.Nodup
import ChartFeed.Proofs.Store.Fields
import ChartFeed.Store.Repository

/-!
# Bags of properties are applied field by field

A bag of properties changes a database one property after the other, and the first that does not fit
is the answer.  This file says which bags fit by a table of the fields that may be set.

* `FieldKind`, `Database.settable` — the fields that may be set, with the values that they take;
* `Database.related_settable` — each property takes the values of its field, and turns down others;
* `Database.Admits`, `Database.Refuses` — an entry of a bag fits, or has a fault;
* `Database.assign_eq_error_iff` — the fault of a bag is that of the first entry that has one;
* `Database.assign_exact` — when a bag can be applied, what it changes, in whatever order it is
  written, and what creating and updating make of the fault.
-/

set_option autoImplicit false

namespace ChartFeed

/-! ## Fields and their values -/

/-- What values a field takes. -/
inductive FieldKind where
  | text
  | boolean
  | optionalText
deriving DecidableEq

namespace FieldKind

/-- The value is one for a field of this kind. -/
def Admits : FieldKind → Json → Prop
  | .text, v => ∃ s, v = .str s
  | .boolean, v => ∃ b, v = .bool b
  | .optionalText, v => v = .null ∨ ∃ s, v = .str s

/-- What is wrong with a value that is not. -/
def fault : FieldKind → Json → PropertyFault
  | .text, v | .optionalText, v => .notText v
  | .boolean, v => .notBoolean v

/-- The property takes the values of this kind, and says what is wrong with the others. -/
def Describes {α : Type} (kind : FieldKind) (property : Property α) : Prop :=
  ∀ v, (kind.Admits v ∧ ∃ set, property v = .ok set) ∨
    (¬ kind.Admits v ∧ property v = .error (kind.fault v))

variable {α : Type}

theorem describes_text (set : String → α → α) : text.Describes (.text set) := by
  intro v
  cases v with
  | str s => exact .inl ⟨⟨s, rfl⟩, set s, rfl⟩
  | _ => exact .inr ⟨nofun, rfl⟩

theorem describes_boolean (set : Bool → α → α) : boolean.Describes (.boolean set) := by
  intro v
  cases v with
  | bool b => exact .inl ⟨⟨b, rfl⟩, set b, rfl⟩
  | _ => exact .inr ⟨nofun, rfl⟩

theorem describes_optionalText (set : Option String → α → α) :
    optionalText.Describes (.optionalText set) := by
  intro v
  cases v with
  | null => exact .inl ⟨.inl rfl, set none, rfl⟩
  | str s => exact .inl ⟨.inr ⟨s, rfl⟩, set (some s), rfl⟩
  | _ => exact .inr ⟨by simp [Admits], rfl⟩

end FieldKind

namespace Database

open FieldKind

/-- The fields that properties may set, with the values that they take. -/
def settable : List (String × FieldKind) := [
  ("database_name", .text),
  ("sqlalchemy_uri", .text),
  ("expose_in_sqllab", .boolean),
  ("allow_ctas", .boolean),
  ("allow_cvas", .boolean),
  ("allow_dml", .boolean),
  ("allow_run_async", .boolean),
  ("allow_csv_upload", .boolean),
  ("allow_multi_schema_metadata_fetch", .boolean),
  ("force_ctas_schema", .optionalText)]

/-- **Each field that may be set has a property** for its values, and there are no others. -/
theorem related_settable :
    Dict.Related Describes settable (properties : Dict (Property Database)) :=
  .cons _ (describes_text _) <| .cons _ (describes_text _) <| .cons _ (describes_boolean _) <|
    .cons _ (describes_boolean _) <| .cons _ (describes_boolean _) <|
    .cons _ (describes_boolean _) <| .cons _ (describes_boolean _) <|
    .cons _ (describes_boolean _) <| .cons _ (describes_boolean _) <|
    .cons _ (describes_optionalText _) fun _ ↦ .inl ⟨rfl, rfl⟩

/-! ## Entries of a bag -/

/-- The entry is a field that may be set, with a value that it takes. -/
def Admits (entry : String × Json) : Prop :=
  ∃ kind, Dict.get? settable entry.1 = some kind ∧ kind.Admits entry.2

/-- The entry has this fault. -/
inductive Refuses : String × Json → StoreFault → Prop
  | unknown {field : String} {v : Json} (h : Dict.get? settable field = none) :
      Refuses (field, v) (.unknownProperty "database" field)
  | illTyped {field : String} {v : Json} {kind : FieldKind}
      (h : Dict.get? settable field = some kind) (hv : ¬ kind.Admits v) :
      Refuses (field, v) (.invalidProperty "database" field (kind.fault v))

variable {entry : String × Json} {fault : StoreFault} {bag : Dict Json} {d changed : Database}

/-- An entry that fits sets a property. -/
theorem admits_iff : Admits entry ↔ ∃ property set,
    Dict.get? (properties : Dict (Property Database)) entry.1 = some property ∧
      property entry.2 = .ok set := by
  rcases related_settable entry.1 with ⟨hkind, hproperty⟩ | ⟨kind, property, hkind, hproperty, h⟩
  · simp [Admits, hkind, hproperty]
  · rcases h entry.2 with ⟨hadmits, set, hset⟩ | ⟨hnot, hfault⟩
    · simp [Admits, hkind, hproperty, hadmits, hset]
    · simp [Admits, hkind, hproperty, hnot, hfault]

theorem admits_or_refuses (entry : String × Json) :
    Admits entry ∨ ∃ fault, Refuses entry fault := by
  cases hkind : Dict.get? settable entry.1 with
  | none => exact .inr ⟨_, .unknown hkind⟩
  | some kind =>
    by_cases hv : kind.Admits entry.2
    · exact .inl ⟨kind, hkind, hv⟩
    · exact .inr ⟨_, .illTyped hkind hv⟩

/-- A bag that begins with an entry that does not fit has the fault of this entry. -/
theorem Refuses.assign_cons (h : Refuses entry fault) (rest : Dict Json) (d : Database) :
    Model.assign (entry :: rest) d = .error fault := by
  cases h with
  | @unknown field v hkind =>
    rcases related_settable field with ⟨-, hproperty⟩ | ⟨kind, _, hkind', -⟩
    · have hnone : Dict.get? (Model.properties : Dict (Property Database)) field = none := hproperty
      rw [Model.assign, hnone]
      rfl
    · cases hkind.symm.trans hkind'
  | @illTyped field v kind hkind hv =>
    rcases related_settable field with ⟨hnone, -⟩ | ⟨kind', property, hkind', hproperty, h⟩
    · cases hkind.symm.trans hnone
    · cases hkind.symm.trans hkind'
      have hsome : Dict.get? (Model.properties : Dict (Property Database)) field = some property :=
        hproperty
      rcases h v with ⟨hadmits, -⟩ | ⟨-, hfault⟩
      · exact absurd hadmits hv
      · rw [Model.assign, hsome]
        simp only [hfault]
        rfl

/-! ## Bags -/

/-- The first entry of the bag that does not fit has this fault. -/
inductive FirstRefused : Dict Json → StoreFault → Prop
  | here {entry : String × Json} {fault : StoreFault} (h : Refuses entry fault)
      (rest : Dict Json) : FirstRefused (entry :: rest) fault
  | later {entry : String × Json} {rest : Dict Json} {fault : StoreFault} (hentry : Admits entry)
      (h : FirstRefused rest fault) : FirstRefused (entry :: rest) fault

theorem accepts_iff_forall_admits : Model.Accepts Database bag ↔ ∀ entry ∈ bag, Admits entry :=
  forall₂_congr fun _ _ ↦ admits_iff.symm

/-- **The fault of a bag** is that of the first entry that has one. -/
theorem assign_eq_error_iff : Model.assign bag d = .error fault ↔ FirstRefused bag fault := by
  constructor
  · intro h
    induction bag generalizing d with
    | nil => cases h
    | cons entry rest ih =>
      rcases admits_or_refuses entry with hentry | ⟨fault', hrefuses⟩
      · obtain ⟨property, set, hproperty, hset⟩ := admits_iff.1 hentry
        rw [Model.assign_cons hproperty hset] at h
        exact .later hentry (ih h)
      · cases (hrefuses.assign_cons rest d).symm.trans h
        exact .here hrefuses rest
  · intro h
    induction h generalizing d with
    | here h rest => exact h.assign_cons rest d
    | later hentry _ ih =>
      obtain ⟨property, set, hproperty, hset⟩ := admits_iff.1 hentry
      rw [Model.assign_cons hproperty hset]
      exact ih

/-! ## The same bag in another order -/

theorem fields_injective {d e : Database} (h : d.fields = e.fields) : d = e := by
  obtain ⟨id, name, uri, exposed, tables, views, writes, async, uploads, metadata, schema⟩ := d
  simp only [fields, toJson, List.cons.injEq, Prod.mk.injEq, Json.str.injEq, Json.bool.injEq,
    true_and, and_true] at h
  obtain ⟨hid, rfl, rfl, rfl, rfl, rfl, rfl, rfl, rfl, rfl, hschema⟩ := h
  have hint (m n : Int) (hmn : Json.int m = Json.int n) : m = n :=
    Number.int.inj (Json.num.inj hmn)
  cases Json.eq_of_ofOption_eq hint (fun _ ↦ by simp [Json.int]) hid
  cases Json.eq_of_ofOption_eq (fun _ _ ↦ Json.str.inj) (fun _ ↦ by simp) hschema
  rfl

theorem keys_fields (d e : Database) : Dict.keys d.fields = Dict.keys e.fields := rfl

theorem nodup_keys_fields (d : Database) : (Dict.keys d.fields).Nodup := by
  rw [d.keys_fields default]
  decide

/-- A database is known by its fields. -/
theorem eq_of_field? {d e : Database} (h : ∀ name, d.field? name = e.field? name) : d = e :=
  fields_injective <|
    Dict.eq_of_keys_of_get? d.nodup_keys_fields (d.keys_fields e) fun name _ ↦ h name

/-- **The order of a bag does not matter** when it can be applied. -/
theorem assign_perm {other : Dict Json} (hbag : (Dict.keys bag).Nodup)
    (h : Model.assign bag d = .ok changed) (hperm : bag.Perm other) :
    Model.assign other d = .ok changed := by
  have hadmits := accepts_iff_forall_admits.1 ((Model.accepts_iff d).2 ⟨changed, h⟩)
  obtain ⟨changed', h'⟩ := (Model.accepts_iff d).1 <|
    accepts_iff_forall_admits.2 fun entry hentry ↦ hadmits entry (hperm.mem_iff.2 hentry)
  have hother : (Dict.keys other).Nodup := (hperm.map Prod.fst).nodup_iff.1 hbag
  rw [h', eq_of_field? (d := changed') (e := changed) fun name ↦ by
    rw [field?_assign h' hother, field?_assign h hbag, Dict.get?_perm hbag hperm]]

/-! ## Creating and updating -/

theorem update_of_assign_error {m : Database} (h : Model.assign bag m = .error fault)
    (commit : Bool) (s : Store Database) :
    Repository.update m bag commit s = (.error (.updateFailed fault), s.rollback) := by
  rw [Repository.update, h]

theorem create_of_assign_error (h : Model.assign bag (Model.blank : Database) = .error fault)
    (r : Repository Database) (commit : Bool) (s : Store Database) :
    r.create bag commit s =
      if r.configured then (.error (.createFailed fault), s.rollback)
      else (.error .unconfigured, s) := by
  rw [Repository.create, h]

/-- **A bag is applied field by field.**  It can be applied exactly when all its entries are fields
that may be set with values that they take.  Then these fields have these values and the others
what they had, and the order of the bag does not matter.  Otherwise the answer is the fault of the
first entry that has one, and creating or updating a database reports it and stores nothing. -/
theorem assign_exact (hbag : (Dict.keys bag).Nodup) (d : Database) :
    ((∃ changed, Model.assign bag d = .ok changed) ↔ ∀ entry ∈ bag, Admits entry) ∧
      (∀ changed, Model.assign bag d = .ok changed →
        (∀ name, changed.field? name = (Dict.get? bag name).or (d.field? name)) ∧
          changed.id = d.id ∧ ∀ other, bag.Perm other → Model.assign other d = .ok changed) ∧
      (∀ fault, Model.assign bag d = .error fault ↔ FirstRefused bag fault) ∧
      ∀ fault, FirstRefused bag fault → ∀ (commit : Bool) (s : Store Database),
        Repository.update d bag commit s = (.error (.updateFailed fault), s.rollback) ∧
          ∀ r : Repository Database, r.create bag commit s =
            if r.configured then (.error (.createFailed fault), s.rollback)
            else (.error .unconfigured, s) := by
  refine ⟨(Model.accepts_iff d).symm.trans accepts_iff_forall_admits, fun changed h ↦ ?_,
    fun fault ↦ assign_eq_error_iff, fun fault h commit s ↦ ?_⟩
  · exact ⟨field?_assign h hbag, id_assign h, fun other ↦ assign_perm hbag h⟩
  · exact ⟨update_of_assign_error (assign_eq_error_iff.2 h) commit s,
      fun r ↦ create_of_assign_error (assign_eq_error_iff.2 h) r commit s⟩

/-- A database with a schema for new tables. -/
def withSchema : Database := { id := some 7, name := "sales", schemaForTables := some "tmp" }

/-- A bag that renames it, lets users write and drops the schema. -/
def toStock : Dict Json :=
  [("force_ctas_schema", .null), ("allow_dml", .bool true), ("database_name", .str "stock")]

/-- A bag with a value of the wrong kind before an unknown field. -/
def misfitting : Dict Json :=
  [("allow_dml", .bool true), ("allow_ctas", .str "yes"), ("password", .str "x")]

theorem withSchema_assign_exact :
    ((Dict.keys toStock).Nodup ∧ (Dict.keys misfitting).Nodup) ∧
      Model.assign toStock withSchema = .ok { id := some 7, name := "stock", allowWrites := true } ∧
      toStock.Perm toStock.reverse ∧
      Model.assign toStock.reverse withSchema =
        .ok { id := some 7, name := "stock", allowWrites := true } ∧
      FirstRefused misfitting
        (.invalidProperty "database" "allow_ctas" (.notBoolean (.str "yes"))) ∧
      Repository.update withSchema misfitting true Store.empty =
        (.error (.updateFailed
          (.invalidProperty "database" "allow_ctas" (.notBoolean (.str "yes")))),
          (Store.empty : Store Database).rollback) := by
  have htoStock : (Dict.keys toStock).Nodup := by decide
  have hmisfitting : (Dict.keys misfitting).Nodup := by decide
  have hassign : Model.assign toStock withSchema =
      .ok { id := some 7, name := "stock", allowWrites := true } := by decide +kernel
  obtain ⟨-, happlied, -, -⟩ := assign_exact htoStock withSchema
  obtain ⟨-, -, hfault, hreports⟩ := assign_exact hmisfitting withSchema
  have hperm : toStock.Perm toStock.reverse := (List.reverse_perm _).symm
  have hfirst : FirstRefused misfitting
      (.invalidProperty "database" "allow_ctas" (.notBoolean (.str "yes"))) :=
    (hfault _).1 (by decide +kernel)
  exact ⟨⟨htoStock, hmisfitting⟩, hassign, hperm, (happlied _ hassign).2.2 _ hperm, hfirst,
    (hreports _ hfirst true Store.empty).1⟩

end Database

end ChartFeed
