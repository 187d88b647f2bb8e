import ChartFeed.Dict

/-!
# JSON values

* `Number` keeps integers and floating point numbers apart, since they print differently;
* `Json` is a JSON value; an object is a list of fields in order, as it was written;
* `Json.WellFormed` says that no object repeats a key and that every number is one that JSON text
  can hold, which is what reading produces;
* `Json.merged` resolves repeated keys: the first position and the last value count;
* `Json.truthy` is the reading of a value as a condition.
-/

set_option autoImplicit false

namespace ChartFeed

/-- The least signed 64-bit integer. -/
def int64Min : Int := -0x8000000000000000

/-- The greatest signed 64-bit integer. -/
def int64Max : Int := 0x7fffffffffffffff

/-- The greatest unsigned 64-bit integer. -/
def uint64Max : Nat := 0xffffffffffffffff

/-- Whether an integer fits 64 bits with a sign. -/
def fitsInt64 (n : Int) : Bool := decide (int64Min ≤ n) && decide (n ≤ int64Max)

theorem fitsInt64_iff {n : Int} : fitsInt64 n = true ↔ int64Min ≤ n ∧ n ≤ int64Max := by
  rw [fitsInt64, Bool.and_eq_true_iff, decide_eq_true_iff, decide_eq_true_iff]

/-- A JSON number: an integer, or a finite double. -/
inductive Number where
  /-- An integer between the least signed and the greatest unsigned 64-bit integer. -/
  | int (n : Int)
  /-- A finite double. -/
  | float (x : Float)
deriving DecidableEq

/-- The nearest double. -/
def Number.toFloat : Number → Float
  | .int n => Float.ofInt n
  | .float x => x

/-- What JSON text can hold. -/
def Number.Representable : Number → Prop
  | .int n => int64Min ≤ n ∧ n ≤ uint64Max
  | .float x => x.isFinite = true

/-- A JSON value. -/
inductive Json where
  | null
  | bool (b : Bool)
  | num (n : Number)
  | str (s : String)
  | arr (items : List Json)
  | obj (fields : List (String × Json))

namespace Json

instance : Inhabited Json := ⟨.null⟩

/-- An integer. -/
def int (n : Int) : Json := .num (.int n)

/-- A natural number. -/
def nat (n : Nat) : Json := .num (.int n)

/-- A double; a value that JSON has no number for becomes null. -/
def ofFloat (x : Float) : Json := if x.isFinite then .num (.float x) else .null

/-- A text, or null when there is none. -/
def ofOption {α : Type} (f : α → Json) : Option α → Json
  | none => .null
  | some a => f a

/-- What is there can be told when nothing is written as null. -/
theorem eq_of_ofOption_eq {α : Type} {f : α → Json} (hf : ∀ a b, f a = f b → a = b)
    (hnull : ∀ a, f a ≠ .null) {a b : Option α} (h : ofOption f a = ofOption f b) : a = b := by
  cases a with
  | none =>
    cases b with
    | none => rfl
    | some b => exact absurd h.symm (hnull b)
  | some a =>
    cases b with
    | none => exact absurd h (hnull a)
    | some b => exact congrArg some (hf a b h)

/-! ## Equality -/

mutual

/-- Equality of values is decidable. -/
def decEq : (v w : Json) → Decidable (v = w)
  | .null, .null => .isTrue rfl
  | .bool a, .bool b =>
    if h : a = b then .isTrue (h ▸ rfl) else .isFalse fun e ↦ h (by cases e; rfl)
  | .num a, .num b => if h : a = b then .isTrue (h ▸ rfl) else .isFalse fun e ↦ h (by cases e; rfl)
  | .str a, .str b => if h : a = b then .isTrue (h ▸ rfl) else .isFalse fun e ↦ h (by cases e; rfl)
  | .arr a, .arr b =>
    match decEqItems a b with
    | .isTrue h => .isTrue (h ▸ rfl)
    | .isFalse h => .isFalse fun e ↦ h (by cases e; rfl)
  | .obj a, .obj b =>
    match decEqFields a b with
    | .isTrue h => .isTrue (h ▸ rfl)
    | .isFalse h => .isFalse fun e ↦ h (by cases e; rfl)
  | .null, .bool _ | .null, .num _ | .null, .str _ | .null, .arr _ | .null, .obj _ => .isFalse nofun
  | .bool _, .null | .bool _, .num _ | .bool _, .str _ | .bool _, .arr _ | .bool _, .obj _ =>
    .isFalse nofun
  | .num _, .null | .num _, .bool _ | .num _, .str _ | .num _, .arr _ | .num _, .obj _ =>
    .isFalse nofun
  | .str _, .null | .str _, .bool _ | .str _, .num _ | .str _, .arr _ | .str _, .obj _ =>
    .isFalse nofun
  | .arr _, .null | .arr _, .bool _ | .arr _, .num _ | .arr _, .str _ | .arr _, .obj _ =>
    .isFalse nofun
  | .obj _, .null | .obj _, .bool _ | .obj _, .num _ | .obj _, .str _ | .obj _, .arr _ =>
    .isFalse nofun

/-- Equality of lists of values is decidable. -/
def decEqItems : (v w : List Json) → Decidable (v = w)
  | [], [] => .isTrue rfl
  | [], _ :: _ => .isFalse nofun
  | _ :: _, [] => .isFalse nofun
  | a :: as, b :: bs =>
    match decEq a b with
    | .isFalse h => .isFalse fun e ↦ h (by cases e; rfl)
    | .isTrue h =>
      match decEqItems as bs with
      | .isTrue hs => .isTrue (h ▸ hs ▸ rfl)
      | .isFalse hs => .isFalse fun e ↦ hs (by cases e; rfl)

/-- Equality of lists of fields is decidable. -/
def decEqFields : (v w : List (String × Json)) → Decidable (v = w)
  | [], [] => .isTrue rfl
  | [], _ :: _ => .isFalse nofun
  | _ :: _, [] => .isFalse nofun
  | (k, a) :: as, (l, b) :: bs =>
    if hk : k = l then
      match decEq a b with
      | .isFalse h => .isFalse fun e ↦ h (by cases e; rfl)
      | .isTrue h =>
        match decEqFields as bs with
        | .isTrue hs => .isTrue (hk ▸ h ▸ hs ▸ rfl)
        | .isFalse hs => .isFalse fun e ↦ hs (by cases e; rfl)
    else .isFalse fun e ↦ hk (by cases e; rfl)

end

instance : DecidableEq Json := decEq

/-! ## Values that text can hold -/

mutual

/-- No object repeats a key, and every number is representable. -/
def WellFormed : Json → Prop
  | .null | .bool _ | .str _ => True
  | .num n => n.Representable
  | .arr items => WellFormedItems items
  | .obj fields => (Dict.keys fields).Nodup ∧ WellFormedFields fields

/-- Every value of the list is well formed. -/
def WellFormedItems : List Json → Prop
  | [] => True
  | v :: rest => WellFormed v ∧ WellFormedItems rest

/-- Every value of the fields is well formed. -/
def WellFormedFields : List (String × Json) → Prop
  | [] => True
  | (_, v) :: rest => WellFormed v ∧ WellFormedFields rest

end

mutual

/-- Resolves repeated keys at every level: the first position and the last value count. -/
def merged : Json → Json
  | .arr items => .arr (mergedItems items)
  | .obj fields => .obj (Dict.ofEntries (mergedFields fields))
  | .null => .null
  | .bool b => .bool b
  | .num n => .num n
  | .str s => .str s

/-- Resolves repeated keys inside the items. -/
def mergedItems : List Json → List Json
  | [] => []
  | v :: rest => merged v :: mergedItems rest

/-- Resolves repeated keys inside the values of the fields. -/
def mergedFields : List (String × Json) → List (String × Json)
  | [] => []
  | (k, v) :: rest => (k, merged v) :: mergedFields rest

end

/-! ## Views -/

/-- The text of a string. -/
def asString? : Json → Option String
  | .str s => some s
  | _ => none

/-- The truth value of a boolean. -/
def asBool? : Json → Option Bool
  | .bool b => some b
  | _ => none

/-- The nearest double of a number. -/
def asFloat? : Json → Option Float
  | .num n => some n.toFloat
  | _ => none

/-- The integer of a number that is an integer and fits 64 bits with a sign. -/
def asInt64? : Json → Option Int
  | .num (.int n) => if fitsInt64 n then some n else none
  | _ => none

/-- The fields of an object. -/
def asFields? : Json → Option (Dict Json)
  | .obj fields => some fields
  | _ => none

/-- The items of an array. -/
def asItems? : Json → Option (List Json)
  | .arr items => some items
  | _ => none

/-- The value under a key of an object. -/
def get? (v : Json) (key : String) : Option Json :=
  match v with
  | .obj fields => Dict.get? fields key
  | _ => none

/-- Null, false, zero and whatever is empty are not truthy. -/
def truthy : Json → Bool
  | .null => false
  | .bool b => b
  | .num n => n.toFloat != 0.0
  | .str s => s != ""
  | .arr items => !items.isEmpty
  | .obj fields => !fields.isEmpty

end Json

end ChartFeed
