import ChartFeed.MessagePack.Head

/-!
# MessagePack values

* `Packed` is a value of the format;
* `Packed.write` writes a value with the shortest heads;
* `Packed.read` reads a value whose containers nest at most so deep, and leaves the other bytes;
  `Packed.ofBytes` reads the value that bytes begin with.

A text whose bytes are not UTF-8 is read as bytes.
-/

set_option autoImplicit false

namespace ChartFeed

open MessagePack

/-- A value of the format. -/
inductive Packed where
  | nil
  | bool (b : Bool)
  | int (n : Int)
  | float (x : Float)
  | text (s : String)
  | binary (bytes : Bytes)
  | list (items : List Packed)
  | map (entries : List (Packed × Packed))
  /-- The byte for its kind and the bytes of an extension. -/
  | extension (bytes : Bytes)

namespace Packed

instance : Inhabited Packed := ⟨.nil⟩

/-- The bytes of a text. -/
def utf8 (s : String) : Bytes := s.toUTF8.data.toList

/-- The text that bytes encode. -/
def ofUtf8? (bytes : Bytes) : Option String := String.fromUTF8? ⟨bytes.toArray⟩

/-! ## Writing -/

mutual

/-- Writes a value. -/
def write : Packed → Bytes
  | .nil => Head.nil.write
  | .bool b => (Head.bool b).write
  | .int n => (Head.int n).write
  | .float x => (Head.float x).write
  | .text s => (Head.text (utf8 s).length).write ++ utf8 s
  | .binary bytes => (Head.binary bytes.length).write ++ bytes
  | .list items => (Head.list items.length).write ++ writeItems items
  | .map entries => (Head.map entries.length).write ++ writeEntries entries
  | .extension bytes => (Head.extension (bytes.length - 1)).write ++ bytes

/-- Writes values one after the other. -/
def writeItems : List Packed → Bytes
  | [] => []
  | v :: rest => write v ++ writeItems rest

/-- Writes keys with their values one after the other. -/
def writeEntries : List (Packed × Packed) → Bytes
  | [] => []
  | (key, v) :: rest => write key ++ write v ++ writeEntries rest

end

/-! ## Reading -/

/-- How deep the containers of a value may nest. -/
def depthLimit : Nat := 1023

section

variable {α : Type}

/-- Reads so many values one after the other. -/
def repeated (read : Bytes → Option (α × Bytes)) : Nat → Bytes → Option (List α × Bytes)
  | 0, bytes => some ([], bytes)
  | count + 1, bytes =>
    match read bytes with
    | none => none
    | some (a, bytes) => (repeated read count bytes).map fun (as, rest) ↦ (a :: as, rest)

/-- Reads two values. -/
def paired (read : Bytes → Option (α × Bytes)) (bytes : Bytes) : Option ((α × α) × Bytes) :=
  match read bytes with
  | none => none
  | some (a, bytes) => (read bytes).map fun (b, rest) ↦ ((a, b), rest)

end

/-- The text that bytes encode, or else the bytes. -/
def ofTextBytes (bytes : Bytes) : Packed :=
  match ofUtf8? bytes with
  | some s => .text s
  | none => .binary bytes

/-- Reads a value whose containers nest at most `depth` deep. -/
def read (depth : Nat) (bytes : Bytes) : Option (Packed × Bytes) :=
  match Head.read bytes with
  | none => none
  | some (head, bytes) =>
    match head, depth with
    | .nil, _ => some (.nil, bytes)
    | .bool b, _ => some (.bool b, bytes)
    | .int n, _ => some (.int n, bytes)
    | .float x, _ => some (.float x, bytes)
    | .text size, _ => (takeBytes size bytes).map fun (taken, rest) ↦ (ofTextBytes taken, rest)
    | .binary size, _ => (takeBytes size bytes).map fun (taken, rest) ↦ (.binary taken, rest)
    | .list count, depth + 1 =>
      (repeated (read depth) count bytes).map fun (items, rest) ↦ (.list items, rest)
    | .map count, depth + 1 =>
      (repeated (paired (read depth)) count bytes).map fun (entries, rest) ↦ (.map entries, rest)
    | .extension size, _ + 1 =>
      (takeBytes (size + 1) bytes).map fun (taken, rest) ↦ (.extension taken, rest)
    | _, 0 => none

/-- The value that bytes begin with; what follows does not matter. -/
def ofBytes (bytes : Bytes) : Option Packed := (read depthLimit bytes).map Prod.fst

end Packed

end ChartFeed
