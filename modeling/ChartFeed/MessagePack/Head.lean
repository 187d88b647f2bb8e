/-!
# Heads of MessagePack values

In MessagePack a value begins with a byte that tells its kind and, when it is small, its size or the
value itself.  A `Head` is what stands before the parts of a value.

* `Head.write` takes the shortest form there is for a head;
* `Head.read` reads a head in any of its forms, and leaves the rest of the bytes;
* `bigEndian` and `ofBigEndian` are the numbers of a fixed width.
-/

set_option autoImplicit false

namespace ChartFeed.MessagePack

/-- A sequence of bytes. -/
abbrev Bytes := List UInt8

/-! ## Numbers of a fixed width -/

/-- The last `width` bytes of a number, the highest first. -/
def bigEndian : Nat → Nat → Bytes
  | 0, _ => []
  | width + 1, n => UInt8.ofNat (n / Nat.pow 256 width) :: bigEndian width n

/-- The number that bytes spell, the highest first. -/
def ofBigEndian (bytes : Bytes) : Nat := bytes.foldl (fun n b ↦ n * 256 + b.toNat) 0

/-- The number with a sign that `width` bytes stand for. -/
def signed (width n : Nat) : Int :=
  if n < Nat.pow 2 (8 * width - 1) then n else (n : Int) - Nat.pow 2 (8 * width)

/-- The bytes of a number with a sign. -/
def bigEndianInt (width : Nat) (n : Int) : Bytes :=
  bigEndian width (n % (Nat.pow 2 (8 * width) : Nat)).toNat

/-- The first `count` bytes and the others. -/
def takeBytes (count : Nat) (bytes : Bytes) : Option (Bytes × Bytes) :=
  match count, bytes with
  | 0, bytes => some ([], bytes)
  | _ + 1, [] => none
  | count + 1, b :: bytes => (takeBytes count bytes).map fun (taken, rest) ↦ (b :: taken, rest)

/-- A number of `width` bytes. -/
def takeNat (width : Nat) (bytes : Bytes) : Option (Nat × Bytes) :=
  (takeBytes width bytes).map fun (taken, rest) ↦ (ofBigEndian taken, rest)

/-! ## Heads -/

/-- What stands before the parts of a value. -/
inductive Head where
  | nil
  | bool (b : Bool)
  | int (n : Int)
  | float (x : Float)
  /-- A text of so many bytes. -/
  | text (size : Nat)
  /-- So many bytes. -/
  | binary (size : Nat)
  /-- So many values. -/
  | list (count : Nat)
  /-- So many keys with values. -/
  | map (count : Nat)
  /-- A byte for the kind of an extension and so many bytes. -/
  | extension (size : Nat)
deriving DecidableEq

namespace Head

/-- The shortest form of an integer. -/
def writeInt (n : Int) : Bytes :=
  if 0 ≤ n then
    if n < 0x80 then bigEndianInt 1 n
    else if n < 0x100 then 0xcc :: bigEndianInt 1 n
    else if n < 0x10000 then 0xcd :: bigEndianInt 2 n
    else if n < 0x100000000 then 0xce :: bigEndianInt 4 n
    else 0xcf :: bigEndianInt 8 n
  else if -0x20 ≤ n then bigEndianInt 1 n
  else if -0x80 ≤ n then 0xd0 :: bigEndianInt 1 n
  else if -0x8000 ≤ n then 0xd1 :: bigEndianInt 2 n
  else if -0x80000000 ≤ n then 0xd2 :: bigEndianInt 4 n
  else 0xd3 :: bigEndianInt 8 n

/-- The shortest form of a size, behind the first of the bytes for two and for four. -/
def writeLong (tag2 tag4 : UInt8) (size : Nat) : Bytes :=
  if size < 0x10000 then tag2 :: bigEndian 2 size else tag4 :: bigEndian 4 size

/-- The shortest form of a head. -/
def write : Head → Bytes
  | nil => [0xc0]
  | bool b => [if b then 0xc3 else 0xc2]
  | int n => writeInt n
  | float x => 0xcb :: bigEndian 8 x.toBits.toNat
  | text size =>
    if size < 32 then bigEndian 1 (0xa0 + size)
    else if size < 0x100 then 0xd9 :: bigEndian 1 size
    else writeLong 0xda 0xdb size
  | binary size => if size < 0x100 then 0xc4 :: bigEndian 1 size else writeLong 0xc5 0xc6 size
  | list count => if count < 16 then bigEndian 1 (0x90 + count) else writeLong 0xdc 0xdd count
  | map count => if count < 16 then bigEndian 1 (0x80 + count) else writeLong 0xde 0xdf count
  | extension size => if size < 0x100 then 0xc7 :: bigEndian 1 size else writeLong 0xc8 0xc9 size

/-- How a head goes on after its first byte: nothing more, or a number of some width. -/
inductive Form where
  | complete (head : Head)
  | numbered (width : Nat) (head : Nat → Head)

/-- The form that a first byte from 192 on announces; one byte of them stands for nothing. -/
def longForm : Nat → Option Form
  | 0xc0 => some (.complete nil)
  | 0xc2 => some (.complete (bool false))
  | 0xc3 => some (.complete (bool true))
  | 0xc4 => some (.numbered 1 binary)
  | 0xc5 => some (.numbered 2 binary)
  | 0xc6 => some (.numbered 4 binary)
  | 0xc7 => some (.numbered 1 extension)
  | 0xc8 => some (.numbered 2 extension)
  | 0xc9 => some (.numbered 4 extension)
  | 0xca => some (.numbered 4 fun n ↦ float (Float32.ofBits n.toUInt32).toFloat)
  | 0xcb => some (.numbered 8 fun n ↦ float (Float.ofBits n.toUInt64))
  | 0xcc => some (.numbered 1 fun n ↦ int n)
  | 0xcd => some (.numbered 2 fun n ↦ int n)
  | 0xce => some (.numbered 4 fun n ↦ int n)
  | 0xcf => some (.numbered 8 fun n ↦ int n)
  | 0xd0 => some (.numbered 1 fun n ↦ int (signed 1 n))
  | 0xd1 => some (.numbered 2 fun n ↦ int (signed 2 n))
  | 0xd2 => some (.numbered 4 fun n ↦ int (signed 4 n))
  | 0xd3 => some (.numbered 8 fun n ↦ int (signed 8 n))
  | 0xd4 => some (.complete (extension 1))
  | 0xd5 => some (.complete (extension 2))
  | 0xd6 => some (.complete (extension 4))
  | 0xd7 => some (.complete (extension 8))
  | 0xd8 => some (.complete (extension 16))
  | 0xd9 => some (.numbered 1 text)
  | 0xda => some (.numbered 2 text)
  | 0xdb => some (.numbered 4 text)
  | 0xdc => some (.numbered 2 list)
  | 0xdd => some (.numbered 4 list)
  | 0xde => some (.numbered 2 map)
  | 0xdf => some (.numbered 4 map)
  | _ => none

/-- The form that a first byte announces. -/
def form (tag : Nat) : Option Form :=
  if tag < 0x80 then some (.complete (int tag))
  else if tag < 0x90 then some (.complete (map (tag - 0x80)))
  else if tag < 0xa0 then some (.complete (list (tag - 0x90)))
  else if tag < 0xc0 then some (.complete (text (tag - 0xa0)))
  else if tag < 0xe0 then longForm tag
  else some (.complete (int (signed 1 tag)))

/-- Reads a head. -/
def read : Bytes → Option (Head × Bytes)
  | [] => none
  | tag :: bytes =>
    match form tag.toNat with
    | none => none
    | some (.complete head) => some (head, bytes)
    | some (.numbered width head) => (takeNat width bytes).map fun (n, rest) ↦ (head n, rest)

end Head

end ChartFeed.MessagePack
