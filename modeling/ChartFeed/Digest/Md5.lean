/-!
# The MD5 digest

* `Md5.pad` brings a message to a multiple of 64 bytes: one bit, zeros, and the length in bits;
* `Md5.compress` takes one block of sixteen words into the chaining state by 64 rounds;
* `Md5.hex` is the digest of a text's bytes in 32 hexadecimal digits.

Words have 32 bits and their arithmetic wraps; they are read and written least byte first.
-/

set_option autoImplicit false

namespace ChartFeed.Md5

/-- The four words that are carried from block to block. -/
structure Chain where
  a : UInt32
  b : UInt32
  c : UInt32
  d : UInt32
deriving DecidableEq

/-- The state before the first block. -/
def Chain.initial : Chain := ⟨0x67452301, 0xefcdab89, 0x98badcfe, 0x10325476⟩

/-- The constants of the 64 rounds, the integer parts of `2 ^ 32 * |sin (i + 1)|`. -/
def sines : List UInt32 := [
  0xd76aa478, 0xe8c7b756, 0x242070db, 0xc1bdceee, 0xf57c0faf, 0x4787c62a, 0xa8304613, 0xfd469501,
  0x698098d8, 0x8b44f7af, 0xffff5bb1, 0x895cd7be, 0x6b901122, 0xfd987193, 0xa679438e, 0x49b40821,
  0xf61e2562, 0xc040b340, 0x265e5a51, 0xe9b6c7aa, 0xd62f105d, 0x02441453, 0xd8a1e681, 0xe7d3fbc8,
  0x21e1cde6, 0xc33707d6, 0xf4d50d87, 0x455a14ed, 0xa9e3e905, 0xfcefa3f8, 0x676f02d9, 0x8d2a4c8a,
  0xfffa3942, 0x8771f681, 0x6d9d6122, 0xfde5380c, 0xa4beea44, 0x4bdecfa9, 0xf6bb4b60, 0xbebfbc70,
  0x289b7ec6, 0xeaa127fa, 0xd4ef3085, 0x04881d05, 0xd9d4d039, 0xe6db99e5, 0x1fa27cf8, 0xc4ac5665,
  0xf4292244, 0x432aff97, 0xab9423a7, 0xfc93a039, 0x655b59c3, 0x8f0ccc92, 0xffeff47d, 0x85845dd1,
  0x6fa87e4f, 0xfe2ce6e0, 0xa3014314, 0x4e0811a1, 0xf7537e82, 0xbd3af235, 0x2ad7d2bb, 0xeb86d391]

/-- The rotation of a round: four amounts in turn, by the quarter of the rounds. -/
def rotation (round : Nat) : UInt32 :=
  let amounts : List UInt32 := match round / 16 with
    | 0 => [7, 12, 17, 22]
    | 1 => [5, 9, 14, 20]
    | 2 => [4, 11, 16, 23]
    | _ => [6, 10, 15, 21]
  amounts.getD (round % 4) 0

/-- The mixing function of a round, and which word of the block it takes. -/
def mix (round : Nat) (s : Chain) : UInt32 × Nat :=
  match round / 16 with
  | 0 => ((s.b &&& s.c) ||| (~~~s.b &&& s.d), round)
  | 1 => ((s.d &&& s.b) ||| (~~~s.d &&& s.c), (5 * round + 1) % 16)
  | 2 => (s.b ^^^ s.c ^^^ s.d, (3 * round + 5) % 16)
  | _ => (s.c ^^^ (s.b ||| ~~~s.d), (7 * round) % 16)

/-- The bits of a word turned to the left. -/
def rotateLeft (w amount : UInt32) : UInt32 := (w <<< amount) ||| (w >>> (32 - amount))

/-- One round on a block of sixteen words. -/
def round (block : Array UInt32) (s : Chain) (sine : UInt32 × Nat) : Chain :=
  let (f, word) := mix sine.2 s
  let turned := rotateLeft (s.a + f + sine.1 + block.getD word 0) (rotation sine.2)
  ⟨s.d, s.b + turned, s.b, s.c⟩

/-- Takes one block into the state. -/
def compress (s : Chain) (block : Array UInt32) : Chain :=
  let t := sines.zipIdx.foldl (round block) s
  ⟨s.a + t.a, s.b + t.b, s.c + t.c, s.d + t.d⟩

/-- A natural in `count` bytes, least first. -/
def littleEndian (n : Nat) (count : Nat) : List UInt8 :=
  (List.range count).map fun i ↦ UInt8.ofNat (n / Nat.pow 256 i % 256)

/-- One bit, zeros up to eight bytes short of a block, and the length in bits. -/
def pad (bytes : List UInt8) : List UInt8 :=
  let zeros := (119 - bytes.length % 64) % 64
  bytes ++ 0x80 :: List.replicate zeros 0 ++ littleEndian (8 * bytes.length % 0x10000000000000000) 8

/-- Bytes as words of four, least byte first. -/
def toWords : List UInt8 → List UInt32
  | a :: b :: c :: d :: rest =>
    (a.toUInt32 ||| b.toUInt32 <<< 8 ||| c.toUInt32 <<< 16 ||| d.toUInt32 <<< 24) :: toWords rest
  | _ => []

/-- Words in blocks of sixteen; `fuel` bounds the number of blocks. -/
def toBlocks (words : List UInt32) : Nat → List (Array UInt32)
  | 0 => []
  | fuel + 1 =>
    if words.isEmpty then [] else (words.take 16).toArray :: toBlocks (words.drop 16) fuel

/-- The state after all blocks of the padded message. -/
def digest (bytes : List UInt8) : Chain :=
  let words := toWords (pad bytes)
  (toBlocks words words.length).foldl compress Chain.initial

/-- A byte in two digits to base sixteen. -/
def hexByte (b : UInt8) : List Char :=
  [Nat.digitChar (b.toNat / 16), Nat.digitChar (b.toNat % 16)]

/-- The digest of bytes in 32 hexadecimal digits. -/
def hexOfBytes (bytes : List UInt8) : String :=
  let s := digest bytes
  let all := [s.a, s.b, s.c, s.d].flatMap fun w ↦ littleEndian w.toNat 4
  String.ofList (all.flatMap hexByte)

/-- The digest of a text in 32 hexadecimal digits. -/
def hex (text : String) : String := hexOfBytes text.toUTF8.toList

end ChartFeed.Md5
