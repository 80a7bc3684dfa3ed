import ChannelWatch.Text.Hex

/-!
# MD5

The digest that names cache files: padding to whole blocks of sixteen words, then sixty-four rounds per block over a
state of four words.
-/

namespace ChannelWatch.Md5

/-- The four words carried from block to block. -/
structure State where
  a : UInt32
  b : UInt32
  c : UInt32
  d : UInt32

/-- The state before the first block. -/
def initial : State :=
  ⟨0x67452301, 0xefcdab89, 0x98badcfe, 0x10325476⟩

/-- The additive constant of each round: the integer part of 2³² · |sin(i + 1)|. -/
def constants : List UInt32 := [
  0xd76aa478, 0xe8c7b756, 0x242070db, 0xc1bdceee, 0xf57c0faf, 0x4787c62a, 0xa8304613, 0xfd469501,
  0x698098d8, 0x8b44f7af, 0xffff5bb1, 0x895cd7be, 0x6b901122, 0xfd987193, 0xa679438e, 0x49b40821,
  0xf61e2562, 0xc040b340, 0x265e5a51, 0xe9b6c7aa, 0xd62f105d, 0x02441453, 0xd8a1e681, 0xe7d3fbc8,
  0x21e1cde6, 0xc33707d6, 0xf4d50d87, 0x455a14ed, 0xa9e3e905, 0xfcefa3f8, 0x676f02d9, 0x8d2a4c8a,
  0xfffa3942, 0x8771f681, 0x6d9d6122, 0xfde5380c, 0xa4beea44, 0x4bdecfa9, 0xf6bb4b60, 0xbebfbc70,
  0x289b7ec6, 0xeaa127fa, 0xd4ef3085, 0x04881d05, 0xd9d4d039, 0xe6db99e5, 0x1fa27cf8, 0xc4ac5665,
  0xf4292244, 0x432aff97, 0xab9423a7, 0xfc93a039, 0x655b59c3, 0x8f0ccc92, 0xffeff47d, 0x85845dd1,
  0x6fa87e4f, 0xfe2ce6e0, 0xa3014314, 0x4e0811a1, 0xf7537e82, 0xbd3af235, 0x2ad7d2bb, 0xeb86d391]

/-- The left rotations of the four rounds of a group, repeated four times in each group of sixteen. -/
def rotations : List UInt32 :=
  [[7, 12, 17, 22], [5, 9, 14, 20], [4, 11, 16, 23], [6, 10, 15, 21]].flatMap
    fun group => (List.replicate 4 group).flatten

/-- A word rotated to the left. -/
def rotate (x n : UInt32) : UInt32 :=
  (x <<< n) ||| (x >>> (32 - n))

/-- The mixing function of round `i` and the index of the block's word that it takes. -/
def mix (i : Nat) (s : State) : UInt32 × Nat :=
  if i < 16 then ((s.b &&& s.c) ||| (~~~s.b &&& s.d), i)
  else if i < 32 then ((s.d &&& s.b) ||| (~~~s.d &&& s.c), (5 * i + 1) % 16)
  else if i < 48 then (s.b ^^^ s.c ^^^ s.d, (3 * i + 5) % 16)
  else (s.c ^^^ (s.b ||| ~~~s.d), 7 * i % 16)

/-- One round over the words of a block. -/
def round (words : Array UInt32) (s : State) (r : Nat × UInt32 × UInt32) : State :=
  let (f, g) := mix r.1 s
  ⟨s.d, s.b + rotate (f + s.a + r.2.1 + words.getD g 0) r.2.2, s.b, s.c⟩

/-- The number, constant and rotation of every round. -/
def rounds : List (Nat × UInt32 × UInt32) :=
  (List.range 64).zip (constants.zip rotations)

/-- One block, added to the state before it. -/
def block (s : State) (words : List UInt32) : State :=
  let t := rounds.foldl (round words.toArray) s
  ⟨s.a + t.a, s.b + t.b, s.c + t.c, s.d + t.d⟩

/-- The low `n` bytes of a number, lowest first. -/
def littleEndian (n value : Nat) : List UInt8 :=
  (List.range n).map fun i => UInt8.ofNat (value / Nat.pow 256 i % 256)

/-- The message with a one bit, zeros up to eight bytes short of a whole block, and its length in bits. -/
def padding (message : List UInt8) : List UInt8 :=
  let length := message.length
  message ++ 0x80 :: List.replicate ((119 - length % 64) % 64) 0 ++ littleEndian 8 (8 * length)

/-- The words of a byte string, each from four bytes, lowest first. -/
def words : List UInt8 → List UInt32
  | a :: b :: c :: d :: rest =>
    (a.toUInt32 ||| (b.toUInt32 <<< 8) ||| (c.toUInt32 <<< 16) ||| (d.toUInt32 <<< 24)) :: words rest
  | _ => []

/-- The state after a list of words, sixteen at a time. -/
def absorb (s : State) (ws : List UInt32) : State :=
  if 16 ≤ ws.length then absorb (block s (ws.take 16)) (ws.drop 16) else s
termination_by ws.length
decreasing_by simp only [List.length_drop]; omega

/-- The sixteen bytes of the digest. -/
def digest (message : List UInt8) : List UInt8 :=
  let s := absorb initial (words (padding message))
  [s.a, s.b, s.c, s.d].flatMap fun w => littleEndian 4 w.toNat

/-- The digest as thirty-two lowercase hexadecimal digits. -/
def hexDigest (message : List UInt8) : List Char :=
  Hex.lower (digest message)

end ChannelWatch.Md5
