import WasmPackaging.Digest.Sha256

/-!
The MD5 digest of some bytes, written in hexadecimal.
-/

namespace WasmPackaging.Digest.Md5

open Text

/-- The integer parts of the sines of one to sixty-four, scaled to words. -/
def sineConstants : List UInt32 :=
  [0xd76aa478, 0xe8c7b756, 0x242070db, 0xc1bdceee, 0xf57c0faf, 0x4787c62a, 0xa8304613, 0xfd469501,
   0x698098d8, 0x8b44f7af, 0xffff5bb1, 0x895cd7be, 0x6b901122, 0xfd987193, 0xa679438e, 0x49b40821,
   0xf61e2562, 0xc040b340, 0x265e5a51, 0xe9b6c7aa, 0xd62f105d, 0x02441453, 0xd8a1e681, 0xe7d3fbc8,
   0x21e1cde6, 0xc33707d6, 0xf4d50d87, 0x455a14ed, 0xa9e3e905, 0xfcefa3f8, 0x676f02d9, 0x8d2a4c8a,
   0xfffa3942, 0x8771f681, 0x6d9d6122, 0xfde5380c, 0xa4beea44, 0x4bdecfa9, 0xf6bb4b60, 0xbebfbc70,
   0x289b7ec6, 0xeaa127fa, 0xd4ef3085, 0x04881d05, 0xd9d4d039, 0xe6db99e5, 0x1fa27cf8, 0xc4ac5665,
   0xf4292244, 0x432aff97, 0xab9423a7, 0xfc93a039, 0x655b59c3, 0x8f0ccc92, 0xffeff47d, 0x85845dd1,
   0x6fa87e4f, 0xfe2ce6e0, 0xa3014314, 0x4e0811a1, 0xf7537e82, 0xbd3af235, 0x2ad7d2bb, 0xeb86d391]

/-- The words that are carried from block to block. -/
structure State where
  a : UInt32
  b : UInt32
  c : UInt32
  d : UInt32

/-- The words before the first block. -/
def State.start : State := ⟨0x67452301, 0xefcdab89, 0x98badcfe, 0x10325476⟩

/-- How far the sum of a round is rotated to the left. -/
def turnsOf (round : Nat) : UInt32 :=
  let turns : List (List UInt32) := [[7, 12, 17, 22], [5, 9, 14, 20], [4, 11, 16, 23], [6, 10, 15, 21]]
  (turns.getD (round / 16) []).getD (round % 4) 0

/-- The words of a block, the lowest byte of each first. -/
def words : Bytes → List UInt32
  | a :: b :: c :: d :: rest =>
    ((d.toUInt32 <<< 24) ||| (c.toUInt32 <<< 16) ||| (b.toUInt32 <<< 8) ||| a.toUInt32) :: words rest
  | _ => []

/-- A round: a quarter of the rounds mixes the words in one way. -/
def State.round (block : List UInt32) (s : State) (round : Nat) (constant : UInt32) : State :=
  let (mix, place) := match round / 16 with
    | 0 => ((s.b &&& s.c) ||| ((s.b ^^^ 0xffffffff) &&& s.d), round)
    | 1 => ((s.d &&& s.b) ||| ((s.d ^^^ 0xffffffff) &&& s.c), 5 * round + 1)
    | 2 => (s.b ^^^ s.c ^^^ s.d, 3 * round + 5)
    | _ => (s.c ^^^ (s.b ||| (s.d ^^^ 0xffffffff)), 7 * round)
  let sum := s.a + mix + constant + block.getD (place % 16) 0
  ⟨s.d, s.b + rotate (32 - turnsOf round) sum, s.b, s.c⟩

/-- The state after a block. -/
def State.block (s : State) (block : Bytes) : State :=
  let block := words block
  let t := sineConstants.zipIdx.foldl (fun t (constant, round) => t.round block round constant) s
  ⟨s.a + t.a, s.b + t.b, s.c + t.c, s.d + t.d⟩

/-- The message with a one bit, zeros up to a whole number of blocks, and its length in bits. -/
def padded (message : Bytes) : Bytes :=
  let zeros := (119 - message.length % 64) % 64
  message ++ 0x80 :: List.replicate zeros 0 ++ (bigEndian 8 (message.length * 8)).reverse

/-- The state after some blocks of bytes; `fuel` is at least their number. -/
def absorb : Nat → State → Bytes → State
  | 0, s, _ => s
  | _, s, [] => s
  | fuel + 1, s, bytes => absorb fuel (s.block (bytes.take 64)) (bytes.drop 64)

/-- The digest of some bytes in hexadecimal. -/
def digest (message : Bytes) : String :=
  let bytes := padded message
  let s := absorb bytes.length State.start bytes
  let bytes := [s.a, s.b, s.c, s.d].flatMap fun word => (bigEndian 4 word.toNat).reverse
  String.ofList (bytes.flatMap fun byte => hexDigits 2 byte.toNat)

end WasmPackaging.Digest.Md5
