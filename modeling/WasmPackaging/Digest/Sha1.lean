import WasmPackaging.Digest.Sha256

/-!
The SHA-1 digest of some bytes, written in hexadecimal.
-/

namespace WasmPackaging.Digest.Sha1

open Text

/-- The words that are carried from block to block. -/
structure State where
  a : UInt32
  b : UInt32
  c : UInt32
  d : UInt32
  e : UInt32

/-- The words before the first block. -/
def State.start : State := ⟨0x67452301, 0xefcdab89, 0x98badcfe, 0x10325476, 0xc3d2e1f0⟩

/-- A schedule with the latest word first, extended by a number of words. -/
def extend : Nat → List UInt32 → List UInt32
  | 0, latest => latest
  | n + 1, latest =>
    let word (back : Nat) := latest.getD (back - 1) 0
    extend n (rotate 31 (word 3 ^^^ word 8 ^^^ word 14 ^^^ word 16) :: latest)

/-- A round with its word of the schedule: a quarter of the rounds mixes the words in one way. -/
def State.round (s : State) (round : Nat) (input : UInt32) : State :=
  let (mix, constant) : UInt32 × UInt32 := match round / 20 with
    | 0 => ((s.b &&& s.c) ||| ((s.b ^^^ 0xffffffff) &&& s.d), 0x5a827999)
    | 1 => (s.b ^^^ s.c ^^^ s.d, 0x6ed9eba1)
    | 2 => ((s.b &&& s.c) ||| (s.b &&& s.d) ||| (s.c &&& s.d), 0x8f1bbcdc)
    | _ => (s.b ^^^ s.c ^^^ s.d, 0xca62c1d6)
  ⟨rotate 27 s.a + mix + s.e + constant + input, s.a, rotate 2 s.b, s.c, s.d⟩

/-- The state after a block. -/
def State.block (s : State) (block : Bytes) : State :=
  let schedule := (extend 64 (wordsOf block).reverse).reverse
  let t := schedule.zipIdx.foldl (fun t (word, round) => t.round round word) s
  ⟨s.a + t.a, s.b + t.b, s.c + t.c, s.d + t.d, s.e + t.e⟩

/-- The state after some blocks of bytes; `fuel` is at least their number. -/
def absorb : Nat → State → Bytes → State
  | 0, s, _ => s
  | _, s, [] => s
  | fuel + 1, s, bytes => absorb fuel (s.block (bytes.take 64)) (bytes.drop 64)

/-- The digest of some bytes in hexadecimal. -/
def digest (message : Bytes) : String :=
  let bytes := padded message
  let s := absorb bytes.length State.start bytes
  String.ofList ([s.a, s.b, s.c, s.d, s.e].flatMap fun word => hexDigits 8 word.toNat)

end WasmPackaging.Digest.Sha1
