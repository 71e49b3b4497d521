import Mathlib.Algebra.Group.Nat.Defs
import Mathlib.Data.List.Basic

/-!
# SHA-256

The digest of a text, as 64 hexadecimal digits. Words are natural numbers below `2 ^ 32`.
-/

namespace Sha256

def word (n : Nat) : Nat := n % 0x100000000

def rotateRight (k n : Nat) : Nat := word ((n >>> k) ||| (n <<< (32 - k)))

/-- The first 32 bits of the fractional parts of the cube roots of the first 64 primes. -/
def roundConstants : List Nat :=
  [0x428a2f98, 0x71374491, 0xb5c0fbcf, 0xe9b5dba5, 0x3956c25b, 0x59f111f1, 0x923f82a4, 0xab1c5ed5,
   0xd807aa98, 0x12835b01, 0x243185be, 0x550c7dc3, 0x72be5d74, 0x80deb1fe, 0x9bdc06a7, 0xc19bf174,
   0xe49b69c1, 0xefbe4786, 0x0fc19dc6, 0x240ca1cc, 0x2de92c6f, 0x4a7484aa, 0x5cb0a9dc, 0x76f988da,
   0x983e5152, 0xa831c66d, 0xb00327c8, 0xbf597fc7, 0xc6e00bf3, 0xd5a79147, 0x06ca6351, 0x14292967,
   0x27b70a85, 0x2e1b2138, 0x4d2c6dfc, 0x53380d13, 0x650a7354, 0x766a0abb, 0x81c2c92e, 0x92722c85,
   0xa2bfe8a1, 0xa81a664b, 0xc24b8b70, 0xc76c51a3, 0xd192e819, 0xd6990624, 0xf40e3585, 0x106aa070,
   0x19a4c116, 0x1e376c08, 0x2748774c, 0x34b0bcb5, 0x391c0cb3, 0x4ed8aa4a, 0x5b9cca4f, 0x682e6ff3,
   0x748f82ee, 0x78a5636f, 0x84c87814, 0x8cc70208, 0x90befffa, 0xa4506ceb, 0xbef9a3f7, 0xc67178f2]

/-- The eight working words. -/
structure State where
  a : Nat
  b : Nat
  c : Nat
  d : Nat
  e : Nat
  f : Nat
  g : Nat
  h : Nat

/-- The first 32 bits of the fractional parts of the square roots of the first 8 primes. -/
def initial : State :=
  ⟨0x6a09e667, 0xbb67ae85, 0x3c6ef372, 0xa54ff53a, 0x510e527f, 0x9b05688c, 0x1f83d9ab, 0x5be0cd19⟩

/-- The message schedule, newest word first. -/
def schedule : Nat → List Nat → List Nat
  | 0, ws => ws
  | n + 1, ws =>
    let w (i : Nat) : Nat := ws.getD i 0
    let s0 := rotateRight 7 (w 14) ^^^ rotateRight 18 (w 14) ^^^ (w 14 >>> 3)
    let s1 := rotateRight 17 (w 1) ^^^ rotateRight 19 (w 1) ^^^ (w 1 >>> 10)
    schedule n (word (s1 + w 6 + s0 + w 15) :: ws)

def round (s : State) (kw : Nat × Nat) : State :=
  let s1 := rotateRight 6 s.e ^^^ rotateRight 11 s.e ^^^ rotateRight 25 s.e
  let choice := (s.e &&& s.f) ^^^ ((0xffffffff ^^^ s.e) &&& s.g)
  let t1 := s.h + s1 + choice + kw.1 + kw.2
  let s0 := rotateRight 2 s.a ^^^ rotateRight 13 s.a ^^^ rotateRight 22 s.a
  let majority := (s.a &&& s.b) ^^^ (s.a &&& s.c) ^^^ (s.b &&& s.c)
  ⟨word (t1 + s0 + majority), s.a, s.b, s.c, word (s.d + t1), s.e, s.f, s.g⟩

/-- One block of sixteen words. -/
def compress (s : State) (block : List Nat) : State :=
  let ws := (schedule 48 block.reverse).reverse
  let t := (roundConstants.zip ws).foldl round s
  ⟨word (s.a + t.a), word (s.b + t.b), word (s.c + t.c), word (s.d + t.d), word (s.e + t.e),
    word (s.f + t.f), word (s.g + t.g), word (s.h + t.h)⟩

def words : List Nat → List Nat
  | b₀ :: b₁ :: b₂ :: b₃ :: bytes =>
    (((b₀ * 256 + b₁) * 256 + b₂) * 256 + b₃) :: words bytes
  | _ => []

/-- The bytes of a number, most significant first. -/
def bytesOf (count n : Nat) : List Nat :=
  (List.range count).map fun i => n / 256 ^ (count - 1 - i) % 256

/-- A one bit, zeros, and the length in bits. -/
def pad (bytes : List Nat) : List Nat :=
  bytes ++ 0x80 :: List.replicate ((119 - bytes.length % 64) % 64) 0 ++
    bytesOf 8 (8 * bytes.length)

def blocks : Nat → State → List Nat → State
  | 0, s, _ => s
  | n + 1, s, ws => blocks n (compress s (ws.take 16)) (ws.drop 16)

def hexDigit (n : Nat) : Char := if n < 10 then Char.ofNat (48 + n) else Char.ofNat (87 + n)

/-- `hashlib.sha256(text.encode()).hexdigest()`. -/
def hexdigest (text : String) : String :=
  let bytes := text.toList.flatMap fun c => (String.utf8EncodeChar c).map (·.toNat)
  let ws := words (pad bytes)
  let s := blocks (ws.length / 16) initial ws
  String.ofList (([s.a, s.b, s.c, s.d, s.e, s.f, s.g, s.h].flatMap (bytesOf 4)).flatMap fun b =>
    [hexDigit (b / 16), hexDigit (b % 16)])

example : hexdigest "abc" =
    "ba7816bf8f01cfea414140de5dae2223b00361a396177a9cb410ff61f20015ad" := by
  decide +kernel

end Sha256
