import Vx6.Go.Text

/-!
# SHA-256

`sha256.Sum256`, written out so that node IDs and fingerprints can be evaluated on concrete records.
The results of the development hold for every digest function; this is the one the program uses.
Words are naturals below `2 ^ 32`.
-/

set_option autoImplicit false

namespace Vx6.Go

namespace Sha256

/-- The round constants. -/
def roundConstants : List Nat :=
  [0x428a2f98, 0x71374491, 0xb5c0fbcf, 0xe9b5dba5, 0x3956c25b, 0x59f111f1, 0x923f82a4, 0xab1c5ed5,
   0xd807aa98, 0x12835b01, 0x243185be, 0x550c7dc3, 0x72be5d74, 0x80deb1fe, 0x9bdc06a7, 0xc19bf174,
   0xe49b69c1, 0xefbe4786, 0x0fc19dc6, 0x240ca1cc, 0x2de92c6f, 0x4a7484aa, 0x5cb0a9dc, 0x76f988da,
   0x983e5152, 0xa831c66d, 0xb00327c8, 0xbf597fc7, 0xc6e00bf3, 0xd5a79147, 0x06ca6351, 0x14292967,
   0x27b70a85, 0x2e1b2138, 0x4d2c6dfc, 0x53380d13, 0x650a7354, 0x766a0abb, 0x81c2c92e, 0x92722c85,
   0xa2bfe8a1, 0xa81a664b, 0xc24b8b70, 0xc76c51a3, 0xd192e819, 0xd6990624, 0xf40e3585, 0x106aa070,
   0x19a4c116, 0x1e376c08, 0x2748774c, 0x34b0bcb5, 0x391c0cb3, 0x4ed8aa4a, 0x5b9cca4f, 0x682e6ff3,
   0x748f82ee, 0x78a5636f, 0x84c87814, 0x8cc70208, 0x90befffa, 0xa4506ceb, 0xbef9a3f7, 0xc67178f2]

/-- The chaining value. -/
structure State where
  a : Nat
  b : Nat
  c : Nat
  d : Nat
  e : Nat
  f : Nat
  g : Nat
  h : Nat

/-- The initial chaining value. -/
def State.init : State :=
  ⟨0x6a09e667, 0xbb67ae85, 0x3c6ef372, 0xa54ff53a, 0x510e527f, 0x9b05688c, 0x1f83d9ab, 0x5be0cd19⟩

/-- Rotation of a word to the right. -/
def rotr (x n : Nat) : Nat := (x >>> n) ||| ((x <<< (32 - n)) % 2 ^ 32)

/-- One round; `kw` is the sum of the round constant and the schedule word. -/
def round (s : State) (kw : Nat) : State :=
  let ch := (s.e &&& s.f) ^^^ ((s.e ^^^ 0xffffffff) &&& s.g)
  let maj := (s.a &&& s.b) ^^^ (s.a &&& s.c) ^^^ (s.b &&& s.c)
  let t := s.h + (rotr s.e 6 ^^^ rotr s.e 11 ^^^ rotr s.e 25) + ch + kw
  { a := (t + (rotr s.a 2 ^^^ rotr s.a 13 ^^^ rotr s.a 22) + maj) % 2 ^ 32
    b := s.a
    c := s.b
    d := s.c
    e := (s.d + t) % 2 ^ 32
    f := s.e
    g := s.f
    h := s.g }

/-- The rounds of a block. The window holds the next sixteen words of the message schedule; each
round consumes its first word and appends the word sixteen places later. -/
def rounds (s : State) : List Nat → List Nat → State
  | w :: window, k :: ks =>
      let w1 := window.getD 0 0
      let w14 := window.getD 13 0
      let sigma0 := rotr w1 7 ^^^ rotr w1 18 ^^^ (w1 >>> 3)
      let sigma1 := rotr w14 17 ^^^ rotr w14 19 ^^^ (w14 >>> 10)
      rounds (round s (k + w)) (window ++ [(w + sigma0 + window.getD 8 0 + sigma1) % 2 ^ 32]) ks
  | _, _ => s

/-- The compression of one block of sixteen words. -/
def compress (s : State) (block : List Nat) : State :=
  let r := rounds s block roundConstants
  { a := (s.a + r.a) % 2 ^ 32
    b := (s.b + r.b) % 2 ^ 32
    c := (s.c + r.c) % 2 ^ 32
    d := (s.d + r.d) % 2 ^ 32
    e := (s.e + r.e) % 2 ^ 32
    f := (s.f + r.f) % 2 ^ 32
    g := (s.g + r.g) % 2 ^ 32
    h := (s.h + r.h) % 2 ^ 32 }

/-- The compression of `n` blocks. -/
def compressBlocks (s : State) : Nat → List Nat → State
  | 0, _ => s
  | n + 1, ws => compressBlocks (compress s (ws.take 16)) n (ws.drop 16)

/-- Big-endian words. -/
def words : List UInt8 → List Nat
  | a :: b :: c :: d :: rest =>
      (a.toNat * 2 ^ 24 + b.toNat * 2 ^ 16 + c.toNat * 2 ^ 8 + d.toNat) :: words rest
  | _ => []

/-- The message, a one bit, zeros up to a whole number of blocks, and the length in bits. -/
def pad (message : Bytes) : Bytes :=
  let n := message.length
  message ++ (0x80 : UInt8) :: List.replicate ((119 - n % 64) % 64) 0 ++
    (List.range 8).map fun i => UInt8.ofNat ((8 * n) >>> (8 * (7 - i)))

/-- Byte `i` of a word, the most significant first. -/
def wordByte (w i : Nat) : UInt8 := UInt8.ofNat (w >>> (8 * (3 - i)))

/-- The bytes of the chaining value. -/
def State.digest (s : State) : Vector UInt8 32 :=
  Vector.ofFn fun i => wordByte ([s.a, s.b, s.c, s.d, s.e, s.f, s.g, s.h].getD (i.val / 4) 0) (i % 4)

end Sha256

/-- `sha256.Sum256`. -/
def sha256 (message : Bytes) : Vector UInt8 32 :=
  let ws := Sha256.words (Sha256.pad message)
  (Sha256.compressBlocks .init (ws.length / 16) ws).digest

/-- The digests of the empty message and of three hash texts. -/
theorem sha256_samples :
    (sha256 []).toList =
      [0xe3, 0xb0, 0xc4, 0x42, 0x98, 0xfc, 0x1c, 0x14, 0x9a, 0xfb, 0xf4, 0xc8,
        0x99, 0x6f, 0xb9, 0x24, 0x27, 0xae, 0x41, 0xe4, 0x64, 0x9b, 0x93, 0x4c,
        0xa4, 0x95, 0x99, 0x1b, 0x78, 0x52, 0xb8, 0x55] ∧
    bigEndian (sha256 (bytes
      "0000000000000000000000000000000000000000000000000000000000000000")).toList =
      0x60e05bd1b195af2f94112fa7197a5c88289058840ce7c6df9693756bc6250f55 ∧
    bigEndian (sha256 (bytes
      "0000000000000000000000000000000000000000000000000000000000000001")).toList =
      0xc386d8e8d07342f2e39e189c8e6c57bb205bb373fe4e3a6f69404a8bb767b417 ∧
    bigEndian (sha256 (bytes
      "0000000000000000000000000000000000000000000000000000000000000002")).toList =
      0x68e4d75d23e31bd23f43266f769567b2588d9f3d3010fa7cacae7efd6f5ce0ad := by
  decide +kernel

end Vx6.Go
