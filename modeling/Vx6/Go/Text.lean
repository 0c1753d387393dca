import Mathlib.Data.List.TakeWhile
import Mathlib.Tactic

/-!
# Strings and encodings

The functions of Go's `strings`, `encoding/base64` and `encoding/hex` packages that the modelled
code calls, over Lean strings. A Go string is a byte sequence; `bytes` gives the UTF-8 bytes of a
Lean string, and the order of Lean strings agrees with Go's byte order.
-/

set_option autoImplicit false

namespace Vx6.Go

/-- Byte sequences, Go's `[]byte`. -/
abbrev Bytes := List UInt8

/-- The conversion `[]byte(s)`. -/
def bytes (s : String) : Bytes := s.toByteArray.data.toList

/-- The built-in `len(s)`: the number of bytes. -/
def len (s : String) : Nat := (bytes s).length

/-- A text has at least as many bytes as characters. -/
theorem length_le_len (s : String) : s.toList.length ≤ len s := by
  have key : ∀ cs : List Char, cs.length ≤ cs.utf8Encode.size := by
    intro cs
    induction cs with
    | nil => simp
    | cons c cs ih =>
      have hc := c.utf8Size_pos
      rw [List.utf8Encode_cons, ByteArray.size_append, List.utf8Encode_singleton,
        List.size_toByteArray, String.length_utf8EncodeChar, List.length_cons]
      omega
  have h := key s.toList
  rwa [String.utf8Encode_toList, ← ByteArray.size_data, ← Array.length_toList] at h

/-! ## Package `strings` -/

/-- `strings.HasPrefix`. -/
def hasPrefix (s p : String) : Bool := p.toList.isPrefixOf s.toList

/-- `strings.TrimPrefix`. -/
def trimPrefix (s p : String) : String :=
  if hasPrefix s p then String.ofList (s.toList.drop p.toList.length) else s

/-- `unicode.IsSpace`: the characters with the White_Space property. -/
def isSpace (c : Char) : Bool :=
  c = ' ' || (0x09 ≤ c.toNat && c.toNat ≤ 0x0d) || c.toNat = 0x85 || c.toNat = 0xa0 ||
    c.toNat = 0x1680 || (0x2000 ≤ c.toNat && c.toNat ≤ 0x200a) || c.toNat = 0x2028 ||
    c.toNat = 0x2029 || c.toNat = 0x202f || c.toNat = 0x205f || c.toNat = 0x3000

/-- Drop the characters satisfying `p` at both ends. -/
def trimFunc (s : String) (p : Char → Bool) : String :=
  String.ofList (((s.toList.dropWhile p).reverse.dropWhile p).reverse)

/-- `strings.TrimSpace`. -/
def trimSpace (s : String) : String := trimFunc s isSpace

/-- `strings.Trim`. -/
def trim (s cutset : String) : String := trimFunc s fun c => cutset.toList.contains c

/-- `strings.Contains`. -/
def contains (s sub : String) : Bool := s.toList.tails.any fun t => sub.toList.isPrefixOf t

/-- `strings.Cut` for a one-character separator: the text before and after its first occurrence. -/
def cut (s : String) (sep : Char) : Option (String × String) :=
  if s.toList.contains sep then
    some (String.ofList (s.toList.takeWhile fun c => c ≠ sep),
      String.ofList ((s.toList.dropWhile fun c => c ≠ sep).drop 1))
  else none

/-- `strings.ContainsAny`. -/
def containsAny (s chars : String) : Bool := s.toList.any fun c => chars.toList.contains c

/-- The pieces of a character list between occurrences of `sep`. -/
def splitChars (sep : Char) : List Char → List (List Char)
  | [] => [[]]
  | c :: cs =>
      if c = sep then [] :: splitChars sep cs
      else
        match splitChars sep cs with
        | [] => [[c]]
        | piece :: rest => (c :: piece) :: rest

theorem splitChars_of_not_mem {sep : Char} {cs : List Char} (h : sep ∉ cs) :
    splitChars sep cs = [cs] := by
  induction cs with
  | nil => rfl
  | cons c cs ih =>
    rw [List.mem_cons, not_or] at h
    rw [splitChars, if_neg fun he => h.1 he.symm, ih h.2]

theorem splitChars_append {sep : Char} {a b : List Char} (ha : sep ∉ a) :
    splitChars sep (a ++ sep :: b) = a :: splitChars sep b := by
  induction a with
  | nil => simp [splitChars]
  | cons c a ih =>
    rw [List.mem_cons, not_or] at ha
    rw [List.cons_append, splitChars, if_neg fun he => ha.1 he.symm, ih ha.2]

/-- `strings.Split` for a one-character separator. -/
def split (s : String) (sep : Char) : List String := (splitChars sep s.toList).map String.ofList

/-- `strings.Join`. -/
def join (parts : List String) (sep : String) : String :=
  match parts with
  | [] => ""
  | p :: rest => rest.foldl (fun acc q => acc ++ sep ++ q) p

/-- `unicode.ToUpper` up to letters outside ASCII whose upper case is outside ASCII too: these are
left alone. The long s and the dotless i are the two letters outside ASCII with an ASCII upper
case. -/
def toUpperChar (c : Char) : Char :=
  if 'a' ≤ c ∧ c ≤ 'z' then Char.ofNat (c.toNat - 32)
  else if c = 'ſ' then 'S'
  else if c = 'ı' then 'I'
  else c

/-- `strings.ToUpper`. -/
def toUpper (s : String) : String := String.ofList (s.toList.map toUpperChar)

/-- `unicode.ToLower`, up to letters outside ASCII whose lower case is outside ASCII too. The
Kelvin sign and the dotted I are the two letters outside ASCII with an ASCII lower case. -/
def toLowerChar (c : Char) : Char :=
  if 'A' ≤ c ∧ c ≤ 'Z' then Char.ofNat (c.toNat + 32)
  else if c.toNat = 0x212a then 'k'
  else if c.toNat = 0x130 then 'i'
  else c

/-- `strings.ToLower`. -/
def toLower (s : String) : String := String.ofList (s.toList.map toLowerChar)

/-! ## Package `strconv` -/

/-- The value of a decimal digit. -/
def digitValue (c : Char) : Option Nat :=
  if '0' ≤ c ∧ c ≤ '9' then some (c.toNat - '0'.toNat) else none

/-- A nonempty digit sequence read in base ten. -/
def parseDigits : List Char → Option Nat
  | [] => none
  | c :: cs => (c :: cs).foldl (fun acc d => do some (10 * (← acc) + (← digitValue d))) (some 0)

/-- `strconv.ParseInt(s, 10, 64)`. -/
def parseInt (s : String) : Option Int :=
  let signed : Option Int :=
    match s.toList with
    | '-' :: ds => (parseDigits ds).map fun n => -(n : Int)
    | '+' :: ds => (parseDigits ds).map fun n => (n : Int)
    | ds => (parseDigits ds).map fun n => (n : Int)
  signed.filter fun n => decide (-2 ^ 63 ≤ n) && decide (n < 2 ^ 63)

/-- `strconv.FormatInt(n, 10)` and `strconv.FormatUint(n, 10)`. -/
def formatInt (n : Int) : String := toString n

/-! ## Package `encoding/hex` -/

/-- The value of a hexadecimal digit of either case. -/
def hexValue (c : Char) : Option Nat :=
  if '0' ≤ c ∧ c ≤ '9' then some (c.toNat - '0'.toNat)
  else if 'a' ≤ c ∧ c ≤ 'f' then some (c.toNat - 'a'.toNat + 10)
  else if 'A' ≤ c ∧ c ≤ 'F' then some (c.toNat - 'A'.toNat + 10)
  else none

/-- Two digits for each byte. -/
def hexDecodeChars : List Char → Option Bytes
  | [] => some []
  | [_] => none
  | a :: b :: cs => do
      let hi ← hexValue a
      let lo ← hexValue b
      let rest ← hexDecodeChars cs
      return UInt8.ofNat (16 * hi + lo) :: rest

/-- `hex.DecodeString`. -/
def hexDecode (s : String) : Option Bytes := hexDecodeChars s.toList

/-- Two digits for each byte of a decoded text. -/
theorem hexDecodeChars_length {cs : List Char} {bs : Bytes} (h : hexDecodeChars cs = some bs) :
    2 * bs.length = cs.length := by
  induction cs using hexDecodeChars.induct generalizing bs with
  | case1 =>
    cases h
    rfl
  | case2 c => cases h
  | case3 a b cs ih =>
    simp only [hexDecodeChars, Option.bind_eq_bind, Option.bind_eq_some_iff, pure,
      Option.some.injEq] at h
    obtain ⟨hi, -, lo, -, rest, hrest, rfl⟩ := h
    have := ih hrest
    simp only [List.length_cons]
    omega

/-- The lower-case digit of a value below sixteen. -/
def hexDigit (n : Nat) : Char := Char.ofNat (if n < 10 then '0'.toNat + n else 'a'.toNat + n - 10)

/-- `hex.EncodeToString`. -/
def hexEncode (bs : Bytes) : String :=
  String.ofList (bs.flatMap fun b => [hexDigit (b.toNat / 16), hexDigit (b.toNat % 16)])

/-- `big.Int.SetBytes`: the big-endian value. -/
def bigEndian (bs : Bytes) : Nat := bs.foldl (fun acc b => 256 * acc + b.toNat) 0

theorem bigEndian_lt (bs : Bytes) : bigEndian bs < 256 ^ bs.length := by
  have key : ∀ (bs : Bytes) (acc : Nat), bs.foldl (fun acc b => 256 * acc + b.toNat) acc <
      256 ^ bs.length * (acc + 1) := by
    intro bs
    induction bs with
    | nil => intro acc; simp
    | cons b bs ih =>
      intro acc
      have hb := b.toNat_lt
      have hstep : 256 * acc + b.toNat + 1 ≤ 256 * (acc + 1) := by omega
      calc _ < 256 ^ bs.length * (256 * acc + b.toNat + 1) := ih _
        _ ≤ 256 ^ bs.length * (256 * (acc + 1)) := Nat.mul_le_mul_left _ hstep
        _ = 256 ^ (b :: bs).length * (acc + 1) := by rw [List.length_cons, pow_succ]; ring
  simpa [bigEndian] using key bs 0
/-! ## Package `encoding/base64` -/

/-- A base64 alphabet: the characters for the values 62 and 63, and whether a final partial
quantum is padded with `=`. -/
structure Base64 where
  char62 : Char
  char63 : Char
  padded : Bool

/-- `base64.StdEncoding`. -/
def stdEncoding : Base64 := ⟨'+', '/', true⟩

/-- `base64.RawURLEncoding`. -/
def rawURLEncoding : Base64 := ⟨'-', '_', false⟩

namespace Base64

/-- The six-bit value of a character. -/
def value (enc : Base64) (c : Char) : Option Nat :=
  if 'A' ≤ c ∧ c ≤ 'Z' then some (c.toNat - 'A'.toNat)
  else if 'a' ≤ c ∧ c ≤ 'z' then some (c.toNat - 'a'.toNat + 26)
  else if '0' ≤ c ∧ c ≤ '9' then some (c.toNat - '0'.toNat + 52)
  else if c = enc.char62 then some 62
  else if c = enc.char63 then some 63
  else none

/-- The character of a six-bit value. -/
def char (enc : Base64) (n : Nat) : Char :=
  if n < 26 then Char.ofNat ('A'.toNat + n)
  else if n < 52 then Char.ofNat ('a'.toNat + (n - 26))
  else if n < 62 then Char.ofNat ('0'.toNat + (n - 52))
  else if n = 62 then enc.char62
  else enc.char63

/-- Decode whole quanta. The last quantum may be partial: two characters carry one byte and three
carry two, followed by padding where the alphabet has it. The unused low bits are not checked. -/
def decodeChars (enc : Base64) : List Char → Option Bytes
  | [] => some []
  | [a, b] => do
      if enc.padded then none
      let n := 64 * (← enc.value a) + (← enc.value b)
      return [UInt8.ofNat (n / 16)]
  | [a, b, c] => do
      if enc.padded then none
      let n := 4096 * (← enc.value a) + 64 * (← enc.value b) + (← enc.value c)
      return [UInt8.ofNat (n / 1024), UInt8.ofNat (n / 4)]
  | a :: b :: c :: d :: rest => do
      let hi := 64 * (← enc.value a) + (← enc.value b)
      if enc.padded ∧ c = '=' ∧ d = '=' ∧ rest = [] then
        return [UInt8.ofNat (hi / 16)]
      let mid := 64 * hi + (← enc.value c)
      if enc.padded ∧ d = '=' ∧ rest = [] then
        return [UInt8.ofNat (mid / 1024), UInt8.ofNat (mid / 4)]
      let n := 64 * mid + (← enc.value d)
      let tail ← enc.decodeChars rest
      return UInt8.ofNat (n / 65536) :: UInt8.ofNat (n / 256) :: UInt8.ofNat n :: tail
  | [_] => none

/-- `DecodeString`: line breaks are skipped wherever they stand. -/
def decodeString (enc : Base64) (s : String) : Option Bytes :=
  enc.decodeChars (s.toList.filter fun c => !(c = '\n' || c = '\r'))

/-- The characters of an encoded byte sequence. -/
def encodeChars (enc : Base64) : Bytes → List Char
  | [] => []
  | [a] =>
      let n := 16 * a.toNat
      [enc.char (n / 64), enc.char (n % 64)] ++ if enc.padded then ['=', '='] else []
  | [a, b] =>
      let n := 4 * (256 * a.toNat + b.toNat)
      [enc.char (n / 4096), enc.char (n / 64 % 64), enc.char (n % 64)] ++
        if enc.padded then ['='] else []
  | a :: b :: c :: rest =>
      let n := 65536 * a.toNat + 256 * b.toNat + c.toNat
      enc.char (n / 262144) :: enc.char (n / 4096 % 64) :: enc.char (n / 64 % 64) ::
        enc.char (n % 64) :: enc.encodeChars rest

/-- `EncodeToString`. -/
def encodeToString (enc : Base64) (bs : Bytes) : String := String.ofList (enc.encodeChars bs)

end Base64

/-- An encoding of at least one byte is not the empty string. -/
theorem encodeToString_ne_empty (enc : Base64) {bs : Bytes} (h : bs ≠ []) :
    enc.encodeToString bs ≠ "" := by
  intro he
  have hl : enc.encodeChars bs = [] := by
    have := congrArg String.toList he
    simpa [Base64.encodeToString] using this
  match bs, h with
  | [a], _ => simp [Base64.encodeChars] at hl
  | [a, b], _ => simp [Base64.encodeChars] at hl
  | a :: b :: c :: rest, _ => simp [Base64.encodeChars] at hl

example : stdEncoding.decodeString "TWFu\nTQ==" = some [77, 97, 110, 77] := by decide

example : rawURLEncoding.encodeToString [255, 254] = "__4" := by decide

end Vx6.Go
