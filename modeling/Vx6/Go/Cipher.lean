import Vx6.Go.Text

/-!
# Authenticated encryption

A `cipher.AEAD` under a fixed key, always called without associated data, and the fixed-width
big-endian numbers of `encoding/binary` that go into its nonces. What is assumed of a cipher is stated
in `Aead.Lawful`; `tagAead` is a cipher that satisfies it, for runs on fixed inputs.
-/

set_option autoImplicit false

namespace Vx6.Go

/-! ## Package `encoding/binary` -/

/-- `binary.BigEndian.PutUint16`. -/
def putUint16 (n : Nat) : Bytes := [UInt8.ofNat (n >>> 8), UInt8.ofNat n]

theorem bigEndian_putUint16 {n : Nat} (h : n < 2 ^ 16) : bigEndian (putUint16 n) = n := by
  simp only [bigEndian, putUint16, List.foldl_cons, List.foldl_nil, UInt8.toNat_ofNat',
    Nat.shiftRight_eq_div_pow]
  omega

/-- `binary.BigEndian.PutUint64`. -/
def putUint64 (n : UInt64) : Bytes :=
  [UInt8.ofNat (n.toNat >>> 56), UInt8.ofNat (n.toNat >>> 48), UInt8.ofNat (n.toNat >>> 40),
    UInt8.ofNat (n.toNat >>> 32), UInt8.ofNat (n.toNat >>> 24), UInt8.ofNat (n.toNat >>> 16),
    UInt8.ofNat (n.toNat >>> 8), UInt8.ofNat n.toNat]

theorem bigEndian_putUint64 (n : UInt64) : bigEndian (putUint64 n) = n.toNat := by
  have h := n.toNat_lt
  simp only [bigEndian, putUint64, List.foldl_cons, List.foldl_nil, UInt8.toNat_ofNat',
    Nat.shiftRight_eq_div_pow]
  omega

theorem putUint64_injective : Function.Injective putUint64 := by
  intro m n h
  have hval := congrArg bigEndian h
  rw [bigEndian_putUint64, bigEndian_putUint64] at hval
  exact UInt64.toNat_inj.1 hval

/-! ## Package `crypto/cipher` -/

/-- A `cipher.AEAD` under its key: `Seal`, and `Open`, which may refuse. -/
structure Aead where
  sealBytes : (nonce plain : Bytes) → Bytes
  openBytes : (nonce sealed : Bytes) → Option Bytes

/-- The size of the tag that GCM adds. -/
def tagSize : Nat := 16

namespace Aead

/-- `Open` undoes `Seal` under the same nonce, and a sealed text is longer by the tag. -/
structure Lawful (a : Aead) : Prop where
  open_seal : ∀ n p, a.openBytes n (a.sealBytes n p) = some p
  length_seal : ∀ n p, (a.sealBytes n p).length = p.length + tagSize

end Aead

/-- The tag of `tagAead`: a mark and the nonce, in 16 bytes. -/
def nonceTag (mark : UInt8) (nonce : Bytes) : Bytes :=
  (mark :: nonce ++ List.replicate 15 0).take tagSize

/-- A cipher that hides nothing: the tag in front of the text tells key and nonce apart. -/
def tagAead (mark : UInt8) : Aead where
  sealBytes nonce plain := nonceTag mark nonce ++ plain
  openBytes nonce sealed :=
    if sealed.take tagSize = nonceTag mark nonce then some (sealed.drop tagSize) else none

theorem length_nonceTag (mark : UInt8) (nonce : Bytes) : (nonceTag mark nonce).length = tagSize := by
  simp only [nonceTag, tagSize, List.length_take, List.length_append, List.length_cons,
    List.length_replicate]
  omega

theorem tagAead_lawful (mark : UInt8) : (tagAead mark).Lawful where
  open_seal n p := by
    have htake : (nonceTag mark n ++ p).take tagSize = nonceTag mark n := by
      rw [← length_nonceTag mark n, List.take_left]
    have hdrop : (nonceTag mark n ++ p).drop tagSize = p := by
      rw [← length_nonceTag mark n, List.drop_left]
    simp only [tagAead, htake, hdrop, ↓reduceIte]
  length_seal n p := by
    show (nonceTag mark n ++ p).length = _
    rw [List.length_append, length_nonceTag, Nat.add_comm]

end Vx6.Go
