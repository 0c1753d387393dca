import Vx6.Identity
import Vx6.Lib.Panic
import Vx6.Go.Sha256

/-!
# The session handshake

The receiving half of the handshake in `internal/secure/session.go`. `ed25519.Verify` panics on a key
that does not have 32 bytes, and `readHello` hands it whatever the remote side sent as its key:
`safe_readHello_iff` says for which streams that is a key of the right size.
-/

set_option autoImplicit false

namespace Vx6

open Vx6.Go Vx6.Lib

/-- `ed25519.Verify` with the precondition it has: it panics unless the key has 32 bytes. -/
def Crypto.verify {ε : Type} (cr : Crypto) (key message signature : Bytes) : Panicking ε Bool :=
  guarded (key.length = publicKeySize) (cr.ed25519Verify key message signature)

namespace Secure

/-- `hello`. -/
structure Hello where
  version : UInt8 := 0
  nodeID : String := ""
  publicKey : String := ""
  ephemeral : String := ""
  signature : String := ""
  deriving DecidableEq, Repr

/-- The primitives of the handshake: those of `Crypto`, and JSON decoding of a `hello`. -/
structure SessionRuntime extends Crypto where
  unmarshalHello : Bytes → Option Hello

/-- The errors of `readHello`. -/
inductive SessionError where
  | readSize
  | invalidSize (length : Nat)
  | readPayload
  | decodeHandshake
  | decodePublicKey
  | decodeSignature
  | decodeEphemeral
  | nodeIDMismatch
  | signatureMismatch
  deriving DecidableEq, Repr

/-- `maxHandshakeSize`. -/
def maxHandshakeSize : Nat := 8 * 1024

/-- `proto.ReadLengthPrefixed` on the bytes that arrive before the connection ends: the payload and
what is left to read. -/
def readLengthPrefixed (stream : Bytes) (maxSize : Nat) : Except SessionError (Bytes × Bytes) := do
  rejectIf (stream.length < 4) .readSize
  let length := bigEndian (stream.take 4)
  rejectIf (length = 0 || length > maxSize) (.invalidSize length)
  let rest := stream.drop 4
  rejectIf (rest.length < length) .readPayload
  return (rest.take length, rest.drop length)

/-- `binary.BigEndian.PutUint32`. -/
def putUint32 (n : Nat) : Bytes :=
  [UInt8.ofNat (n >>> 24), UInt8.ofNat (n >>> 16), UInt8.ofNat (n >>> 8), UInt8.ofNat n]

/-- `proto.WriteLengthPrefixed`. -/
def writeLengthPrefixed (payload : Bytes) : Bytes := putUint32 payload.length ++ payload

theorem bigEndian_putUint32 {n : Nat} (h : n < 2 ^ 32) : bigEndian (putUint32 n) = n := by
  simp only [bigEndian, putUint32, List.foldl_cons, List.foldl_nil, UInt8.toNat_ofNat',
    Nat.shiftRight_eq_div_pow]
  omega

/-- What is written can be read back, whatever follows it. -/
theorem readLengthPrefixed_write {payload : Bytes} {maxSize : Nat} (hpos : payload ≠ [])
    (hmax : payload.length ≤ maxSize) (hsize : maxSize < 2 ^ 32) (rest : Bytes) :
    readLengthPrefixed (writeLengthPrefixed payload ++ rest) maxSize = .ok (payload, rest) := by
  have hlen : (putUint32 payload.length).length = 4 := rfl
  have htake : (writeLengthPrefixed payload ++ rest).take 4 = putUint32 payload.length := by
    rw [writeLengthPrefixed, List.append_assoc, ← hlen, List.take_left]
  have hdrop : (writeLengthPrefixed payload ++ rest).drop 4 = payload ++ rest := by
    rw [writeLengthPrefixed, List.append_assoc, ← hlen, List.drop_left]
  have hne : payload.length ≠ 0 := by simpa using hpos
  simp only [readLengthPrefixed, bind_eq_ok, rejectIf_eq_ok, pure_eq_ok, exists_const, htake, hdrop,
    bigEndian_putUint32 (lt_of_le_of_lt hmax hsize)]
  simp [writeLengthPrefixed, hlen, hpos, hmax]

/-- `signingPayload`. -/
def signingPayload (version kind : UInt8) (nodeID : String) (eph : Bytes) : Bytes :=
  bytes "vx6-secure\n" ++ [version] ++ bytes "\n" ++ [kind] ++ bytes "\n" ++ bytes nodeID ++
    bytes "\n" ++ eph

/-- `readHello`. -/
def readHello (rt : SessionRuntime) (stream : Bytes) (kind : UInt8) :
    Panicking SessionError Hello := do
  let (payload, _) ← attempt (readLengthPrefixed stream maxHandshakeSize)
  let h ← attempt (orReject (rt.unmarshalHello payload) .decodeHandshake)
  let pub ← attempt (orReject (stdEncoding.decodeString h.publicKey) .decodePublicKey)
  let sig ← attempt (orReject (stdEncoding.decodeString h.signature) .decodeSignature)
  let eph ← attempt (orReject (stdEncoding.decodeString h.ephemeral) .decodeEphemeral)
  attempt (rejectIf (nodeIDFromPublicKey rt.toCrypto pub ≠ h.nodeID) .nodeIDMismatch)
  -- the size of the key has not been looked at
  let verified ← rt.toCrypto.verify pub (signingPayload h.version kind h.nodeID eph) sig
  attempt (rejectIf (!verified) .signatureMismatch)
  return h

/-- The stream holds a `hello` that decodes in all its parts and whose node ID belongs to the key. -/
structure WellFormedHello (rt : SessionRuntime) (stream : Bytes) (h : Hello) (pub : Bytes) : Prop where
  payload : ∃ payload rest, readLengthPrefixed stream maxHandshakeSize = .ok (payload, rest) ∧
    rt.unmarshalHello payload = some h
  publicKey : stdEncoding.decodeString h.publicKey = some pub
  signature : (stdEncoding.decodeString h.signature).isSome = true
  ephemeral : (stdEncoding.decodeString h.ephemeral).isSome = true
  nodeID : nodeIDFromPublicKey rt.toCrypto pub = h.nodeID

/-- Reading a `hello` does not panic exactly when a well-formed one has a key of 32 bytes. -/
theorem safe_readHello_iff (rt : SessionRuntime) (stream : Bytes) (kind : UInt8) :
    Safe (readHello rt stream kind) ↔
      ∀ h pub, WellFormedHello rt stream h pub → pub.length = publicKeySize := by
  simp only [readHello, Crypto.verify, safe_attempt_bind_iff, safe_guarded_bind_iff, orReject_eq_ok,
    rejectIf_eq_ok]
  constructor
  · rintro hsafe h pub ⟨⟨payload, rest, hread, hdecode⟩, hpub, hsig, heph, hid⟩
    obtain ⟨sig, hsig⟩ := Option.isSome_iff_exists.1 hsig
    obtain ⟨eph, heph⟩ := Option.isSome_iff_exists.1 heph
    exact (hsafe _ hread h hdecode pub hpub sig hsig eph heph () (by simpa using hid)).1
  · intro hkey p hread h hdecode pub hpub sig hsig eph heph _ hid
    refine ⟨?_, fun _ _ => safe_pure h⟩
    exact hkey h pub ⟨⟨p.1, p.2, hread, hdecode⟩, hpub, by simp [hsig], by simp [heph], by
      simpa using hid⟩

/-- The key of a `hello` that was read has 32 bytes: a signature was checked with it. -/
theorem publicKey_of_readHello {rt : SessionRuntime} {stream pub : Bytes} {kind : UInt8} {h : Hello}
    (hread : Returns (readHello rt stream kind) h)
    (hpub : stdEncoding.decodeString h.publicKey = some pub) : pub.length = publicKeySize := by
  simp only [readHello, Crypto.verify, returns_bind_iff, returns_attempt_iff, returns_guarded_iff,
    returns_pure_iff, orReject_eq_ok] at hread
  obtain ⟨_, -, _, -, pub', hpub', _, -, _, -, -, -, _, ⟨hsize, -⟩, -, -, rfl⟩ := hread
  rw [hpub] at hpub'
  cases hpub'
  exact hsize

end Secure

end Vx6
