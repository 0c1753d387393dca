import Vx6.Panics.Signatures

/-!
# Decoding hidden descriptors

`DecodeHiddenServiceRecord` of `internal/dht/hidden_descriptor.go`: the descriptor is taken out of its
envelope, decrypted with a key derived from the lookup reference, and the record inside is verified
and compared with the descriptor. AES-GCM panics on a nonce that does not have 12 bytes.
`safe_decodeHiddenServiceRecord_iff` says for which stored values decoding does not panic.
-/

set_option autoImplicit false

namespace Vx6.Dht

open Vx6.Go Vx6.Lib Vx6.Record

/-- `gcm.NonceSize()`. -/
def gcmNonceSize : Nat := 12

/-- The primitives of decryption: those of the DHT, AES-GCM `Open` (key, nonce, ciphertext, additional
data), and JSON decoding of a plaintext into a wrapped record and into a bare one. -/
structure CipherRuntime extends Runtime where
  gcmOpen : Bytes → Bytes → Bytes → Bytes → Option Bytes
  unmarshalPayload : Bytes → Option ServiceRecord
  unmarshalPlainRecord : Bytes → Option ServiceRecord

/-- `gcm.Open` with the precondition it has: it panics unless the nonce has 12 bytes. -/
def gcmOpenWith {ε : Type} (gcmOpen : Bytes → Bytes → Bytes → Bytes → Option Bytes)
    (key nonce ciphertext additional : Bytes) : Panicking ε (Option Bytes) :=
  guarded (nonce.length = gcmNonceSize) (gcmOpen key nonce ciphertext additional)

/-- `HiddenLookupRef`. -/
structure HiddenLookupRef where
  aliasName : String
  secret : String := ""
  deriving DecidableEq, Repr

/-- The errors of `DecodeHiddenServiceRecord`. -/
inductive DescriptorError where
  | value (e : ValueError)
  | emptyReference
  | aliasName (e : RecordError)
  | emptySecret
  | secretCharacters
  | secretLength
  | decodeNonce
  | decodeCiphertext
  | decrypt
  | decodeRecord
  | aliasMismatch (found wanted : String)
  | nodeIDMismatch (found wanted : String)
  | timesMismatch
  | tagMismatch
  | decodeLegacy
  deriving DecidableEq, Repr

/-- `ValidateHiddenLookupSecret`. -/
def validateHiddenLookupSecret (secret : String) : Except DescriptorError Unit := do
  rejectIf (trimSpace secret = "") .emptySecret
  rejectIf (containsAny secret " \t\r\n/#") .secretCharacters
  rejectIf (len secret < 16) .secretLength

/-- `ParseHiddenLookupRef`. -/
def parseHiddenLookupRef (input : String) : Except DescriptorError HiddenLookupRef := do
  let input := trimSpace input
  rejectIf (input = "") .emptyReference
  match cut input '#' with
  | none =>
      (validateHiddenAlias input).mapError .aliasName
      return { aliasName := input }
  | some (aliasName, secret) =>
      (validateHiddenAlias aliasName).mapError .aliasName
      validateHiddenLookupSecret (trimSpace secret)
      return { aliasName := aliasName, secret := trimSpace secret }

/-- `hiddenDescriptorCipherKey`. -/
def hiddenDescriptorCipherKey (cr : Crypto) (aliasName secret : String) (epoch : Int) : Bytes :=
  let lookupSecret := if secret ≠ "" then secret else aliasName
  cr.sum ("vx6-hidden-desc-v1-key\n" ++ aliasName ++ "\n" ++ lookupSecret ++ "\n" ++ formatInt epoch)

/-- `hiddenDescriptorAAD`. -/
def hiddenDescriptorAAD (lookupKey serviceTag nodeID : String) : Bytes :=
  bytes ("vx6-hidden-desc-v1\n" ++ lookupKey ++ "\n" ++ serviceTag ++ "\n" ++ nodeID ++ "\n")

/-- `extractLookupPayload`. -/
def extractLookupPayload (rt : Runtime) (lookupKey storedValue : String) (now : Time) :
    Except ValueError String := do
  match ← maybeDecodeEnvelope rt storedValue with
  | some env =>
      let _ ← verifyEnvelope rt lookupKey env now
      return env.value
  | none => return storedValue

/-- `extractHiddenDescriptor`. -/
def extractHiddenDescriptor (rt : Runtime) (lookupKey storedValue : String) (now : Time) :
    Except ValueError HiddenDescriptor := do
  let payload ← extractLookupPayload rt lookupKey storedValue now
  parseHiddenDescriptor rt payload

end Vx6.Dht

namespace Vx6.Panics

open Vx6.Go Vx6.Lib Vx6.Record Vx6.Dht

/-! ## The functions with the partial calls -/

/-- `extractLookupPayload`. -/
def extractLookupPayload (rt : Runtime) (lookupKey storedValue : String) (now : Time) :
    Panicking ValueError String := do
  match ← attempt (maybeDecodeEnvelope rt storedValue) with
  | some env =>
      verifyEnvelope rt lookupKey env now
      return env.value
  | none => return storedValue

/-- `extractHiddenDescriptor`. -/
def extractHiddenDescriptor (rt : Runtime) (lookupKey storedValue : String) (now : Time) :
    Panicking ValueError HiddenDescriptor := do
  let payload ← extractLookupPayload rt lookupKey storedValue now
  attempt (parseHiddenDescriptor rt payload)

/-- The key check of `decodeLegacyHiddenServiceRecord`. -/
def checkLegacyKey (rt : Runtime) (lookupKey aliasName : String) : Except ValueError Unit := do
  if hasPrefix lookupKey "hidden-desc/v1/" then
    let epoch ← parseHiddenDescriptorEpoch lookupKey
    rejectIf (hiddenServiceKeyForRefEpoch rt.toCrypto aliasName "" epoch ≠ lookupKey)
      (.hiddenDescriptorBlindedKey lookupKey
        (hiddenServiceKeyForRefEpoch rt.toCrypto aliasName "" epoch))

/-- `decodeLegacyHiddenServiceRecord`. -/
def decodeLegacyHiddenServiceRecord (rt : Runtime) (lookupKey storedValue aliasName : String)
    (now : Time) : Panicking DescriptorError ServiceRecord := do
  let payload ← wrap .value (extractLookupPayload rt lookupKey storedValue now)
  let rec ← attempt (orReject (rt.unmarshalService payload) .decodeLegacy)
  wrap (fun e => .value (.record e)) (verifyServiceRecord rt.toCrypto rec now)
  attempt (rejectIf (!rec.isHidden || rec.aliasName ≠ aliasName)
    (.aliasMismatch rec.aliasName aliasName))
  attempt ((checkLegacyKey rt lookupKey rec.aliasName).mapError .value)
  return rec

/-- The record in a plaintext: wrapped with padding, or bare. -/
def decodePlaintext (rt : CipherRuntime) (plaintext : Bytes) : Option ServiceRecord :=
  match rt.unmarshalPayload plaintext with
  | some rec =>
      if rec.nodeID = "" ∨ rec.serviceName = "" then rt.unmarshalPlainRecord plaintext else some rec
  | none => rt.unmarshalPlainRecord plaintext

/-- The comparison of a decrypted record with its descriptor. -/
def checkDecrypted (cr : Crypto) (ref : HiddenLookupRef) (desc : HiddenDescriptor)
    (rec : ServiceRecord) : Except DescriptorError Unit := do
  rejectIf (!rec.isHidden || rec.aliasName ≠ ref.aliasName)
    (.aliasMismatch rec.aliasName ref.aliasName)
  rejectIf (rec.nodeID ≠ desc.nodeID) (.nodeIDMismatch desc.nodeID rec.nodeID)
  rejectIf (rec.issuedAt ≠ desc.issuedAt || rec.expiresAt ≠ desc.expiresAt) .timesMismatch
  rejectIf (hiddenServiceTag cr rec ≠ desc.serviceTag) .tagMismatch

/-- `DecodeHiddenServiceRecord` for a value that holds a descriptor. -/
def decryptDescriptor (rt : CipherRuntime) (lookupKey lookup : String) (desc : HiddenDescriptor)
    (now : Time) : Panicking DescriptorError ServiceRecord := do
  let ref ← attempt (parseHiddenLookupRef lookup)
  let epoch ← attempt ((parseHiddenDescriptorEpoch lookupKey).mapError .value)
  let key := hiddenDescriptorCipherKey rt.toCrypto ref.aliasName ref.secret epoch
  let nonce ← attempt (orReject (rawURLEncoding.decodeString desc.nonce) .decodeNonce)
  let ciphertext ← attempt (orReject (rawURLEncoding.decodeString desc.ciphertext) .decodeCiphertext)
  -- the size of the nonce has not been looked at
  let opened ← gcmOpenWith rt.gcmOpen key nonce ciphertext
    (hiddenDescriptorAAD lookupKey desc.serviceTag desc.nodeID)
  let plaintext ← attempt (orReject opened .decrypt)
  let rec ← attempt (orReject (decodePlaintext rt plaintext) .decodeRecord)
  wrap (fun e => .value (.record e)) (verifyServiceRecord rt.toCrypto rec now)
  attempt (checkDecrypted rt.toCrypto ref desc rec)
  return rec

/-- `DecodeHiddenServiceRecord`. -/
def decodeHiddenServiceRecord (rt : CipherRuntime) (lookupKey storedValue lookup : String)
    (now : Time) : Panicking DescriptorError ServiceRecord := do
  match ← caught (extractHiddenDescriptor rt.toRuntime lookupKey storedValue now) with
  | .ok desc => decryptDescriptor rt lookupKey lookup desc now
  | .error e =>
      match ← caught (decodeLegacyHiddenServiceRecord rt.toRuntime lookupKey storedValue lookup now) with
      | .ok legacy => return legacy
      | .error _ => attempt (.error (.value e))

/-! ## When decoding does not panic -/

section Safety

theorem extractLookupPayload_refines (rt : Runtime) (lookupKey storedValue : String) (now : Time) :
    Refines (extractLookupPayload rt lookupKey storedValue now)
      (Dht.extractLookupPayload rt lookupKey storedValue now) id := by
  refine .attempt_bind fun env _ => ?_
  cases env with
  | none => rfl
  | some env => exact (verifyEnvelope_refines rt lookupKey env now).bind fun _ _ => rfl

theorem extractHiddenDescriptor_refines (rt : Runtime) (lookupKey storedValue : String) (now : Time) :
    Refines (extractHiddenDescriptor rt lookupKey storedValue now)
      (Dht.extractHiddenDescriptor rt lookupKey storedValue now) id := by
  refine (extractLookupPayload_refines rt lookupKey storedValue now).bind fun payload _ => ?_
  exact refines_attempt _

theorem safe_decodeLegacyHiddenServiceRecord (rt : Runtime) (lookupKey storedValue aliasName : String)
    (now : Time) : Safe (decodeLegacyHiddenServiceRecord rt lookupKey storedValue aliasName now) := by
  refine ((extractLookupPayload_refines rt lookupKey storedValue now).wrap _).safe_bind fun _ => ?_
  refine safe_attempt_bind_iff.2 fun rec _ => ?_
  refine ((verifyServiceRecord_refines rt.toCrypto rec now).wrap _).safe_bind fun _ => ?_
  exact safe_attempt_bind_iff.2 fun _ _ => safe_attempt_bind_iff.2 fun _ _ => safe_pure rec

theorem decodes_of_extract {rt : Runtime} {lookupKey storedValue : String} {now : Time}
    {desc : HiddenDescriptor}
    (h : Dht.extractHiddenDescriptor rt lookupKey storedValue now = .ok desc) :
    ∃ ciphertext, rawURLEncoding.decodeString desc.ciphertext = some ciphertext := by
  simp only [Dht.extractHiddenDescriptor, parseHiddenDescriptor, bind_eq_ok, rejectIf_eq_ok,
    orReject_eq_ok, pure_eq_ok, exists_const] at h
  obtain ⟨payload, -, desc', -, -, issuedAt, -, expiresAt, -, nonce, -, ciphertext, hc, rfl⟩ := h
  exact ⟨ciphertext, hc⟩

/-- What follows the decryption does not panic. -/
theorem safe_decryptDescriptor_iff (rt : CipherRuntime) (lookupKey lookup : String)
    (desc : HiddenDescriptor) (now : Time) :
    Safe (decryptDescriptor rt lookupKey lookup desc now) ↔
      ∀ ref epoch nonce ciphertext, parseHiddenLookupRef lookup = .ok ref →
        parseHiddenDescriptorEpoch lookupKey = .ok epoch →
        rawURLEncoding.decodeString desc.nonce = some nonce →
        rawURLEncoding.decodeString desc.ciphertext = some ciphertext →
        nonce.length = gcmNonceSize := by
  simp only [decryptDescriptor, gcmOpenWith, safe_attempt_bind_iff, safe_guarded_bind_iff,
    orReject_eq_ok, mapError_eq_ok]
  constructor
  · intro hsafe ref epoch nonce ciphertext href hepoch hnonce hciphertext
    exact (hsafe ref href epoch hepoch nonce hnonce ciphertext hciphertext).1
  · intro hnonce ref href epoch hepoch nonce hn ciphertext hc
    refine ⟨hnonce ref epoch nonce ciphertext href hepoch hn hc, ?_⟩
    intro plaintext _ rec _
    refine ((verifyServiceRecord_refines rt.toCrypto rec now).wrap _).safe_bind fun _ => ?_
    exact safe_attempt_bind_iff.2 fun _ _ => safe_pure rec

/-- Decoding a stored value does not panic exactly when the descriptor in it, if there is one and the
lookup gets to its decryption, has a nonce of 12 bytes. -/
theorem safe_decodeHiddenServiceRecord_iff (rt : CipherRuntime) (lookupKey storedValue lookup : String)
    (now : Time) :
    Safe (decodeHiddenServiceRecord rt lookupKey storedValue lookup now) ↔
      ∀ desc ref epoch nonce,
        Dht.extractHiddenDescriptor rt.toRuntime lookupKey storedValue now = .ok desc →
        parseHiddenLookupRef lookup = .ok ref → parseHiddenDescriptorEpoch lookupKey = .ok epoch →
        rawURLEncoding.decodeString desc.nonce = some nonce → nonce.length = gcmNonceSize := by
  have hextract : (extractHiddenDescriptor rt.toRuntime lookupKey storedValue now).run =
      some (Dht.extractHiddenDescriptor rt.toRuntime lookupKey storedValue now) := by
    rw [extractHiddenDescriptor_refines rt.toRuntime lookupKey storedValue now, Except.map_id]
    rfl
  rw [decodeHiddenServiceRecord, safe_caught_bind_iff, hextract]
  simp only [Option.some.injEq, exists_eq_left']
  cases h : Dht.extractHiddenDescriptor rt.toRuntime lookupKey storedValue now with
  | error e =>
    have hlegacy := safe_decodeLegacyHiddenServiceRecord rt.toRuntime lookupKey storedValue lookup now
    obtain ⟨r, hr⟩ := Option.ne_none_iff_exists'.1 hlegacy
    refine iff_of_true (safe_caught_bind_iff.2 ⟨r, hr, ?_⟩) (by simp)
    cases r with
    | error _ => exact safe_attempt _
    | ok legacy => exact safe_pure legacy
  | ok desc =>
    rw [safe_decryptDescriptor_iff]
    constructor
    · intro hsafe desc' ref epoch nonce hdesc href hepoch hnonce
      cases hdesc
      -- a descriptor that was extracted has a ciphertext that decodes
      obtain ⟨ciphertext, hciphertext⟩ := decodes_of_extract h
      exact hsafe ref epoch nonce ciphertext href hepoch hnonce hciphertext
    · intro hnonce ref epoch nonce _ href hepoch hn _
      exact hnonce desc ref epoch nonce rfl href hepoch hn

end Safety

end Vx6.Panics
