import Vx6.Dht.Value
import Vx6.Go.Json
import Vx6.Go.Sha256

/-!
# Publication

`prepareStoreValue` and `wrapSignedEnvelope`: before a verified value is sent to the replicas, its
publisher wraps it in an envelope that repeats the fields of the value. The checks that compare an
envelope with its value hold of such an envelope by construction (`checkWrapped_envelopeFor`), so
that only the checks on the envelope itself remain (`validateLookupValue_envelopeFor`).

The last section fixes one identity with four endpoint records, their envelopes and their Ed25519
signatures, on which the definitions can be evaluated.
-/

set_option autoImplicit false

namespace Vx6.Dht

open Vx6.Go Vx6.Lib Vx6.Record

/-! ## JSON texts -/

/-- A member that is left out when its number is zero. -/
def omitZero (name : String) (n : Nat) : List (String × String) :=
  if n = 0 then [] else [(name, formatInt n)]

/-- `json.Marshal` of an endpoint record. -/
def marshalEndpoint (rec : EndpointRecord) : String :=
  jsonObject (omitZero "record_version" rec.version.toNat ++
    omitZero "record_sequence" rec.sequence.toNat ++
    [("node_id", jsonString rec.nodeID), ("node_name", jsonString rec.nodeName),
     ("address", jsonString rec.address), ("public_key", jsonString rec.publicKey),
     ("issued_at", jsonString rec.issuedAt), ("expires_at", jsonString rec.expiresAt),
     ("signature", jsonString rec.signature)])

/-- `json.Marshal` of an envelope. -/
def marshalEnvelope (env : SignedEnvelope) : String :=
  jsonObject ([("key", jsonString env.key), ("value", jsonString env.value)] ++
    (if env.originNodeID = "" then [] else [("origin_node_id", jsonString env.originNodeID)]) ++
    [("publisher_node_id", jsonString env.publisherNodeID),
     ("publisher_public_key", jsonString env.publisherPublicKey),
     ("version", formatInt env.version.toNat), ("issued_at", jsonString env.issuedAt),
     ("expires_at", jsonString env.expiresAt), ("observed_at", jsonString env.observedAt),
     ("signature", jsonString env.signature)])

/-- The text of an envelope determines its key and its value. -/
theorem marshalEnvelope_inj {env env' : SignedEnvelope}
    (h : marshalEnvelope env = marshalEnvelope env') : env.key = env'.key ∧ env.value = env'.value := by
  have hm := (String.append_right_inj _).1 h
  simp only [List.cons_append, List.nil_append] at hm
  obtain ⟨hkey, hm⟩ := jsonMembers_append_inj hm
  refine ⟨hkey, ?_⟩
  split_ifs at hm with h1 h2 h2
  · exact (jsonMembers_append_inj hm).1
  · exact (jsonMembers_append_inj hm).1
  · exact (jsonMembers_append_inj hm).1
  · exact (jsonMembers_append_inj hm).1

/-! ## Wrapping -/

/-- The identity that publishes: `identity.Identity` with the private key as the function that
signs with it. -/
structure Publisher where
  nodeID : String
  publicKey : Bytes
  sign : Bytes → Bytes

/-- The envelope `wrapSignedEnvelope` builds for a publisher, before it is signed. -/
def envelopeFor (nodeID : String) (publicKey : Bytes) (key value : String) (info : ValidatedValue)
    (now : Time) : SignedEnvelope :=
  { key := key
    value := value
    originNodeID := info.originNodeID
    publisherNodeID := nodeID
    publisherPublicKey := stdEncoding.encodeToString publicKey
    version := info.version
    issuedAt := formatRFC3339 info.issuedAt
    expiresAt := formatRFC3339 info.expiresAt
    observedAt := formatRFC3339 (if now < info.issuedAt then info.issuedAt else now) }

/-- `signEnvelope`. -/
def signEnvelope (id : Publisher) (env : SignedEnvelope) : String :=
  stdEncoding.encodeToString (id.sign (bytes (envelopeSigningPayload env)))

/-- The envelope `wrapSignedEnvelope` makes. -/
def signedEnvelopeFor (id : Publisher) (key value : String) (info : ValidatedValue) (now : Time) :
    SignedEnvelope :=
  let env := envelopeFor id.nodeID id.publicKey key value info now
  { env with signature := signEnvelope id env }

/-- `wrapSignedEnvelope` for a valid identity and a verified value. -/
def wrapSignedEnvelope (id : Publisher) (key value : String) (info : ValidatedValue) (now : Time) :
    String :=
  marshalEnvelope (signedEnvelopeFor id key value info now)

section Wrapped

variable {rt : Runtime} {nodeID : String} {publicKey : Bytes} {key value raw signature : String}
  {info : ValidatedValue} {wrapped now : Time}

/-- An envelope built for a value repeats its fields. -/
theorem checkWrapped_envelopeFor :
    checkWrapped { envelopeFor nodeID publicKey key value info wrapped with signature := signature }
      info = .ok () := by
  simp [checkWrapped, checkEnvelopeFields, envelopeFor, rejectIf, bind, Except.bind]

/-- A text that decodes to the envelope built for a valid value validates as soon as the envelope
itself does. -/
theorem validateLookupValue_envelopeFor {env : SignedEnvelope}
    (hdef : env = { envelopeFor nodeID publicKey key value info wrapped with
      signature := signature })
    (hdec : maybeDecodeEnvelope rt raw = .ok (some env))
    (henv : ∃ s, verifyEnvelope rt key env now = .ok s)
    (hinner : validateInnerLookupValue rt key value now = .ok info) :
    validateLookupValue rt key raw now = .ok (wrapValue raw env info) := by
  obtain ⟨s, hs⟩ := henv
  have hvalue : env.value = value := by rw [hdef]; rfl
  have hcheck : checkWrapped env info = .ok () := by rw [hdef]; exact checkWrapped_envelopeFor
  simp only [validateLookupValue, hdec, validateEnveloped, hs, hvalue, hinner, hcheck, bind,
    Except.bind, pure, Except.pure]

end Wrapped

/-! ## A sample identity -/

/-- The public key of the sample identity. -/
def samplePublicKey : String := "AU9u7AClT0vU9sBfOifEJJ23lE3rW3LnEd/q/hARJDg="

/-- An endpoint record of the sample identity. -/
def sampleRecord (version : UInt8) (sequence : UInt64) (issuedAt signature : String) :
    EndpointRecord :=
  { version := version
    sequence := sequence
    nodeID := "vx6_eb7ca8c106b6df9b0241f567243e33ef88dc44383b69981ab40d09196c6e5500"
    nodeName := "ALPHA"
    address := "[2001:db8::1]:4242"
    publicKey := samplePublicKey
    issuedAt := issuedAt
    expiresAt := "2030-01-01T00:00:00Z"
    signature := signature }

/-- A legacy record; its issue time is 1700000000 in Unix seconds. -/
def legacyRecord : EndpointRecord :=
  sampleRecord 0 0 "2023-11-14T22:13:20Z"
    "8ANcG+M8DODB686hS5MZtmt8KfkPvzSjvVevE9ku9Xbxit9fOt0+c/gAd3pdKXL3BeO2ZQ3V6W8WQiFzInu8CQ=="

/-- A version 2 record with the first sequence number. -/
def firstRecord : EndpointRecord :=
  sampleRecord 2 1 "2024-01-01T00:00:00Z"
    "eUErPqRI1spKp0aHIq+YtSLI0vEiv/SX0kpQv4r6Ial3d3FFKxPtktNb0jIm9fdxDK3jPRR8F3vcMcGjYKQqDQ=="

/-- A version 2 record issued before the legacy one, with the sequence number 1700000000. -/
def earlyRecord : EndpointRecord :=
  sampleRecord 2 1700000000 "2023-11-14T22:00:01Z"
    "CNIllkWUaGU4IJjGVi0fA7PsvUMVpxH/11VSJMxVofLxzS1UFO0UL/+kclaQObiFdwu4HWPZrt092X7E/+TNCA=="

/-- A version 2 record issued after the legacy one, with the sequence number 1700000000. -/
def lateRecord : EndpointRecord :=
  sampleRecord 2 1700000000 "2023-11-14T22:30:01Z"
    "D4iWi/frplIcL0o2lMwwveAprKT4xfuzB5gMTlJRVeWwmC5acCSL3GYg5BVrg1NhXsOsKhBEgvphcyAHs32dAA=="

/-- The node ID of the sample identity. -/
def sampleNodeID : String := legacyRecord.nodeID

/-- The key of the sample records. -/
def sampleKey : String := nodeIDKey sampleNodeID

/-- The time at which the samples are wrapped and validated, 2024-06-01T00:00:00Z. -/
def sampleNow : Time := 1717200000 * second

/-- The validated value of a sample record. -/
def sampleInner (cr : Crypto) (rec : EndpointRecord) : ValidatedValue :=
  endpointValue cr (marshalEndpoint rec) rec
    { issuedAt := (parseRFC3339 rec.issuedAt).getD 0
      expiresAt := (parseRFC3339 rec.expiresAt).getD 0
      version := toUInt64 (unix ((parseRFC3339 rec.issuedAt).getD 0)) }

/-- The signature of the envelope of `legacyRecord`. -/
def legacySignature : String :=
  "71yLycQ4Nt98rkWbR/kEVwAqoM5BSim9WSl/Q12pCPPG8Y4F8UqOvPF05YPQly6SlqU0A/lJq3VH51W+qSHkCA=="

/-- The signature of the envelope of `firstRecord`. -/
def firstSignature : String :=
  "oFXbayMyFkymyBabbLy+AyKspc9crNIXZgBndXGsVWflKKoThBV76+Uz2lnVckDC7iV1LFNhL5ppnSs0f7D/Bw=="

/-- The signature of the envelope of `earlyRecord`. -/
def earlySignature : String :=
  "QAM5KfhEbctnRMNz8f6snMDsZ4YT0T8nW4n3aEPjE94tSKetaUwPGX11jOdjO0Qop1qLUJpIRWRLJTfhmMfYAQ=="

/-- The signature of the envelope of `lateRecord`. -/
def lateSignature : String :=
  "o95me+aQUsrLIZt4zM3gLFIzx8gHOczkluo7E5os/SALMqDD+T8614C+YHeEvPcfK/omfITQihSxlKvjaaEoAw=="

/-- The records of the sample identity, with the signatures of their envelopes. -/
def samples : List (EndpointRecord × String) :=
  [(legacyRecord, legacySignature), (firstRecord, firstSignature), (earlyRecord, earlySignature),
   (lateRecord, lateSignature)]

theorem legacy_mem : (legacyRecord, legacySignature) ∈ samples := by simp [samples]

theorem first_mem : (firstRecord, firstSignature) ∈ samples := by simp [samples]

theorem early_mem : (earlyRecord, earlySignature) ∈ samples := by simp [samples]

theorem late_mem : (lateRecord, lateSignature) ∈ samples := by simp [samples]

/-- The envelope of a sample record, made by the sample identity. -/
def sampleEnvelope (rec : EndpointRecord) (signature : String) : SignedEnvelope :=
  { envelopeFor sampleNodeID ((stdEncoding.decodeString samplePublicKey).getD []) sampleKey
      (marshalEndpoint rec) (sampleInner ⟨sha256, fun _ _ _ => false⟩ rec) sampleNow with
    signature := signature }

/-- SHA-256, and the signatures of the samples as the only valid ones. -/
def sampleCrypto : Crypto :=
  { sha256 := sha256
    ed25519Verify := fun key message signature =>
      stdEncoding.decodeString samplePublicKey = some key && samples.any fun p =>
        bytes (signingPayload p.1) = message &&
            stdEncoding.decodeString p.1.signature = some signature ||
          bytes (envelopeSigningPayload (sampleEnvelope p.1 p.2)) = message &&
            stdEncoding.decodeString p.2 = some signature }

/-- The JSON decoders on the sample texts. The text of a bare record decodes as an envelope too,
with the three members the two formats share. -/
def sampleRuntime : Runtime :=
  { Runtime.withoutDecoders sampleCrypto fun _ => "null" with
    decodeEndpoint := fun raw =>
      (samples.find? fun p => marshalEndpoint p.1 = raw).map fun p => p.1
    unmarshalEnvelope := fun raw =>
      match samples.find? fun p => marshalEnvelope (sampleEnvelope p.1 p.2) = raw with
      | some p => some (sampleEnvelope p.1 p.2)
      | none =>
          (samples.find? fun p => marshalEndpoint p.1 = raw).map fun p =>
            { issuedAt := p.1.issuedAt, expiresAt := p.1.expiresAt, signature := p.1.signature }
    decodeEndpoint_empty := by simp [marshalEndpoint, jsonObject_ne_empty]
    unmarshalEnvelope_empty := by
      have hnone : samples.find? (fun _ => false) = none := rfl
      simp [marshalEndpoint, marshalEnvelope, jsonObject_ne_empty, hnone] }

/-! ### The samples validate -/

theorem find?_eq_of_nodup_map {α : Type} (f : α → String) :
    ∀ {l : List α}, (l.map f).Nodup → ∀ {a : α}, a ∈ l → l.find? (fun x => f x = f a) = some a := by
  intro l
  induction l with
  | nil => intro _ a ha; cases ha
  | cons b l ih =>
    intro hnd a ha
    rw [List.map_cons, List.nodup_cons] at hnd
    rcases List.mem_cons.1 ha with rfl | ha
    · simp
    · have hne : f b ≠ f a := fun h => hnd.1 (h ▸ List.mem_map_of_mem ha)
      simp [hne, ih hnd.2 ha]

theorem samples_nodup : (samples.map fun p => marshalEndpoint p.1).Nodup := by decide +kernel

theorem sampleEnvelopes_nodup : (samples.map fun p => marshalEnvelope (sampleEnvelope p.1 p.2)).Nodup := by
  have h := samples_nodup
  rw [List.Nodup, List.pairwise_map] at h ⊢
  exact h.imp fun hne he => hne (marshalEnvelope_inj he).2

/-- Everything that is evaluated on the samples: the records verify, their times parse, and their
envelopes are complete, well encoded and in force. -/
theorem samples_checks :
    ∀ p ∈ samples, (verifyEndpointRecord sampleCrypto p.1 sampleNow).toOption = some () ∧
      ((parseRFC3339 p.1.issuedAt).isSome = true ∧
        (parseRFC3339 p.1.expiresAt).isSome = true ∧ p.1.nodeID = sampleNodeID) ∧
      ¬ ((sampleEnvelope p.1 p.2).key = "" ∨ (sampleEnvelope p.1 p.2).value = "" ∨
        (sampleEnvelope p.1 p.2).publisherNodeID = "" ∨
        (sampleEnvelope p.1 p.2).publisherPublicKey = "" ∨ (sampleEnvelope p.1 p.2).signature = "" ∨
        (sampleEnvelope p.1 p.2).issuedAt = "" ∨ (sampleEnvelope p.1 p.2).expiresAt = "" ∨
        (sampleEnvelope p.1 p.2).observedAt = "" ∨ (sampleEnvelope p.1 p.2).version = 0) ∧
      (stdEncoding.decodeString p.2).map List.length = some Vx6.signatureSize ∧
      parseRFC3339 (sampleEnvelope p.1 p.2).issuedAt = some (sampleInner sampleCrypto p.1).issuedAt ∧
      parseRFC3339 (sampleEnvelope p.1 p.2).expiresAt = some (sampleInner sampleCrypto p.1).expiresAt ∧
      parseRFC3339 (sampleEnvelope p.1 p.2).observedAt = some sampleNow ∧
      (sampleInner sampleCrypto p.1).issuedAt ≤ sampleNow ∧
      sampleNow < (sampleInner sampleCrypto p.1).expiresAt := by
  decide +kernel

theorem samples_times :
    ∀ p ∈ samples, (parseRFC3339 p.1.issuedAt).isSome = true ∧
      (parseRFC3339 p.1.expiresAt).isSome = true ∧ p.1.nodeID = sampleNodeID :=
  fun p hp => (samples_checks p hp).2.1

set_option maxRecDepth 4000 in
theorem sampleKey_family : keyFamily sampleKey = .nodeID := by decide

set_option maxRecDepth 4000 in
theorem trimPrefix_sampleKey : trimPrefix sampleKey "node/id/" = sampleNodeID := by decide

section Sample

variable {rec : EndpointRecord} {signature : String}

theorem decodeEndpoint_sample (hp : (rec, signature) ∈ samples) :
    sampleRuntime.decodeEndpoint (marshalEndpoint rec) = some rec := by
  have h := find?_eq_of_nodup_map _ samples_nodup hp
  simp only at h
  simp [sampleRuntime, h]

theorem validateInnerLookupValue_sample (hp : (rec, signature) ∈ samples) :
    validateInnerLookupValue sampleRuntime sampleKey (marshalEndpoint rec) sampleNow =
      .ok (sampleInner sampleCrypto rec) := by
  have hver : verifyEndpointRecord sampleRuntime.toCrypto rec sampleNow = .ok () :=
    ok_of_toOption (samples_checks _ hp).1
  obtain ⟨hi, he, hid⟩ := samples_times _ hp
  obtain ⟨issuedAt, hi⟩ := Option.isSome_iff_exists.1 hi
  obtain ⟨expiresAt, he⟩ := Option.isSome_iff_exists.1 he
  dsimp only at hi he hid
  simp [validateInnerLookupValue, sampleKey_family, validateEndpoint, decodeEndpoint_sample hp,
    hver, checkIDKey, hid,
    trimPrefix_sampleKey, recordTimes, hi, he, liftRecord, Except.mapError, orReject, rejectIf,
    sampleInner, bind, Except.bind, pure, Except.pure]
  rfl

theorem maybeDecodeEnvelope_sample (hp : (rec, signature) ∈ samples) :
    maybeDecodeEnvelope sampleRuntime (marshalEnvelope (sampleEnvelope rec signature)) =
      .ok (some (sampleEnvelope rec signature)) := by
  have hdec : sampleRuntime.unmarshalEnvelope (marshalEnvelope (sampleEnvelope rec signature)) =
      some (sampleEnvelope rec signature) := by
    simp [sampleRuntime, find?_eq_of_nodup_map _ sampleEnvelopes_nodup hp]
  have hfields := (samples_checks _ hp).2.2.1
  have hkey : (sampleEnvelope rec signature).key ≠ "" := fun h => hfields (Or.inl h)
  simp only [maybeDecodeEnvelope, hdec, if_neg hfields]
  rw [if_neg fun h => hkey h.1]

theorem samplePublicKey_checks :
    ∃ key, stdEncoding.decodeString samplePublicKey = some key ∧
      stdEncoding.decodeString (stdEncoding.encodeToString key) = some key ∧
      key.length = Vx6.publicKeySize ∧ nodeIDFromPublicKey sampleCrypto key = sampleNodeID :=
  ⟨(stdEncoding.decodeString samplePublicKey).getD [], by decide +kernel⟩

theorem verifyEnvelope_sample (hp : (rec, signature) ∈ samples) :
    ∃ s, verifyEnvelope sampleRuntime sampleKey (sampleEnvelope rec signature) sampleNow = .ok s := by
  obtain ⟨key, hkey, hround, hlen, hid⟩ := samplePublicKey_checks
  obtain ⟨hsig, hissued, hexpires, hobserved, horder, hnow⟩ := (samples_checks _ hp).2.2.2
  obtain ⟨sig, hsig, hsigLen⟩ := Option.map_eq_some_iff.1 hsig
  have hpub : (sampleEnvelope rec signature).publisherPublicKey = stdEncoding.encodeToString key := by
    simp [sampleEnvelope, envelopeFor, hkey]
  refine verifyEnvelope_of_checks rfl (hpub ▸ hround) hsig hlen hsigLen hid hissued hexpires
    hobserved (lt_of_le_of_lt horder hnow) horder hnow.le ?_
  simp only [sampleRuntime, Runtime.withoutDecoders, sampleCrypto, hkey, Bool.and_eq_true, List.any_eq_true]
  exact ⟨by simp, _, hp, by simp [hsig]⟩

/-- The validated value of an enveloped sample. -/
def sampleValue (rec : EndpointRecord) (signature : String) : ValidatedValue :=
  wrapValue (marshalEnvelope (sampleEnvelope rec signature)) (sampleEnvelope rec signature)
    (sampleInner sampleCrypto rec)

/-- The texts of the samples validate. -/
theorem validateLookupValue_sample (hp : (rec, signature) ∈ samples) :
    validateLookupValue sampleRuntime sampleKey
      (marshalEnvelope (sampleEnvelope rec signature)) sampleNow =
      .ok (sampleValue rec signature) :=
  validateLookupValue_envelopeFor rfl (maybeDecodeEnvelope_sample hp) (verifyEnvelope_sample hp)
    (validateInnerLookupValue_sample hp)

end Sample

end Vx6.Dht
