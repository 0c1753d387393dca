import Vx6.Dht.Publish
import Vx6.Dht.StoreSafety
import Vx6.Dht.Wire
import Vx6.Go.Civil

/-!
# Wrapping before publication

`prepareStoreValue` of `dht.go`: a value that validates without an envelope is wrapped in one that
the publisher signs, and the replicas validate the result with `validateLookupValue`. The envelope
repeats the times of the value as RFC 3339 texts, without the fractions of a second, and
`verifyEnvelope` has checks of its own on the version and on the times.

`wrapped_value_validates_iff`: the replicas accept the wrapped value, and see the fields that the
publisher saw, exactly if the version is not zero and the times pass those checks as whole seconds
(`Wrappable`). Nothing in `prepareStoreValue` asks for this: `expired_descriptor_wrapped` wraps a
descriptor that has expired. Keys and values are texts in UTF-8, which JSON gives back as they were.
-/

set_option autoImplicit false

namespace Vx6.Dht

open Vx6.Go Vx6.Lib Vx6.Record

/-- The publisher that an identity makes with `ed25519.Sign`. -/
def publisherOf (sign : Bytes → Bytes → Bytes) (id : Identity) : Publisher where
  nodeID := id.nodeID
  publicKey := id.publicKey
  sign := sign id.privateKey

/-- `prepareStoreValue`. A server without a valid identity publishes values as they are. -/
def prepareStoreValue (rt : Runtime) (sign : Bytes → Bytes → Bytes) (id : Identity) (key value : String)
    (now : Time) : Except ValueError String := do
  let info ← validateInnerLookupValue rt key value now
  if !info.verified then return value
  else
    match id.validate rt.toCrypto with
    | .error _ => return value
    | .ok () => return wrapSignedEnvelope (publisherOf sign id) key value info now

/-- The time of observation that an envelope states. -/
def observedAt (info : ValidatedValue) (now : Time) : Time :=
  if now < info.issuedAt then info.issuedAt else now

/-- What `verifyEnvelope` asks of the version and the times of an envelope, in whole seconds. -/
structure Wrappable (info : ValidatedValue) (now : Time) : Prop where
  version : info.version ≠ 0
  issued : fourDigitYear info.issuedAt
  expires : fourDigitYear info.expiresAt
  observed : fourDigitYear (observedAt info now)
  life : unix info.issuedAt < unix info.expiresAt
  unexpired : now ≤ unix info.expiresAt * second

/-- Signatures of the identity have the right size and verify. -/
def Honest (cr : Crypto) (sign : Bytes → Bytes → Bytes) (id : Identity) : Prop :=
  ∀ message, (sign id.privateKey message).length = Vx6.signatureSize ∧
    cr.ed25519Verify id.publicKey message (sign id.privateKey message) = true

section Wrap

variable {rt : Runtime} {sign : Bytes → Bytes → Bytes} {id : Identity} {key value w : String} {now : Time}
  {info : ValidatedValue}

/-- A trusted value is wrapped by a valid identity. -/
theorem prepareStoreValue_eq (hid : id.validate rt.toCrypto = .ok ())
    (hinner : validateInnerLookupValue rt key value now = .ok info) (hverified : info.verified = true) :
    prepareStoreValue rt sign id key value now =
      .ok (wrapSignedEnvelope (publisherOf sign id) key value info now) := by
  simp only [prepareStoreValue, hinner, hid, hverified, bind, Except.bind]
  rfl

theorem formatRFC3339_ne_empty (t : Time) : formatRFC3339 t ≠ "" := by
  intro h
  have hlast := congrArg String.toList h
  simp [formatRFC3339] at hlast

/-- A valid identity has a node ID and a key of the right size. -/
theorem fields_of_validate (hid : id.validate rt.toCrypto = .ok ()) :
    id.nodeID ≠ "" ∧ id.publicKey.length = Vx6.publicKeySize := by
  simp only [Identity.validate, bind_eq_ok, rejectIf_eq_ok, decide_eq_false_iff_not, not_not,
    Unique.exists_iff] at hid
  exact ⟨hid.1, hid.2.1⟩

/-- The envelope for a value is complete. -/
theorem maybeDecodeEnvelope_wrapped (hid : id.validate rt.toCrypto = .ok ())
    (hsign : Honest rt.toCrypto sign id) (hkey : key ≠ "") (hvalue : value ≠ "")
    (hversion : info.version ≠ 0)
    (hjson : rt.unmarshalEnvelope (wrapSignedEnvelope (publisherOf sign id) key value info now) =
      some (signedEnvelopeFor (publisherOf sign id) key value info now)) :
    maybeDecodeEnvelope rt (wrapSignedEnvelope (publisherOf sign id) key value info now) =
      .ok (some (signedEnvelopeFor (publisherOf sign id) key value info now)) := by
  obtain ⟨hnode, hsize⟩ := fields_of_validate hid
  set env := signedEnvelopeFor (publisherOf sign id) key value info now with henv
  have hpublic : env.publisherPublicKey ≠ "" := by
    refine encodeToString_ne_empty _ ?_
    rw [← List.length_pos_iff, show (publisherOf sign id).publicKey = id.publicKey from rfl, hsize]
    decide
  have hsignature : env.signature ≠ "" := by
    refine encodeToString_ne_empty _ ?_
    have hlen := (hsign (bytes
      (envelopeSigningPayload (envelopeFor id.nodeID id.publicKey key value info now)))).1
    rw [← List.length_pos_iff]
    exact lt_of_lt_of_eq (by decide) hlen.symm
  have hcomplete : ¬ (env.key = "" ∨ env.value = "" ∨ env.publisherNodeID = "" ∨
      env.publisherPublicKey = "" ∨ env.signature = "" ∨ env.issuedAt = "" ∨ env.expiresAt = "" ∨
      env.observedAt = "" ∨ env.version = 0) := by
    simp only [not_or]
    exact ⟨hkey, hvalue, hnode, hpublic, hsignature, formatRFC3339_ne_empty _, formatRFC3339_ne_empty _,
      formatRFC3339_ne_empty _, hversion⟩
  simp only [maybeDecodeEnvelope, hjson, if_neg hcomplete]
  rw [if_neg fun h => hkey h.1]

theorem issuedAt_le_observedAt (info : ValidatedValue) (now : Time) :
    info.issuedAt ≤ observedAt info now := by
  rw [observedAt]
  split_ifs with h
  · exact le_refl _
  · exact not_lt.1 h

/-- The envelope for a wrappable value passes its checks. -/
theorem verifyEnvelope_wrapped (hid : id.validate rt.toCrypto = .ok ())
    (hsign : Honest rt.toCrypto sign id) (hwrap : Wrappable info now) :
    ∃ s, verifyEnvelope rt key (signedEnvelopeFor (publisherOf sign id) key value info now) now =
      .ok s := by
  obtain ⟨-, hsize⟩ := fields_of_validate hid
  have hhonest := hsign (bytes (envelopeSigningPayload
    (signedEnvelopeFor (publisherOf sign id) key value info now)))
  have hsecond : (0 : Int) ≤ second := by decide
  refine verifyEnvelope_of_checks rfl (Base64.decodeString_encodeToString Base64.proper_std _)
    (Base64.decodeString_encodeToString Base64.proper_std _) hsize hhonest.1
    (Identity.nodeID_of_validate hid)
    (parseRFC3339_formatRFC3339 hwrap.issued) (parseRFC3339_formatRFC3339 hwrap.expires)
    (parseRFC3339_formatRFC3339 hwrap.observed) ?_ ?_ hwrap.unexpired hhonest.2
  · exact Int.mul_lt_mul_of_pos_right hwrap.life (by decide)
  · exact Int.mul_le_mul_of_nonneg_right (unix_mono (issuedAt_le_observedAt info now)) hsecond

/-- What `verifyEnvelope` has checked of the times of an envelope. -/
theorem times_of_verifyEnvelope {env : SignedEnvelope} (h : ∃ s, verifyEnvelope rt key env now = .ok s) :
    ∃ issuedAt expiresAt observedAt, parseRFC3339 env.issuedAt = some issuedAt ∧
      parseRFC3339 env.expiresAt = some expiresAt ∧ parseRFC3339 env.observedAt = some observedAt ∧
      issuedAt < expiresAt ∧ now ≤ expiresAt := by
  obtain ⟨s, h⟩ := h
  simp only [verifyEnvelope, bind_eq_ok, rejectIf_eq_ok, orReject_eq_ok, Bool.not_eq_false',
    decide_eq_true_eq, decide_eq_false_iff_not, not_lt] at h
  obtain ⟨-, -, -, -, -, -, issuedAt, hissued, expiresAt, hexpires, observedAt, hobserved, -, hlife, -, -,
    -, hnow, -⟩ := h
  exact ⟨issuedAt, expiresAt, observedAt, hissued, hexpires, hobserved, hlife, hnow⟩

/-- Only the envelope for a wrappable value passes its checks. -/
theorem wrappable_of_verifyEnvelope (hversion : info.version ≠ 0)
    (h : ∃ s, verifyEnvelope rt key (signedEnvelopeFor (publisherOf sign id) key value info now) now =
      .ok s) : Wrappable info now := by
  obtain ⟨issuedAt, expiresAt, observedAt', hissued, hexpires, hobserved, hlife, hnow⟩ :=
    times_of_verifyEnvelope h
  have hread : ∀ {t u : Time}, parseRFC3339 (formatRFC3339 t) = some u →
      fourDigitYear t ∧ u = unix t * second := by
    intro t u htext
    have hyear := (isSome_parseRFC3339_formatRFC3339 t).1 (by rw [htext]; rfl)
    rw [parseRFC3339_formatRFC3339 hyear] at htext
    exact ⟨hyear, (Option.some.inj htext).symm⟩
  obtain ⟨hissuedYear, rfl⟩ := hread hissued
  obtain ⟨hexpiresYear, rfl⟩ := hread hexpires
  exact ⟨hversion, hissuedYear, hexpiresYear, (hread hobserved).1,
    lt_of_mul_lt_mul_right hlife (by decide), hnow⟩

/-- An envelope for version 0 is incomplete. -/
theorem maybeDecodeEnvelope_of_version_zero (hkey : key ≠ "") (hversion : info.version = 0)
    (hjson : rt.unmarshalEnvelope w = some (signedEnvelopeFor (publisherOf sign id) key value info now)) :
    maybeDecodeEnvelope rt w = .error .incompleteEnvelope := by
  simp only [maybeDecodeEnvelope, hjson]
  rw [if_neg fun h => hkey h.1, if_pos]
  exact .inr (.inr (.inr (.inr (.inr (.inr (.inr (.inr hversion)))))))

end Wrap

/-- What a publisher wraps, every replica accepts. The value that `prepareStoreValue` gives for a trusted
key validates at the same time, with the family, the fingerprint, the version and the times that the value
itself has, exactly if the version and the times go into an envelope. -/
theorem wrapped_value_validates_iff {rt : Runtime} {sign : Bytes → Bytes → Bytes} {id : Identity}
    {key value w : String} {now : Time} {info : ValidatedValue} (hid : id.validate rt.toCrypto = .ok ())
    (hsign : Honest rt.toCrypto sign id) (htrusted : isTrustedLookupKey key = true)
    (hinner : validateInnerLookupValue rt key value now = .ok info)
    (hprepare : prepareStoreValue rt sign id key value now = .ok w)
    (hjson : rt.unmarshalEnvelope w = some (signedEnvelopeFor (publisherOf sign id) key value info now)) :
    (∃ v, validateLookupValue rt key w now = .ok v ∧ v.family = info.family ∧
      v.fingerprint = info.fingerprint ∧ v.version = info.version ∧ v.issuedAt = info.issuedAt ∧
      v.expiresAt = info.expiresAt) ↔ Wrappable info now := by
  have hfamily := isTrustedLookupKey_family htrusted
  have hverified : info.verified = true := by
    rw [(validateInnerLookupValue_shape hinner).verified_eq]
    exact decide_eq_true hfamily
  have hkey : key ≠ "" := by
    rintro rfl
    exact absurd htrusted (by decide)
  have hvalue : value ≠ "" := by
    rintro rfl
    have hvalid : validateLookupValue rt key "" now = .ok info := by
      simpa only [validateLookupValue, maybeDecodeEnvelope, rt.unmarshalEnvelope_empty, bind,
        Except.bind] using hinner
    exact validateLookupValue_empty hfamily hvalid
  rw [prepareStoreValue_eq hid hinner hverified, Except.ok.injEq] at hprepare
  subst hprepare
  constructor
  · rintro ⟨v, hv, -⟩
    have hversion : info.version ≠ 0 := by
      intro hzero
      simp only [validateLookupValue, maybeDecodeEnvelope_of_version_zero hkey hzero hjson, bind,
        Except.bind] at hv
      cases hv
    simp only [validateLookupValue, maybeDecodeEnvelope_wrapped hid hsign hkey hvalue hversion hjson,
      validateEnveloped, bind_eq_ok, Except.ok.injEq, exists_eq_left'] at hv
    obtain ⟨s, hs, -⟩ := hv
    exact wrappable_of_verifyEnvelope hversion ⟨s, hs⟩
  · intro hwrap
    exact ⟨_, validateLookupValue_envelopeFor rfl
      (maybeDecodeEnvelope_wrapped hid hsign hkey hvalue hwrap.version hjson)
      (verifyEnvelope_wrapped hid hsign hwrap) hinner, rfl, rfl, rfl, rfl, rfl⟩

/-! ## Samples -/

/-- Signatures of 64 bytes. -/
def sampleSign (_ _ : Bytes) : Bytes := List.replicate 64 7

/-- The value of the sample descriptor. -/
def descriptorInfo : ValidatedValue :=
  signedValue forgedText ("hidden:" ++ forgedDescriptor.nodeID ++ ":" ++ forgedDescriptor.serviceTag)
    (hiddenDescriptorFingerprint wireSigner.toCrypto forgedDescriptor) forgedDescriptor.nodeID
    ⟨sampleNow, sampleNow + 2 * hour, 1717200000⟩

/-- The envelope around the sample descriptor. -/
def descriptorEnvelope (now : Time) : SignedEnvelope :=
  signedEnvelopeFor (publisherOf sampleSign wireIdentity) forgedKey forgedText descriptorInfo now

/-- A run time in which each signature verifies, with the JSON decoders on the descriptor and on the
envelope that is made at the given time. -/
def descriptorRuntime (now : Time) : Runtime :=
  { forgedRuntime with
    toCrypto := wireSigner.toCrypto
    unmarshalEnvelope := fun raw =>
      if raw = marshalEnvelope (descriptorEnvelope now) then some (descriptorEnvelope now)
      else forgedRuntime.unmarshalEnvelope raw
    unmarshalEnvelope_empty :=
      (if_neg (jsonObject_ne_empty _).symm).trans forgedRuntime.unmarshalEnvelope_empty }

/-- The descriptor expires two hours after `sampleNow`. -/
def lateNow : Time := sampleNow + 3 * hour

theorem sampleSign_honest : Honest wireSigner.toCrypto sampleSign wireIdentity :=
  fun _ => ⟨List.length_replicate, rfl⟩

theorem wireIdentity_valid : wireIdentity.validate wireSigner.toCrypto = .ok () :=
  ok_of_toOption (by decide)

theorem forgedDescriptor_times :
    parseRFC3339 forgedDescriptor.issuedAt = some sampleNow ∧
      parseRFC3339 forgedDescriptor.expiresAt = some (sampleNow + 2 * hour) := by
  decide

set_option maxRecDepth 4000 in
/-- The descriptor validates without an envelope, whatever the time is. -/
theorem descriptor_inner (made now : Time) :
    validateInnerLookupValue (descriptorRuntime made) forgedKey forgedText now = .ok descriptorInfo := by
  obtain ⟨hissued, hexpires⟩ := forgedDescriptor_times
  have hfamily : keyFamily forgedKey = .hiddenDescriptor := by decide
  have hepoch : parseHiddenDescriptorEpoch forgedKey = .ok 477000 := by decide
  have hdecode : (descriptorRuntime made).unmarshalDescriptor forgedText = some forgedDescriptor := by
    simp only [descriptorRuntime, forgedRuntime, if_true]
  have hparse : parseHiddenDescriptor (descriptorRuntime made) forgedText = .ok forgedDescriptor := by
    have hnonce : rawURLEncoding.decodeString forgedDescriptor.nonce =
      some (List.replicate 12 0) := by decide
    have hcipher : rawURLEncoding.decodeString forgedDescriptor.ciphertext =
        some (List.replicate 3 0) := by
      decide
    simp only [parseHiddenDescriptor, hdecode, hissued, hexpires, hnonce, hcipher, orReject, bind,
      Except.bind]
    rfl
  have htimes : recordTimes forgedDescriptor.issuedAt forgedDescriptor.expiresAt =
      .ok ⟨sampleNow, sampleNow + 2 * hour, 1717200000⟩ := by
    simp only [recordTimes, hissued, hexpires, orReject, bind, Except.bind]
    rfl
  simp only [validateInnerLookupValue, hfamily, validateDescriptor, hepoch, hparse,
    descriptorValue, htimes,
    bind, Except.bind]
  rfl

theorem descriptor_prepared (now : Time) :
    prepareStoreValue (descriptorRuntime now) sampleSign wireIdentity forgedKey forgedText now =
      .ok (marshalEnvelope (descriptorEnvelope now)) :=
  prepareStoreValue_eq wireIdentity_valid (descriptor_inner now now) rfl

theorem descriptor_json (now : Time) :
    (descriptorRuntime now).unmarshalEnvelope (marshalEnvelope (descriptorEnvelope now)) =
      some (descriptorEnvelope now) := by
  simp only [descriptorRuntime, if_true]

/-- The descriptor is wrapped before it expires. -/
theorem fresh_descriptor_validates :
    ∃ v, validateLookupValue (descriptorRuntime sampleNow) forgedKey
      (marshalEnvelope (descriptorEnvelope sampleNow)) sampleNow = .ok v ∧ v.version = 1717200000 := by
  have hid : wireIdentity.validate (descriptorRuntime sampleNow).toCrypto = .ok () := wireIdentity_valid
  have hsign : Honest (descriptorRuntime sampleNow).toCrypto sampleSign wireIdentity := sampleSign_honest
  have hwrap : Wrappable descriptorInfo sampleNow :=
    ⟨by decide, by decide, by decide, by decide, by decide, by decide⟩
  obtain ⟨v, hv, -, -, hversion, -⟩ := (wrapped_value_validates_iff hid hsign forgedKey_trusted
    (descriptor_inner sampleNow sampleNow) (descriptor_prepared sampleNow)
    (descriptor_json sampleNow)).2 hwrap
  exact ⟨v, hv, hversion⟩

/-- The publisher wraps the descriptor after it has expired, and each replica refuses it. -/
theorem expired_descriptor_wrapped :
    wireIdentity.validate (descriptorRuntime lateNow).toCrypto = .ok () ∧
    isTrustedLookupKey forgedKey = true ∧
    prepareStoreValue (descriptorRuntime lateNow) sampleSign wireIdentity forgedKey forgedText lateNow =
      .ok (marshalEnvelope (descriptorEnvelope lateNow)) ∧
    ∀ v, validateLookupValue (descriptorRuntime lateNow) forgedKey
      (marshalEnvelope (descriptorEnvelope lateNow)) lateNow ≠ .ok v := by
  have hid : wireIdentity.validate (descriptorRuntime lateNow).toCrypto = .ok () := wireIdentity_valid
  have hsign : Honest (descriptorRuntime lateNow).toCrypto sampleSign wireIdentity := sampleSign_honest
  have hversion : descriptorInfo.version ≠ 0 := by decide
  refine ⟨hid, forgedKey_trusted, descriptor_prepared lateNow, fun v hv => ?_⟩
  have hdecode : maybeDecodeEnvelope (descriptorRuntime lateNow) (marshalEnvelope
      (descriptorEnvelope lateNow)) = .ok (some (descriptorEnvelope lateNow)) :=
    maybeDecodeEnvelope_wrapped hid hsign (by decide : forgedKey ≠ "")
      (jsonObject_ne_empty _ : forgedText ≠ "") hversion (descriptor_json lateNow)
  simp only [validateLookupValue, hdecode, validateEnveloped, bind_eq_ok, Except.ok.injEq,
    exists_eq_left'] at hv
  obtain ⟨s, hs, -⟩ := hv
  exact absurd (wrappable_of_verifyEnvelope hversion ⟨s, hs⟩).unexpired (by decide)

end Vx6.Dht
