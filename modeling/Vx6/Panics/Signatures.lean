import Vx6.Dht.Publish
import Vx6.Onion.Cell

/-!
# Signature checks on what peers send

`ed25519.Verify` panics on a key that does not have 32 bytes. The namespace `Vx6.Panics` holds the
verification functions again, with that call as the partial one it is. Those of endpoint records,
service records, envelopes and private catalogs refine the functions without panics
(`verifyEndpoint_refines` and the like), because each looks at the size of the key first; so does the
check of a created cell. `readHello` does not.

`signature_checks_safe_iff`: what a peer sends makes none of the six panic exactly when a well-formed
`hello` has a key of 32 bytes. `empty_key_panics` is one that has not.
-/

set_option autoImplicit false

namespace Vx6.Panics

open Vx6.Go Vx6.Lib Vx6.Record Vx6.Dht

/-! ## The functions with the partial call -/

/-- The last two checks of a record. -/
def checkSignature (cr : Crypto) (nodeID text : String) (key sig : Bytes) :
    Panicking RecordError Unit := do
  attempt (rejectIf (nodeIDFromPublicKey cr key ≠ nodeID) .nodeIDMismatch)
  let verified ← cr.verify key (bytes text) sig
  attempt (rejectIf (!verified) .signatureMismatch)

/-- `VerifyEndpoint`. -/
def verifyEndpoint (cr : Crypto) (record : EndpointRecord) (now : Time) :
    Panicking RecordError Unit := do
  attempt (rejectIf (record.nodeID = "" || record.nodeName = "" || record.address = "") .missingFields)
  attempt (validateCanonicalNodeName record.nodeName)
  attempt (validateIPv6Address record.address)
  let keys ← attempt (decodeKeyAndSignature record.publicKey record.signature)
  let expiresAt ← attempt (orReject (parseRFC3339 record.expiresAt) .expiresAtFormat)
  attempt (rejectIf (2 < record.version) (.unsupportedVersion record.version))
  attempt (rejectIf (record.version = 2 && record.sequence = 0) .missingSequence)
  attempt (rejectIf (record.version < 2 && record.sequence ≠ 0) .unexpectedSequence)
  attempt (checkLegacyTimes record expiresAt)
  attempt (rejectIf (expiresAt < now) .expired)
  checkSignature cr record.nodeID (signingPayload record) keys.1.1 keys.1.2

/-- `VerifyServiceRecord`. -/
def verifyServiceRecord (cr : Crypto) (rec : ServiceRecord) (now : Time) :
    Panicking RecordError Unit := do
  attempt (rejectIf (rec.nodeID = "" || rec.nodeName = "" || rec.serviceName = "") .missingFields)
  attempt (validateCanonicalNodeName rec.nodeName)
  attempt (checkServiceShape rec)
  let keys ← attempt (decodeKeyAndSignature rec.publicKey rec.signature)
  let issuedAt ← attempt (orReject (parseRFC3339 rec.issuedAt) .issuedAtFormat)
  let expiresAt ← attempt (orReject (parseRFC3339 rec.expiresAt) .expiresAtFormat)
  attempt (rejectIf (!decide (issuedAt < expiresAt)) .expiryNotAfterIssue)
  attempt (rejectIf (expiresAt < now) .expired)
  checkSignature cr rec.nodeID (serviceSigningPayload rec) keys.1.1 keys.1.2

/-- `verifyEnvelope`. -/
def verifyEnvelope (rt : Runtime) (key : String) (env : SignedEnvelope) (now : Time) :
    Panicking ValueError Unit := do
  attempt (rejectIf (env.key ≠ key) (.envelopeKey env.key key))
  let keys ← attempt (liftRecord (decodeKeyAndSignature env.publisherPublicKey env.signature))
  attempt (rejectIf (nodeIDFromPublicKey rt.toCrypto keys.1.1 ≠ env.publisherNodeID)
    .envelopePublisher)
  let issuedAt ← attempt (orReject (parseRFC3339 env.issuedAt) (.envelopeTimes .issuedAtFormat))
  let expiresAt ← attempt (orReject (parseRFC3339 env.expiresAt) (.envelopeTimes .expiresAtFormat))
  let observedAt ← attempt (orReject (parseRFC3339 env.observedAt) (.envelopeTimes .issuedAtFormat))
  attempt (rejectIf (!decide (issuedAt < expiresAt)) (.envelopeTimes .expiryNotAfterIssue))
  attempt (rejectIf (observedAt < issuedAt) .envelopeObservedEarly)
  attempt (rejectIf (expiresAt < now) (.envelopeTimes .expired))
  wrap .record
    (checkSignature rt.toCrypto env.publisherNodeID (envelopeSigningPayload env) keys.1.1 keys.1.2)

/-- The loop of `normalizePrivateCatalogServices`. -/
def checkCatalogServices (rt : Runtime) (nodeName nodeID : String) (now : Time) :
    List String → List ServiceRecord → Panicking ValueError Unit
  | _, [] => attempt (.ok ())
  | seen, svc :: rest => do
      wrap (.catalogService svc.serviceName) (verifyServiceRecord rt.toCrypto svc now)
      attempt (rejectIf (svc.nodeName ≠ nodeName || svc.nodeID ≠ nodeID)
        (.catalogOwner svc.serviceName))
      attempt (rejectIf svc.isHidden (.catalogHidden svc.serviceName))
      attempt (rejectIf (!svc.isPrivate) (.catalogNotPrivate svc.serviceName))
      attempt (rejectIf (seen.contains (fullServiceName svc.nodeName svc.serviceName))
        (.catalogDuplicate (fullServiceName svc.nodeName svc.serviceName)))
      checkCatalogServices rt nodeName nodeID now
        (fullServiceName svc.nodeName svc.serviceName :: seen) rest

/-- `VerifyPrivateServiceCatalog`. -/
def verifyPrivateServiceCatalog (rt : Runtime) (catalog : PrivateServiceCatalog) (now : Time) :
    Panicking ValueError Unit := do
  attempt (rejectIf (catalog.nodeID = "" || catalog.nodeName = "" || catalog.publicKey = "" ||
    catalog.issuedAt = "" || catalog.expiresAt = "" || catalog.signature = "") .catalogFields)
  attempt (liftRecord (validateCanonicalNodeName catalog.nodeName))
  let keys ← attempt (liftRecord (decodeKeyAndSignature catalog.publicKey catalog.signature))
  attempt (rejectIf (nodeIDFromPublicKey rt.toCrypto keys.1.1 ≠ catalog.nodeID)
    (.record .nodeIDMismatch))
  let issuedAt ← attempt (orReject (parseRFC3339 catalog.issuedAt) (.record .issuedAtFormat))
  let expiresAt ← attempt (orReject (parseRFC3339 catalog.expiresAt) (.record .expiresAtFormat))
  attempt (rejectIf (!decide (issuedAt < expiresAt)) (.record .expiryNotAfterIssue))
  attempt (rejectIf (expiresAt < now) (.record .expired))
  checkCatalogServices rt catalog.nodeName catalog.nodeID now [] catalog.services
  wrap .record
    (checkSignature rt.toCrypto catalog.nodeID (privateCatalogSigningPayload rt catalog) keys.1.1
      keys.1.2)

/-! ## They refine the functions without panics -/

section Refinement

/-- With a key whose size has been checked, the last two checks do not panic. -/
theorem checkSignature_refines (cr : Crypto) (nodeID text publicKey signature : String)
    (p : {p : Bytes × Bytes // stdEncoding.decodeString publicKey = some p.1 ∧
      stdEncoding.decodeString signature = some p.2 ∧ p.1.length = Vx6.publicKeySize}) :
    Refines (checkSignature cr nodeID text p.1.1 p.1.2)
      (Record.checkSignature cr nodeID text publicKey signature p) fun _ => () := by
  rw [checkSignature, Crypto.verify, guarded, if_pos p.2.2.2, Record.checkSignature]
  by_cases hid : nodeIDFromPublicKey cr p.1.1 = nodeID
  · by_cases hv : cr.ed25519Verify p.1.1 (bytes text) p.1.2 = true
    · simp only [hid, hv, dif_pos, ne_eq, not_true, decide_false]
      rfl
    · simp only [hid, hv, dif_pos, ne_eq, not_true, decide_false]
      rfl
  · simp only [hid, dif_neg, ne_eq, not_false_eq_true, decide_true]
    rfl

theorem verifyEndpoint_refines (cr : Crypto) (record : EndpointRecord) (now : Time) :
    Refines (verifyEndpoint cr record now) (Record.verifyEndpoint cr record now) fun _ => () := by
  refine .attempt_bind fun _ _ => .attempt_bind fun _ _ => .attempt_bind fun _ _ => ?_
  refine .attempt_bind fun keys _ => .attempt_bind fun expiresAt _ => .attempt_bind fun _ _ => ?_
  refine .attempt_bind fun _ _ => .attempt_bind fun _ _ => .attempt_bind fun _ _ => ?_
  refine .attempt_bind fun _ _ => ?_
  exact (checkSignature_refines cr _ _ _ _ keys).of_return _

theorem verifyServiceRecord_refines (cr : Crypto) (rec : ServiceRecord) (now : Time) :
    Refines (verifyServiceRecord cr rec now) (Record.verifyServiceRecord cr rec now) fun _ => () := by
  refine .attempt_bind fun _ _ => .attempt_bind fun _ _ => .attempt_bind fun _ _ => ?_
  refine .attempt_bind fun keys _ => .attempt_bind fun issuedAt _ => .attempt_bind fun expiresAt _ => ?_
  refine .attempt_bind fun _ _ => .attempt_bind fun _ _ => ?_
  exact checkSignature_refines cr _ _ _ _ keys

theorem verifyEnvelope_refines (rt : Runtime) (key : String) (env : SignedEnvelope) (now : Time) :
    Refines (verifyEnvelope rt key env now) (Dht.verifyEnvelope rt key env now) fun _ => () := by
  refine .attempt_bind fun _ _ => .attempt_bind fun keys _ => .attempt_bind fun _ _ => ?_
  refine .attempt_bind fun issuedAt _ => .attempt_bind fun expiresAt _ =>
    .attempt_bind fun observedAt _ => ?_
  refine .attempt_bind fun _ _ => .attempt_bind fun _ _ => .attempt_bind fun _ _ => ?_
  exact (checkSignature_refines rt.toCrypto _ _ _ _ keys).wrap ValueError.record

theorem checkCatalogServices_refines (rt : Runtime) (nodeName nodeID : String) (now : Time)
    (seen : List String) (services : List ServiceRecord) :
    Refines (checkCatalogServices rt nodeName nodeID now seen services)
      (Dht.checkCatalogServices rt nodeName nodeID now seen services) id := by
  induction services generalizing seen with
  | nil => rfl
  | cons svc rest ih =>
    refine ((verifyServiceRecord_refines rt.toCrypto svc now).wrap _).bind fun _ _ => ?_
    refine .attempt_bind fun _ _ => .attempt_bind fun _ _ => .attempt_bind fun _ _ => ?_
    exact .attempt_bind fun _ _ => ih _

theorem verifyPrivateServiceCatalog_refines (rt : Runtime) (catalog : PrivateServiceCatalog)
    (now : Time) :
    Refines (verifyPrivateServiceCatalog rt catalog now)
      (Dht.verifyPrivateServiceCatalog rt catalog now) fun _ => () := by
  refine .attempt_bind fun _ _ => .attempt_bind fun _ _ => .attempt_bind fun keys _ => ?_
  refine .attempt_bind fun _ _ => .attempt_bind fun issuedAt _ => .attempt_bind fun expiresAt _ => ?_
  refine .attempt_bind fun _ _ => .attempt_bind fun _ _ => ?_
  refine (checkCatalogServices_refines rt _ _ now [] _).bind fun _ _ => ?_
  exact (checkSignature_refines rt.toCrypto _ _ _ _ keys).wrap ValueError.record

end Refinement

/-! ## What peers send -/

/-- What a peer can send to a verification: a handshake of some kind, the four signed records, or the
answer of a relay. -/
inductive Message where
  | hello (stream : Bytes) (kind : UInt8)
  | endpoint (record : EndpointRecord)
  | service (rec : ServiceRecord)
  | envelope (key : String) (env : SignedEnvelope)
  | catalog (catalog : PrivateServiceCatalog)
  | created (payload : Bytes) (relayKey : String) (circuitID : Vector UInt8 16)
      (clientPub : Vector UInt8 32)

/-- The verification of a message does not panic. -/
def Handled (rt : Runtime) (unmarshalHello : Bytes → Option Secure.Hello) (now : Time) :
    Message → Prop
  | .hello stream kind => Safe (Secure.readHello ⟨rt.toCrypto, unmarshalHello⟩ stream kind)
  | .endpoint record => Safe (verifyEndpoint rt.toCrypto record now)
  | .service rec => Safe (verifyServiceRecord rt.toCrypto rec now)
  | .envelope key env => Safe (verifyEnvelope rt key env now)
  | .catalog catalog => Safe (verifyPrivateServiceCatalog rt catalog now)
  | .created payload relayKey circuitID clientPub =>
      Safe (Onion.verifyCreatedPayload rt.toCrypto payload relayKey circuitID clientPub)

/-- The message is not a well-formed `hello` with a key of another size. -/
def KeySized (rt : Runtime) (unmarshalHello : Bytes → Option Secure.Hello) : Message → Prop
  | .hello stream _ => ∀ h pub,
      Secure.WellFormedHello ⟨rt.toCrypto, unmarshalHello⟩ stream h pub → pub.length = publicKeySize
  | _ => True

/-- A message makes its verification panic exactly when it is a well-formed `hello` whose key does not
have 32 bytes. -/
theorem signature_checks_safe_iff (rt : Runtime) (unmarshalHello : Bytes → Option Secure.Hello)
    (now : Time) (m : Message) :
    Handled rt unmarshalHello now m ↔ KeySized rt unmarshalHello m := by
  cases m with
  | hello stream kind => exact Secure.safe_readHello_iff _ stream kind
  | endpoint record => exact iff_of_true (verifyEndpoint_refines rt.toCrypto record now).safe trivial
  | service rec => exact iff_of_true (verifyServiceRecord_refines rt.toCrypto rec now).safe trivial
  | envelope key env => exact iff_of_true (verifyEnvelope_refines rt key env now).safe trivial
  | catalog catalog =>
    exact iff_of_true (verifyPrivateServiceCatalog_refines rt catalog now).safe trivial
  | created payload relayKey circuitID clientPub =>
    exact iff_of_true (Onion.safe_verifyCreatedPayload rt.toCrypto payload relayKey circuitID clientPub)
      trivial

/-- A `hello` with an empty key and the node ID that belongs to it. -/
def emptyKeyHello : Secure.Hello :=
  { version := 2
    nodeID := "vx6_e3b0c44298fc1c149afbf4c8996fb92427ae41e4649b934ca495991b7852b855" }

/-- Its JSON text. -/
def emptyKeyText : String :=
  jsonObject [("version", "2"), ("node_id", jsonString emptyKeyHello.nodeID),
    ("public_key", jsonString ""), ("ephemeral", jsonString ""), ("signature", jsonString "")]

/-- JSON decoding on that text. -/
def unmarshalEmptyKey (payload : Bytes) : Option Secure.Hello :=
  if payload = bytes emptyKeyText then some emptyKeyHello else none

theorem unmarshalEmptyKey_text : unmarshalEmptyKey (bytes emptyKeyText) = some emptyKeyHello := by
  simp [unmarshalEmptyKey]

theorem emptyKey_nodeID : nodeIDFromPublicKey sampleCrypto [] = emptyKeyHello.nodeID := by
  rw [nodeIDFromPublicKey, show sampleCrypto.sha256 = sha256 from rfl, sha256_samples.1]
  decide

set_option maxRecDepth 4000 in
theorem emptyKeyText_size : bytes emptyKeyText ≠ [] ∧ (bytes emptyKeyText).length ≤ 8192 := by
  decide

/-- A remote side that opens with this `hello` makes the handshake panic. -/
theorem empty_key_panics :
    ¬ Handled sampleRuntime unmarshalEmptyKey 0
      (.hello (Secure.writeLengthPrefixed (bytes emptyKeyText)) 1) := by
  have hread := Secure.readLengthPrefixed_write emptyKeyText_size.1
    (emptyKeyText_size.2 : _ ≤ Secure.maxHandshakeSize) (by decide) []
  rw [List.append_nil] at hread
  have hdecode : (⟨sampleRuntime.toCrypto, unmarshalEmptyKey⟩ : Secure.SessionRuntime).unmarshalHello
      (bytes emptyKeyText) = some emptyKeyHello := by
    dsimp only
    rw [unmarshalEmptyKey_text]
  have hhello : Secure.WellFormedHello ⟨sampleRuntime.toCrypto, unmarshalEmptyKey⟩
      (Secure.writeLengthPrefixed (bytes emptyKeyText)) emptyKeyHello [] :=
    ⟨⟨bytes emptyKeyText, [], hread, hdecode⟩, by decide, by decide, by decide, emptyKey_nodeID⟩
  intro hsafe
  have hsize := (Secure.safe_readHello_iff _ _ _).1 hsafe emptyKeyHello [] hhello
  cases hsize

end Vx6.Panics
