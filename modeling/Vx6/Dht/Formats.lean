import Vx6.Record.Service

/-!
# Stored value formats

The texts a DHT value may hold and how each is decoded and checked: the signed envelope
(`envelope.go`), the private service catalog (`private_catalog.go`) and the encrypted hidden
descriptor (`hidden_descriptor.go`), with the key functions of `dht.go`. `Runtime` adds the JSON
codec and the configured ASN resolver to the cryptographic primitives; the results of the
development hold for every such codec.
-/

set_option autoImplicit false

namespace Vx6.Dht

open Vx6.Go Vx6.Lib Vx6.Record

/-- `SignedEnvelope`. -/
structure SignedEnvelope where
  key : String := ""
  value : String := ""
  originNodeID : String := ""
  publisherNodeID : String := ""
  publisherPublicKey : String := ""
  version : UInt64 := 0
  issuedAt : String := ""
  expiresAt : String := ""
  observedAt : String := ""
  signature : String := ""
  deriving DecidableEq, Repr

/-- `HiddenDescriptor`. -/
structure HiddenDescriptor where
  nodeID : String := ""
  serviceTag : String := ""
  issuedAt : String := ""
  expiresAt : String := ""
  nonce : String := ""
  ciphertext : String := ""
  deriving DecidableEq, Repr

/-- `PrivateServiceCatalog`. -/
structure PrivateServiceCatalog where
  nodeID : String := ""
  nodeName : String := ""
  publicKey : String := ""
  services : List ServiceRecord := []
  issuedAt : String := ""
  expiresAt : String := ""
  signature : String := ""
  deriving DecidableEq, Repr

/-- The parts of the Go run time that the DHT code calls and the model leaves abstract: the
cryptographic primitives, JSON decoding into each record type (strict for endpoint records), JSON
encoding of a service list, and the ASN resolver in force. The empty text is not JSON. -/
structure Runtime extends Crypto where
  decodeEndpoint : String → Option EndpointRecord
  unmarshalEnvelope : String → Option SignedEnvelope
  unmarshalService : String → Option ServiceRecord
  unmarshalCatalog : String → Option PrivateServiceCatalog
  unmarshalDescriptor : String → Option HiddenDescriptor
  marshalServices : List ServiceRecord → String
  resolveASN : IP → Option String
  decodeEndpoint_empty : decodeEndpoint "" = none
  unmarshalEnvelope_empty : unmarshalEnvelope "" = none
  unmarshalService_empty : unmarshalService "" = none
  unmarshalCatalog_empty : unmarshalCatalog "" = none
  unmarshalDescriptor_empty : unmarshalDescriptor "" = none

/-- A run time whose decoders read nothing and which knows no networks. -/
def Runtime.withoutDecoders (cr : Crypto) (marshalServices : List ServiceRecord → String) : Runtime :=
  { cr with
    decodeEndpoint := fun _ => none
    unmarshalEnvelope := fun _ => none
    unmarshalService := fun _ => none
    unmarshalCatalog := fun _ => none
    unmarshalDescriptor := fun _ => none
    marshalServices
    resolveASN := fun _ => none
    decodeEndpoint_empty := rfl
    unmarshalEnvelope_empty := rfl
    unmarshalService_empty := rfl
    unmarshalCatalog_empty := rfl
    unmarshalDescriptor_empty := rfl }

/-- The reasons for which a value is refused. -/
inductive ValueError where
  | record (e : RecordError)
  | incompleteEnvelope
  | envelopeKey (found wanted : String)
  | envelopePublisher
  | envelopeTimes (e : RecordError)
  | envelopeObservedEarly
  | envelopeOrigin (found wanted : String)
  | envelopeVersion (found wanted : UInt64)
  | envelopeIssuedAt
  | envelopeExpiresAt
  | decodeEndpoint
  | decodeService
  | decodeCatalog
  | decodeHiddenService
  | decodeDescriptor
  | descriptorFields
  | nameKeyMismatch (name : String)
  | idKeyMismatch (found wanted : String)
  | privateService (name : String)
  | serviceKeyMismatch (found wanted : String)
  | catalogKeyMismatch (found wanted : String)
  | catalogFields
  | catalogService (name : String) (e : RecordError)
  | catalogOwner (name : String)
  | catalogHidden (name : String)
  | catalogNotPrivate (name : String)
  | catalogDuplicate (name : String)
  | hiddenAliasMismatch (found wanted : String)
  | hiddenDescriptorKey (key : String)
  | hiddenDescriptorEpoch (key : String)
  | hiddenDescriptorAlias
  | hiddenDescriptorBlindedKey (key expected : String)
  deriving DecidableEq, Repr

/-- Errors of the record package, wrapped. -/
def liftRecord {α : Type} (x : Except RecordError α) : Except ValueError α := x.mapError .record

theorem liftRecord_eq_ok {α : Type} {x : Except RecordError α} {a : α} :
    liftRecord x = .ok a ↔ x = .ok a := mapError_eq_ok

/-! ## Keys -/

/-- `NodeNameHash`. -/
def nodeNameHash (cr : Crypto) (name : String) : String :=
  match normalizeNodeName name with
  | .ok canonical => hexEncode (cr.sum ("vx6/node-name/v1\x00" ++ canonical))
  | .error _ => ""

/-- `NodeNameKey`. -/
def nodeNameKey (cr : Crypto) (name : String) : String := "node/name/" ++ nodeNameHash cr name

/-- `NodeIDKey`. -/
def nodeIDKey (nodeID : String) : String := "node/id/" ++ nodeID

/-- The key families, in the order in which `validateInnerLookupValue` tests the key. -/
inductive KeyFamily where
  | nodeName
  | nodeID
  | service
  | privateCatalog
  | hidden
  | hiddenDescriptor
  | other
  deriving DecidableEq, Repr

/-- The text in front of the keys of a family. -/
def KeyFamily.tag : KeyFamily → String
  | .nodeName => "node/name/"
  | .nodeID => "node/id/"
  | .service => "service/"
  | .privateCatalog => "private-catalog/"
  | .hidden => "hidden/"
  | .hiddenDescriptor => "hidden-desc/v1/"
  | .other => ""

/-- The family of a key. -/
def keyFamily (key : String) : KeyFamily :=
  if hasPrefix key KeyFamily.nodeName.tag then .nodeName
  else if hasPrefix key KeyFamily.nodeID.tag then .nodeID
  else if hasPrefix key KeyFamily.service.tag then .service
  else if hasPrefix key KeyFamily.privateCatalog.tag then .privateCatalog
  else if hasPrefix key KeyFamily.hidden.tag then .hidden
  else if hasPrefix key KeyFamily.hiddenDescriptor.tag then .hiddenDescriptor
  else .other

/-- `isTrustedLookupKey`. -/
def isTrustedLookupKey (key : String) : Bool :=
  hasPrefix key "node/name/" || hasPrefix key "node/id/" || hasPrefix key "service/" ||
    hasPrefix key "hidden-desc/v1/" || hasPrefix key "private-catalog/"

/-- `hiddenServiceKeyForRefEpoch` for a reference with the given alias and secret. -/
def hiddenServiceKeyForRefEpoch (cr : Crypto) (aliasName secret : String) (epoch : Int) : String :=
  let lookupSecret := if trimSpace secret ≠ "" then secret else aliasName
  "hidden-desc/v1/" ++ formatInt epoch ++ "/" ++
    cr.shortSum 20 ("vx6-hidden-desc-v1\n" ++ aliasName ++ "\n" ++ lookupSecret ++ "\n" ++
      formatInt epoch)

/-- `parseHiddenDescriptorEpoch`. -/
def parseHiddenDescriptorEpoch (key : String) : Except ValueError Int :=
  match split key '/' with
  | [a, b, c, d] =>
      if a ≠ "hidden-desc" ∨ b ≠ "v1" ∨ c = "" ∨ d = "" then .error (.hiddenDescriptorKey key)
      else
        match parseInt c with
        | some epoch => if epoch < 0 then .error (.hiddenDescriptorEpoch key) else .ok epoch
        | none => .error (.hiddenDescriptorEpoch key)
  | _ => .error (.hiddenDescriptorKey key)

/-! ## Envelopes -/

/-- `maybeDecodeEnvelope`: `none` for a text that is not an envelope, an error for one that is
incomplete. -/
def maybeDecodeEnvelope (rt : Runtime) (raw : String) :
    Except ValueError (Option SignedEnvelope) :=
  match rt.unmarshalEnvelope raw with
  | none => .ok none
  | some env =>
      if env.key = "" ∧ env.value = "" ∧ env.publisherNodeID = "" ∧ env.signature = "" then .ok none
      else if env.key = "" ∨ env.value = "" ∨ env.publisherNodeID = "" ∨
          env.publisherPublicKey = "" ∨ env.signature = "" ∨ env.issuedAt = "" ∨
          env.expiresAt = "" ∨ env.observedAt = "" ∨ env.version = 0 then
        .error .incompleteEnvelope
      else .ok (some env)

/-- `envelopeSigningPayload`. -/
def envelopeSigningPayload (env : SignedEnvelope) : String :=
  env.key ++ "\n" ++ env.value ++ "\n" ++ env.originNodeID ++ "\n" ++ env.publisherNodeID ++ "\n" ++
    env.publisherPublicKey ++ "\n" ++ formatInt env.version.toNat ++ "\n" ++ env.issuedAt ++ "\n" ++
    env.expiresAt ++ "\n" ++ env.observedAt ++ "\n"

/-- `verifyEnvelope`; success returns the publisher key and the signature that were checked. -/
def verifyEnvelope (rt : Runtime) (key : String) (env : SignedEnvelope) (now : Time) :
    Except ValueError (SignedText rt.toCrypto env.publisherNodeID (envelopeSigningPayload env)
      env.publisherPublicKey env.signature) := do
  rejectIf (env.key ≠ key) (.envelopeKey env.key key)
  let keys ← liftRecord (decodeKeyAndSignature env.publisherPublicKey env.signature)
  rejectIf (nodeIDFromPublicKey rt.toCrypto keys.1.1 ≠ env.publisherNodeID) .envelopePublisher
  let issuedAt ← orReject (parseRFC3339 env.issuedAt) (.envelopeTimes .issuedAtFormat)
  let expiresAt ← orReject (parseRFC3339 env.expiresAt) (.envelopeTimes .expiresAtFormat)
  let observedAt ← orReject (parseRFC3339 env.observedAt) (.envelopeTimes .issuedAtFormat)
  rejectIf (!decide (issuedAt < expiresAt)) (.envelopeTimes .expiryNotAfterIssue)
  rejectIf (observedAt < issuedAt) .envelopeObservedEarly
  rejectIf (expiresAt < now) (.envelopeTimes .expired)
  liftRecord (checkSignature rt.toCrypto env.publisherNodeID (envelopeSigningPayload env)
    env.publisherPublicKey env.signature keys)

/-- An envelope that passes every check is accepted. -/
theorem verifyEnvelope_of_checks {rt : Runtime} {env : SignedEnvelope} {now : Time}
    {lookupKey : String} {key sig : Bytes} {issuedAt expiresAt observedAt : Time}
    (hlookup : env.key = lookupKey)
    (hkey : stdEncoding.decodeString env.publisherPublicKey = some key)
    (hsig : stdEncoding.decodeString env.signature = some sig)
    (hkeyLen : key.length = Vx6.publicKeySize) (hsigLen : sig.length = Vx6.signatureSize)
    (hid : nodeIDFromPublicKey rt.toCrypto key = env.publisherNodeID)
    (hissued : parseRFC3339 env.issuedAt = some issuedAt)
    (hexpires : parseRFC3339 env.expiresAt = some expiresAt)
    (hobserved : parseRFC3339 env.observedAt = some observedAt)
    (hlife : issuedAt < expiresAt) (horder : issuedAt ≤ observedAt) (hnow : now ≤ expiresAt)
    (hverify : rt.ed25519Verify key (bytes (envelopeSigningPayload env)) sig = true) :
    ∃ s, verifyEnvelope rt lookupKey env now = .ok s := by
  subst hlookup
  refine ⟨⟨key, sig, hkey, hsig, hkeyLen, hid, hverify⟩, ?_⟩
  simp [verifyEnvelope, decodeKeyAndSignature_of_sizes hkey hsig hkeyLen hsigLen, hid, hissued,
    hexpires, hobserved, hlife, not_lt.2 horder, not_lt.2 hnow, hverify, liftRecord,
    Except.mapError, rejectIf, orReject, checkSignature, bind, Except.bind]

/-! ## Private service catalogs -/

/-- `privateCatalogSigningPayload`. -/
def privateCatalogSigningPayload (rt : Runtime) (catalog : PrivateServiceCatalog) : String :=
  catalog.nodeID ++ "\n" ++ catalog.nodeName ++ "\n" ++ catalog.publicKey ++ "\n" ++
    rt.marshalServices catalog.services ++ "\n" ++ catalog.issuedAt ++ "\n" ++
    catalog.expiresAt ++ "\n"

/-- The loop of `normalizePrivateCatalogServices`, with the full names seen so far. -/
def checkCatalogServices (rt : Runtime) (nodeName nodeID : String) (now : Time) :
    List String → List ServiceRecord → Except ValueError Unit
  | _, [] => .ok ()
  | seen, svc :: rest => do
      let _ ← (verifyServiceRecord rt.toCrypto svc now).mapError (.catalogService svc.serviceName)
      rejectIf (svc.nodeName ≠ nodeName || svc.nodeID ≠ nodeID) (.catalogOwner svc.serviceName)
      rejectIf svc.isHidden (.catalogHidden svc.serviceName)
      rejectIf (!svc.isPrivate) (.catalogNotPrivate svc.serviceName)
      rejectIf (seen.contains (fullServiceName svc.nodeName svc.serviceName))
        (.catalogDuplicate (fullServiceName svc.nodeName svc.serviceName))
      checkCatalogServices rt nodeName nodeID now
        (fullServiceName svc.nodeName svc.serviceName :: seen) rest

/-- `VerifyPrivateServiceCatalog`; success returns the key and the signature that were checked. -/
def verifyPrivateServiceCatalog (rt : Runtime) (catalog : PrivateServiceCatalog) (now : Time) :
    Except ValueError (SignedText rt.toCrypto catalog.nodeID
      (privateCatalogSigningPayload rt catalog) catalog.publicKey catalog.signature) := do
  rejectIf (catalog.nodeID = "" || catalog.nodeName = "" || catalog.publicKey = "" ||
    catalog.issuedAt = "" || catalog.expiresAt = "" || catalog.signature = "") .catalogFields
  liftRecord (validateCanonicalNodeName catalog.nodeName)
  let keys ← liftRecord (decodeKeyAndSignature catalog.publicKey catalog.signature)
  rejectIf (nodeIDFromPublicKey rt.toCrypto keys.1.1 ≠ catalog.nodeID) (.record .nodeIDMismatch)
  let issuedAt ← orReject (parseRFC3339 catalog.issuedAt) (.record .issuedAtFormat)
  let expiresAt ← orReject (parseRFC3339 catalog.expiresAt) (.record .expiresAtFormat)
  rejectIf (!decide (issuedAt < expiresAt)) (.record .expiryNotAfterIssue)
  rejectIf (expiresAt < now) (.record .expired)
  checkCatalogServices rt catalog.nodeName catalog.nodeID now [] catalog.services
  liftRecord (checkSignature rt.toCrypto catalog.nodeID (privateCatalogSigningPayload rt catalog)
    catalog.publicKey catalog.signature keys)

/-- `DecodePrivateServiceCatalog`. -/
def decodePrivateServiceCatalog (rt : Runtime) (raw : String) (now : Time) :
    Except ValueError PrivateServiceCatalog := do
  let catalog ← orReject (rt.unmarshalCatalog raw) .decodeCatalog
  let _ ← verifyPrivateServiceCatalog rt catalog now
  return catalog

/-! ## Hidden descriptors -/

/-- `parseHiddenDescriptor`. The format has no signature field. -/
def parseHiddenDescriptor (rt : Runtime) (raw : String) : Except ValueError HiddenDescriptor := do
  let desc ← orReject (rt.unmarshalDescriptor raw) .decodeDescriptor
  rejectIf (desc.nodeID = "" || desc.serviceTag = "" || desc.issuedAt = "" ||
    desc.expiresAt = "" || desc.nonce = "" || desc.ciphertext = "") .descriptorFields
  let _ ← orReject (parseRFC3339 desc.issuedAt) (.record .issuedAtFormat)
  let _ ← orReject (parseRFC3339 desc.expiresAt) (.record .expiresAtFormat)
  let _ ← orReject (rawURLEncoding.decodeString desc.nonce) .decodeDescriptor
  let _ ← orReject (rawURLEncoding.decodeString desc.ciphertext) .decodeDescriptor
  return desc

/-- `hiddenServiceTag`. -/
def hiddenServiceTag (cr : Crypto) (rec : ServiceRecord) : String :=
  cr.shortSum 16 ("vx6-hidden-service-tag\n" ++ rec.nodeID ++ "\n" ++ rec.serviceName ++ "\n" ++
    rec.aliasName)

/-- `hiddenDescriptorFingerprint`. -/
def hiddenDescriptorFingerprint (cr : Crypto) (desc : HiddenDescriptor) : String :=
  cr.shortSum 12 (desc.nodeID ++ "\n" ++ desc.serviceTag ++ "\n" ++ desc.issuedAt ++ "\n" ++
    desc.expiresAt ++ "\n" ++ desc.nonce ++ "\n" ++ desc.ciphertext)

/-- `rawFingerprint`. -/
def rawFingerprint (cr : Crypto) (raw : String) : String := cr.shortSum 12 raw

/-- `serviceFingerprint`. -/
def serviceFingerprint (cr : Crypto) (rec : ServiceRecord) : String :=
  cr.shortSum 12 (rec.signature ++ "\n" ++ rec.issuedAt ++ "\n" ++ rec.expiresAt)

end Vx6.Dht
