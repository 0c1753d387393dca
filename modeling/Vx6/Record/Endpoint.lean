import Vx6.Identity
import Vx6.Go.Time
import Vx6.Go.Net
import Vx6.Lib.Checks

/-!
# Endpoint records

`internal/record/name.go` and `internal/record/endpoint.go`: canonical node names, the endpoint
record with its two signed formats, verification, and the order `EndpointRecordNewer`. A verified
record carries its key binding and its signature check in its type.
-/

set_option autoImplicit false

namespace Vx6.Record

open Vx6.Go Vx6.Lib

/-- The reasons for which a record is refused, one for each message of the package. -/
inductive RecordError where
  | missingFields
  | nameNotUppercase (name : String)
  | nameTooShort
  | nameTooLong (name : String)
  | nameHyphen (name : String)
  | nameCharacters (name : String)
  | invalidAddress (address : String)
  | addressNotIPv6 (address : String)
  | aliasEmpty
  | aliasCharacters (name : String)
  | addressRequired
  | hiddenAndPrivate
  | aliasRequired
  | invalidProfile (profile : String)
  | publicKeyEncoding
  | signatureEncoding
  | publicKeySize
  | signatureSize
  | issuedAtFormat
  | expiresAtFormat
  | unsupportedVersion (version : UInt8)
  | missingSequence
  | unexpectedSequence
  | expiryNotAfterIssue
  | expired
  | nodeIDMismatch
  | signatureMismatch
  deriving DecidableEq, Repr

/-! ## Node names -/

/-- `MinNodeNameLength`. -/
def minNodeNameLength : Nat := 3

/-- `MaxNodeNameLength`. -/
def maxNodeNameLength : Nat := 16

/-- The characters of a canonical name. -/
def isNameChar (c : Char) : Bool :=
  decide ('A' ≤ c ∧ c ≤ 'Z') || decide ('0' ≤ c ∧ c ≤ '9') || c = '-'

/-- The checks on a name that is already in upper case. -/
def checkCanonicalNodeName (name : String) : Except RecordError Unit := do
  rejectIf (len name < minNodeNameLength) .nameTooShort
  rejectIf (maxNodeNameLength < len name) (.nameTooLong name)
  rejectIf (name.toList.head? = some '-' || name.toList.getLast? = some '-') (.nameHyphen name)
  rejectIf (!name.toList.all isNameChar) (.nameCharacters name)

/-- `NormalizeNodeName`. -/
def normalizeNodeName (name : String) : Except RecordError String := do
  checkCanonicalNodeName (toUpper name)
  return toUpper name

/-- `ValidateCanonicalNodeName`. -/
def validateCanonicalNodeName (name : String) : Except RecordError Unit := do
  rejectIf (name ≠ toUpper name) (.nameNotUppercase name)
  checkCanonicalNodeName name

/-- `transfer.ValidateIPv6Address`. -/
def validateIPv6Address (address : String) : Except RecordError Unit := do
  let (host, _) ← orReject (splitHostPort address) (.invalidAddress address)
  let ip ← orReject (parseIP host) (.addressNotIPv6 address)
  rejectIf (IP.to4 ip).isSome (.addressNotIPv6 address)

/-! ## Endpoint records -/

/-- `EndpointRecord`. -/
structure EndpointRecord where
  version : UInt8 := 0
  sequence : UInt64 := 0
  nodeID : String := ""
  nodeName : String := ""
  address : String := ""
  publicKey : String := ""
  issuedAt : String := ""
  expiresAt : String := ""
  signature : String := ""
  deriving DecidableEq, Repr

/-- `signingPayload`: version 2 and the legacy format sign different texts. -/
def signingPayload (record : EndpointRecord) : String :=
  if 2 ≤ record.version then
    "vx6/endpoint-record/v2\n" ++ formatInt record.version.toNat ++ "\n" ++
      formatInt record.sequence.toNat ++ "\n" ++ record.nodeID ++ "\n" ++ record.nodeName ++ "\n" ++
      record.address ++ "\n" ++ record.publicKey ++ "\n" ++ record.issuedAt ++ "\n" ++
      record.expiresAt ++ "\n"
  else
    record.nodeID ++ "\n" ++ record.nodeName ++ "\n" ++ record.address ++ "\n" ++
      record.publicKey ++ "\n" ++ record.issuedAt ++ "\n" ++ record.expiresAt ++ "\n"

/-- A public key with the given node ID verifies a signature over a text. -/
structure SignedText (cr : Crypto) (nodeID text publicKey signature : String) where
  key : Bytes
  sig : Bytes
  key_eq : stdEncoding.decodeString publicKey = some key
  sig_eq : stdEncoding.decodeString signature = some sig
  key_size : key.length = Vx6.publicKeySize
  binding : nodeIDFromPublicKey cr key = nodeID
  verified : cr.ed25519Verify key (bytes text) sig = true

/-- `VerifiedEndpointRecord`: a record with the key that was checked against its node ID and its
signature. -/
structure VerifiedEndpointRecord (cr : Crypto) where
  record : EndpointRecord
  signed : SignedText cr record.nodeID (signingPayload record) record.publicKey record.signature

/-- Decode a public key and a signature and check their sizes. -/
def decodeKeyAndSignature (publicKey signature : String) :
    Except RecordError {p : Bytes × Bytes // stdEncoding.decodeString publicKey = some p.1 ∧
      stdEncoding.decodeString signature = some p.2 ∧ p.1.length = Vx6.publicKeySize} := do
  let key ← orRejectSub (stdEncoding.decodeString publicKey) .publicKeyEncoding
  let sig ← orRejectSub (stdEncoding.decodeString signature) .signatureEncoding
  if hl : key.1.length = Vx6.publicKeySize then
    if sig.1.length = Vx6.signatureSize then .ok ⟨(key.1, sig.1), key.2, sig.2, hl⟩
    else .error .signatureSize
  else .error .publicKeySize

theorem decodeKeyAndSignature_of_sizes {publicKey signature : String} {key sig : Bytes}
    (hkey : stdEncoding.decodeString publicKey = some key)
    (hsig : stdEncoding.decodeString signature = some sig)
    (hkeyLen : key.length = Vx6.publicKeySize) (hsigLen : sig.length = Vx6.signatureSize) :
    decodeKeyAndSignature publicKey signature = .ok ⟨(key, sig), hkey, hsig, hkeyLen⟩ := by
  simp [decodeKeyAndSignature, orRejectSub_of_eq hkey, orRejectSub_of_eq hsig, hkeyLen, hsigLen, bind,
    Except.bind]

/-- Check that a decoded key has the node ID and verifies the signature over the text. -/
def checkSignature (cr : Crypto) (nodeID text publicKey signature : String)
    (p : {p : Bytes × Bytes // stdEncoding.decodeString publicKey = some p.1 ∧
      stdEncoding.decodeString signature = some p.2 ∧ p.1.length = Vx6.publicKeySize}) :
    Except RecordError (SignedText cr nodeID text publicKey signature) :=
  if hb : nodeIDFromPublicKey cr p.1.1 = nodeID then
    if hv : cr.ed25519Verify p.1.1 (bytes text) p.1.2 = true then
      .ok ⟨p.1.1, p.1.2, p.2.1, p.2.2.1, p.2.2.2, hb, hv⟩
    else .error .signatureMismatch
  else .error .nodeIDMismatch

/-- The issue time of a legacy record must parse and lie before the expiry. -/
def checkLegacyTimes (record : EndpointRecord) (expiresAt : Time) : Except RecordError Unit :=
  if record.version < 2 then do
    let issuedAt ← orReject (parseRFC3339 record.issuedAt) .issuedAtFormat
    rejectIf (!decide (issuedAt < expiresAt)) .expiryNotAfterIssue
  else .ok ()

/-- `VerifyEndpoint`. -/
def verifyEndpoint (cr : Crypto) (record : EndpointRecord) (now : Time) :
    Except RecordError (VerifiedEndpointRecord cr) := do
  rejectIf (record.nodeID = "" || record.nodeName = "" || record.address = "") .missingFields
  validateCanonicalNodeName record.nodeName
  validateIPv6Address record.address
  let keys ← decodeKeyAndSignature record.publicKey record.signature
  let expiresAt ← orReject (parseRFC3339 record.expiresAt) .expiresAtFormat
  rejectIf (2 < record.version) (.unsupportedVersion record.version)
  rejectIf (record.version = 2 && record.sequence = 0) .missingSequence
  rejectIf (record.version < 2 && record.sequence ≠ 0) .unexpectedSequence
  checkLegacyTimes record expiresAt
  rejectIf (expiresAt < now) .expired
  let signed ← checkSignature cr record.nodeID (signingPayload record) record.publicKey
    record.signature keys
  return ⟨record, signed⟩

/-- `VerifyEndpointRecord`. -/
def verifyEndpointRecord (cr : Crypto) (record : EndpointRecord) (now : Time) :
    Except RecordError Unit := do
  let _ ← verifyEndpoint cr record now
  return ()

/-- `Fingerprint`. -/
def fingerprint (cr : Crypto) (record : EndpointRecord) : String :=
  cr.shortSum 12 (signingPayload record)

/-- `EndpointRecordNewer`: the record version decides first, then the sequence of version 2 or the
issue time of the legacy format. -/
def endpointRecordNewer (candidate current : EndpointRecord) : Bool :=
  if candidate.version ≠ current.version then current.version < candidate.version
  else if 2 ≤ candidate.version then current.sequence < candidate.sequence
  else
    match parseRFC3339 candidate.issuedAt, parseRFC3339 current.issuedAt with
    | some candidateTime, some currentTime => decide (currentTime < candidateTime)
    | _, _ => false

/-- `EndpointRecordSequenceVersion`: the sequence of version 2, the issue time in Unix seconds of
the legacy format. -/
def endpointRecordSequenceVersion (rec : EndpointRecord) : UInt64 :=
  if 2 ≤ rec.version then rec.sequence
  else
    match parseRFC3339 rec.issuedAt with
    | some issuedAt => toUInt64 (unix issuedAt)
    | none => 0

/-! ## What verification establishes -/

/-- A verified record is the one that was given, and its version is at most 2. -/
theorem verifyEndpoint_ok {cr : Crypto} {record : EndpointRecord} {now : Time}
    {v : VerifiedEndpointRecord cr} (h : verifyEndpoint cr record now = .ok v) :
    v.record = record ∧ record.version ≤ 2 := by
  simp only [verifyEndpoint, bind_eq_ok, rejectIf_eq_ok, orReject_eq_ok, pure_eq_ok,
    exists_const] at h
  obtain ⟨-, -, -, -, -, -, -, -, -, hv, -, -, -, -, -, -, -, rfl⟩ := h
  exact ⟨rfl, by simpa using hv⟩

theorem verifyEndpointRecord_ok {cr : Crypto} {record : EndpointRecord} {now : Time}
    (h : verifyEndpointRecord cr record now = .ok ()) :
    record.version ≤ 2 ∧
      Nonempty (SignedText cr record.nodeID (signingPayload record) record.publicKey
        record.signature) := by
  simp only [verifyEndpointRecord, bind_eq_ok] at h
  obtain ⟨v, hv, -⟩ := h
  obtain ⟨rfl, hle⟩ := verifyEndpoint_ok hv
  exact ⟨hle, ⟨v.signed⟩⟩

end Vx6.Record
