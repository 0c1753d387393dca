import Vx6.Record.Endpoint

/-!
# Service records

`internal/record/service.go`: the service record, its signing payload and its verification. A
hidden service has an alias and a profile instead of an address.
-/

set_option autoImplicit false

namespace Vx6.Record

open Vx6.Go Vx6.Lib

/-- `ServiceRecord`. -/
structure ServiceRecord where
  nodeID : String := ""
  nodeName : String := ""
  serviceName : String := ""
  aliasName : String := ""
  address : String := ""
  isHidden : Bool := false
  isPrivate : Bool := false
  hiddenProfile : String := ""
  introPoints : List String := []
  standbyIntroPoints : List String := []
  publicKey : String := ""
  issuedAt : String := ""
  expiresAt : String := ""
  signature : String := ""
  deriving DecidableEq, Repr

/-- `ValidateHiddenAlias`. -/
def validateHiddenAlias (name : String) : Except RecordError Unit := do
  rejectIf (name = "") .aliasEmpty
  rejectIf (containsAny name " \t\r\n/#") (.aliasCharacters name)

/-- `NormalizeHiddenProfile`. -/
def normalizeHiddenProfile (profile : String) : String :=
  let p := toLower (trimSpace profile)
  if p = "" ∨ p = "fast" then "fast" else if p = "balanced" then "balanced" else ""

/-- The text of a Boolean in a signed payload. -/
def boolText (b : Bool) : String := if b then "true" else "false"

/-- `serviceSigningPayload`. -/
def serviceSigningPayload (rec : ServiceRecord) : String :=
  rec.nodeID ++ "\n" ++ rec.nodeName ++ "\n" ++ rec.serviceName ++ "\n" ++ rec.aliasName ++ "\n" ++
    rec.address ++ "\n" ++ boolText rec.isHidden ++ "\n" ++ boolText rec.isPrivate ++ "\n" ++
    rec.hiddenProfile ++ "\n" ++ join rec.introPoints "," ++ "\n" ++
    join rec.standbyIntroPoints "," ++ "\n" ++ rec.publicKey ++ "\n" ++ rec.issuedAt ++ "\n" ++
    rec.expiresAt ++ "\n"

/-- The checks on alias, address, visibility and profile. -/
def checkServiceShape (rec : ServiceRecord) : Except RecordError Unit := do
  if rec.aliasName ≠ "" then validateHiddenAlias rec.aliasName else .ok ()
  rejectIf (!rec.isHidden && rec.address = "") .addressRequired
  if !rec.isHidden then validateIPv6Address rec.address else .ok ()
  rejectIf (rec.isHidden && rec.isPrivate) .hiddenAndPrivate
  rejectIf (rec.isHidden && rec.aliasName = "") .aliasRequired
  rejectIf (rec.isHidden && normalizeHiddenProfile rec.hiddenProfile = "")
    (.invalidProfile rec.hiddenProfile)

/-- `VerifyServiceRecord`; success returns the key and signature that were checked. -/
def verifyServiceRecord (cr : Crypto) (rec : ServiceRecord) (now : Time) :
    Except RecordError
      (SignedText cr rec.nodeID (serviceSigningPayload rec) rec.publicKey rec.signature) := do
  rejectIf (rec.nodeID = "" || rec.nodeName = "" || rec.serviceName = "") .missingFields
  validateCanonicalNodeName rec.nodeName
  checkServiceShape rec
  let keys ← decodeKeyAndSignature rec.publicKey rec.signature
  let issuedAt ← orReject (parseRFC3339 rec.issuedAt) .issuedAtFormat
  let expiresAt ← orReject (parseRFC3339 rec.expiresAt) .expiresAtFormat
  rejectIf (!decide (issuedAt < expiresAt)) .expiryNotAfterIssue
  rejectIf (expiresAt < now) .expired
  checkSignature cr rec.nodeID (serviceSigningPayload rec) rec.publicKey rec.signature keys

/-- `FullServiceName`. -/
def fullServiceName (nodeName serviceName : String) : String :=
  match normalizeNodeName nodeName with
  | .ok canonical => canonical ++ "." ++ serviceName
  | .error _ => nodeName ++ "." ++ serviceName

/-- `CanonicalServiceLookupKey`. -/
def canonicalServiceLookupKey (key : String) : String :=
  match cut key '.' with
  | none => key
  | some (nodeName, serviceName) =>
    match normalizeNodeName nodeName with
    | .ok canonical => canonical ++ "." ++ serviceName
    | .error _ => key

/-- `ServiceLookupKey`. -/
def serviceLookupKey (rec : ServiceRecord) : String :=
  if rec.isHidden && rec.aliasName ≠ "" then rec.aliasName
  else fullServiceName rec.nodeName rec.serviceName

end Vx6.Record
