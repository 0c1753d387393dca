import Vx6.Record.Service

/-!
# Issuing records

The constructors of `internal/record`: `newEndpointRecord` with its two wrappers, `NewServiceRecord` and
`SignServiceRecord`. `Signer` adds `ed25519.Sign` to the cryptographic primitives.
-/

set_option autoImplicit false

namespace Vx6.Record

open Vx6.Go Vx6.Lib

/-- The primitives with `ed25519.Sign`, applied to a private key and a message. -/
structure Signer extends Crypto where
  ed25519Sign : Bytes → Bytes → Bytes

/-- A signature over a text, as records hold it. -/
def Signer.signText (sg : Signer) (id : Identity) (text : String) : String :=
  stdEncoding.encodeToString (sg.ed25519Sign id.privateKey (bytes text))

/-- The reasons for which no record is issued. -/
inductive IssueError where
  | record (e : RecordError)
  /-- `ttl must be greater than zero` -/
  | ttl
  | identity (e : IdentityError)
  /-- `record sequence must be greater than zero` -/
  | zeroSequence
  /-- `service name cannot be empty` -/
  | serviceNameEmpty
  /-- `service name %q cannot contain dots` -/
  | serviceNameDots (name : String)
  deriving DecidableEq, Repr

section Constructors

variable (sg : Signer) (id : Identity)

/-! ## Endpoint records -/

/-- The record of `newEndpointRecord` before it is signed. A sequence makes it one of version 2. -/
def unsignedEndpoint (nodeName address : String) (ttl : Duration) (now : Time) (sequence : UInt64) :
    EndpointRecord where
  version := if 0 < sequence then 2 else 1
  sequence := sequence
  nodeID := id.nodeID
  nodeName := nodeName
  address := address
  publicKey := stdEncoding.encodeToString id.publicKey
  issuedAt := formatRFC3339 now
  expiresAt := formatRFC3339 (now + ttl)

/-- `newEndpointRecord`. -/
def newEndpointRecord (nodeName address : String) (ttl : Duration) (now : Time) (sequence : UInt64) :
    Except IssueError EndpointRecord := do
  let canonicalName ← (normalizeNodeName nodeName).mapError .record
  (validateIPv6Address address).mapError .record
  rejectIf (ttl ≤ 0) .ttl
  (id.validate sg.toCrypto).mapError .identity
  let record := unsignedEndpoint id canonicalName address ttl now sequence
  return { record with signature := sg.signText id (signingPayload record) }

/-- `NewEndpointRecordV2`. -/
def newEndpointRecordV2 (nodeName address : String) (sequence : UInt64) (ttl : Duration) (now : Time) :
    Except IssueError EndpointRecord := do
  rejectIf (sequence = 0) .zeroSequence
  newEndpointRecord sg id nodeName address ttl now sequence

/-! ## Service records -/

/-- `ValidateServiceName`. -/
def validateServiceName (name : String) : Except IssueError Unit := do
  rejectIf (name = "") .serviceNameEmpty
  rejectIf (contains name ".") (.serviceNameDots name)

/-- The record of `NewServiceRecord` before it is signed. -/
def unsignedService (nodeName serviceName address : String) (ttl : Duration) (now : Time) :
    ServiceRecord where
  nodeID := id.nodeID
  nodeName := nodeName
  serviceName := serviceName
  address := address
  publicKey := stdEncoding.encodeToString id.publicKey
  issuedAt := formatRFC3339 now
  expiresAt := formatRFC3339 (now + ttl)

/-- `SignServiceRecord`. -/
def signServiceRecord (rec : ServiceRecord) : ServiceRecord :=
  { rec with signature := sg.signText id (serviceSigningPayload rec) }

/-- `NewServiceRecord`. -/
def newServiceRecord (nodeName serviceName address : String) (ttl : Duration) (now : Time) :
    Except IssueError ServiceRecord := do
  let canonicalName ← (normalizeNodeName nodeName).mapError .record
  validateServiceName serviceName
  if address ≠ "" then (validateIPv6Address address).mapError .record else .ok ()
  rejectIf (ttl ≤ 0) .ttl
  (id.validate sg.toCrypto).mapError .identity
  return signServiceRecord sg id (unsignedService id canonicalName serviceName address ttl now)

end Constructors

/-! ## Canonical names -/

section Names

variable {name canonical : String}

/-- What `NormalizeNodeName` gives passes the checks on a canonical name. -/
theorem check_of_normalizeNodeName (h : normalizeNodeName name = .ok canonical) :
    canonical = toUpper name ∧ checkCanonicalNodeName canonical = .ok () := by
  simp only [normalizeNodeName, bind_eq_ok, pure_eq_ok] at h
  obtain ⟨_, hcheck, rfl⟩ := h
  exact ⟨rfl, hcheck⟩

/-- A canonical name is short and has the characters of names only. -/
theorem chars_of_checkCanonicalNodeName (h : checkCanonicalNodeName canonical = .ok ()) :
    3 ≤ len canonical ∧ len canonical ≤ 16 ∧ ∀ c ∈ canonical.toList, isNameChar c = true := by
  simp only [checkCanonicalNodeName, bind_eq_ok, rejectIf_eq_ok, decide_eq_false_iff_not, Nat.not_lt,
    Bool.not_eq_false', List.all_eq_true] at h
  obtain ⟨_, hmin, _, hmax, _, -, hchars⟩ := h
  exact ⟨hmin, hmax, hchars⟩

theorem toUpperChar_of_isNameChar {c : Char} (h : isNameChar c = true) : toUpperChar c = c := by
  have hrange : c.toNat ≤ 'Z'.toNat := by
    simp only [isNameChar, Bool.or_eq_true, decide_eq_true_eq] at h
    rcases h with (⟨-, h⟩ | ⟨-, h⟩) | rfl
    · exact h
    · exact h.trans (by decide)
    · decide
  rw [toUpperChar, if_neg, if_neg, if_neg]
  · rintro rfl
    exact absurd hrange (by decide)
  · rintro rfl
    exact absurd hrange (by decide)
  · rintro ⟨hlow, -⟩
    exact absurd (Nat.le_trans hlow hrange) (by decide)

/-- A canonical name is its own canonical form. -/
theorem normalizeNodeName_of_check (h : checkCanonicalNodeName canonical = .ok ()) :
    normalizeNodeName canonical = .ok canonical := by
  have hupper : toUpper canonical = canonical := by
    have hmap : canonical.toList.map toUpperChar = canonical.toList :=
      (List.map_congr_left fun c hc =>
        toUpperChar_of_isNameChar ((chars_of_checkCanonicalNodeName h).2.2 c hc)).trans (List.map_id _)
    rw [toUpper, hmap, String.ofList_toList]
  rw [normalizeNodeName, hupper, h]
  rfl

end Names

/-! ## What is issued -/

section Issued

variable {sg : Signer} {id : Identity} {nodeName address : String} {ttl : Duration} {now : Time}
  {sequence : UInt64} {rec : EndpointRecord}

/-- A record of `NewEndpointRecordV2` has the sequence it was given. -/
theorem sequence_of_newEndpointRecordV2
    (h : newEndpointRecordV2 sg id nodeName address sequence ttl now = .ok rec) :
    rec.sequence = sequence := by
  simp only [newEndpointRecordV2, newEndpointRecord, bind_eq_ok, pure_eq_ok] at h
  obtain ⟨-, -, -, -, -, -, -, -, -, -, rfl⟩ := h
  rfl

/-- A record of `NewServiceRecord` has a canonical node name, and a service name that is not empty. -/
theorem names_of_newServiceRecord {serviceName : String} {rec : ServiceRecord}
    (h : newServiceRecord sg id nodeName serviceName address ttl now = .ok rec) :
    checkCanonicalNodeName rec.nodeName = .ok () ∧ rec.serviceName = serviceName ∧
      validateServiceName serviceName = .ok () := by
  simp only [newServiceRecord, bind_eq_ok, mapError_eq_ok] at h
  obtain ⟨canonical, hname, _, hservice, h⟩ := h
  have hrec : signServiceRecord sg id (unsignedService id canonical serviceName address ttl now) =
      rec := by
    split_ifs at h
    all_goals
      simp only [bind_eq_ok, pure_eq_ok] at h
      obtain ⟨_, -, _, -, _, -, h⟩ := h
      exact h
  subst hrec
  exact ⟨(check_of_normalizeNodeName hname).2, rfl, hservice⟩

end Issued

end Vx6.Record
