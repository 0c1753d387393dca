import Vx6.Go.Encoding
import Vx6.Go.Sort
import Vx6.Node.Services
import Vx6.Record.Json

/-!
# Known peers in the configuration

`internal/config/config.go` keeps a directory of known peers in the configuration file. A signed
endpoint record is flattened into an entry, and entries are normalized and merged by ID, by name or by
address each time the file is read or written. The entry of a record that verifies is normal if the
fields of the record have no white space at their ends (`recorded_of_verified`).
-/

set_option autoImplicit false

namespace Vx6.Config

open Vx6.Go Vx6.Lib Vx6.Record

/-! ## Entries -/

/-- `KnownPeerEntry`. -/
structure KnownPeerEntry where
  nodeID : String := ""
  nodeName : String := ""
  address : String := ""
  recordVersion : UInt8 := 0
  recordSequence : UInt64 := 0
  publicKey : String := ""
  identityIssuedAt : String := ""
  identityExpiresAt : String := ""
  identitySignature : String := ""
  deriving DecidableEq, Repr

/-- The entry with the fields trimmed. -/
def KnownPeerEntry.trimmed (entry : KnownPeerEntry) : KnownPeerEntry :=
  { entry with
    nodeID := trimSpace entry.nodeID
    nodeName := trimSpace entry.nodeName
    address := trimSpace entry.address
    publicKey := trimSpace entry.publicKey
    identityIssuedAt := trimSpace entry.identityIssuedAt
    identityExpiresAt := trimSpace entry.identityExpiresAt
    identitySignature := trimSpace entry.identitySignature }

/-- `record.ValidateNodeName` returns no error. -/
def validNodeName (name : String) : Bool := (normalizeNodeName name).isOk

/-- `normalizeKnownPeerEntry`. -/
def normalizeKnownPeerEntry (entry : KnownPeerEntry) : Option KnownPeerEntry :=
  let entry := entry.trimmed
  if entry.address = "" then none
  else if !(validateIPv6Address entry.address).isOk then none
  else if entry.nodeName ≠ "" ∧ validNodeName entry.nodeName =
    false then some { entry with nodeName := "" }
  else some entry

/-- `knownPeerEntriesMatch`. -/
def knownPeerEntriesMatch (a b : KnownPeerEntry) : Bool :=
  (a.nodeID ≠ "" && b.nodeID ≠ "" && a.nodeID = b.nodeID) ||
    (a.nodeName ≠ "" && b.nodeName ≠ "" && a.nodeName = b.nodeName) ||
      (a.address ≠ "" && a.address = b.address)

/-- `knownPeerRecordMatches`. -/
def knownPeerRecordMatches (entry : KnownPeerEntry) (rec : EndpointRecord) : Bool :=
  (entry.nodeID ≠ "" && entry.nodeID = rec.nodeID) ||
    (entry.nodeName ≠ "" && entry.nodeName = rec.nodeName) ||
      (entry.address ≠ "" && entry.address = rec.address)

/-- What `upsertKnownPeerEntry` makes of an entry that the new one matches. -/
def mergeEntry (old entry : KnownPeerEntry) : KnownPeerEntry :=
  let named := { old with
    nodeID := if entry.nodeID ≠ "" then entry.nodeID else old.nodeID
    nodeName := if entry.nodeName ≠ "" then entry.nodeName else old.nodeName
    address := entry.address }
  if entry.publicKey ≠ "" then
    { named with
      recordVersion := entry.recordVersion
      recordSequence := entry.recordSequence
      publicKey := entry.publicKey
      identityIssuedAt := entry.identityIssuedAt
      identityExpiresAt := entry.identityExpiresAt
      identitySignature := entry.identitySignature }
  else if old.address ≠ entry.address then
    { named with
      recordVersion := 0
      recordSequence := 0
      publicKey := ""
      identityIssuedAt := ""
      identityExpiresAt := ""
      identitySignature := "" }
  else named

/-- The loop of `upsertKnownPeerEntry`: the first entry that matches is changed, otherwise the new
one is added. -/
def placeEntry (entry : KnownPeerEntry) : List KnownPeerEntry → List KnownPeerEntry
  | [] => [entry]
  | old :: rest =>
    if knownPeerEntriesMatch old entry then mergeEntry old entry :: rest else old :: placeEntry entry rest

/-- `upsertKnownPeerEntry`. -/
def upsertKnownPeerEntry (entries : List KnownPeerEntry) (entry : KnownPeerEntry) : List KnownPeerEntry :=
  match normalizeKnownPeerEntry entry with
  | some entry => placeEntry entry entries
  | none => entries

/-- The comparison of entries: by name, then by ID, then by address. -/
def entryLess (a b : KnownPeerEntry) : Bool :=
  if a.nodeName ≠ b.nodeName then a.nodeName < b.nodeName
  else if a.nodeID ≠ b.nodeID then a.nodeID < b.nodeID
  else a.address < b.address

/-- An entry for an address. -/
def addressEntry (addr : String) : KnownPeerEntry := { address := addr }

/-- `normalizeKnownPeerEntries`: what can be normalized is merged entry by entry. -/
def normalizeKnownPeerEntries (sort : SliceSort) (entries : List KnownPeerEntry) (addrs : List String)
    (legacyEntries : List KnownPeerEntry) (legacyAddrs : List String) : List KnownPeerEntry :=
  let given := entries ++ addrs.map addressEntry ++ legacyEntries ++ legacyAddrs.map addressEntry
  sort.slice entryLess ((given.filterMap normalizeKnownPeerEntry).foldl upsertKnownPeerEntry [])

/-- The entry of a record. -/
def entryOf (rec : EndpointRecord) : KnownPeerEntry where
  nodeID := rec.nodeID
  nodeName := rec.nodeName
  address := rec.address
  recordVersion := rec.version
  recordSequence := rec.sequence
  publicKey := rec.publicKey
  identityIssuedAt := rec.issuedAt
  identityExpiresAt := rec.expiresAt
  identitySignature := rec.signature

/-- `mergeKnownPeerRecord`: the entries, and whether they have changed. -/
def mergeKnownPeerRecord (rec : EndpointRecord) : List KnownPeerEntry → List KnownPeerEntry × Bool
  | [] => ([entryOf rec], true)
  | entry :: rest =>
    if knownPeerRecordMatches entry rec then (entryOf rec :: rest, decide (entryOf rec ≠ entry))
    else (entry :: (mergeKnownPeerRecord rec rest).1, (mergeKnownPeerRecord rec rest).2)

/-! ## Normal entries -/

/-- Normalizing does not change the entry. -/
structure Normal (entry : KnownPeerEntry) : Prop where
  trimmed : entry.trimmed = entry
  address : entry.address ≠ ""
  valid : (validateIPv6Address entry.address).isOk = true
  name : entry.nodeName ≠ "" → validNodeName entry.nodeName = true

theorem Normal.normalize {entry : KnownPeerEntry} (h : Normal entry) :
    normalizeKnownPeerEntry entry = some entry := by
  rw [normalizeKnownPeerEntry]
  simp only [h.trimmed]
  rw [if_neg h.address, if_neg (by simp [h.valid]), if_neg]
  rintro ⟨hne, hinvalid⟩
  rw [h.name hne] at hinvalid
  cases hinvalid

/-- The texts of an entry. -/
def KnownPeerEntry.texts (entry : KnownPeerEntry) : List String :=
  [entry.nodeID, entry.nodeName, entry.address, entry.publicKey, entry.identityIssuedAt,
    entry.identityExpiresAt,
    entry.identitySignature]

theorem KnownPeerEntry.trimmed_eq_iff {entry : KnownPeerEntry} :
    entry.trimmed = entry ↔ ∀ text ∈ entry.texts, trimSpace text = text := by
  obtain ⟨nodeID, nodeName, address, version, sequence, publicKey, issuedAt, expiresAt, signature⟩ := entry
  simp [trimmed, texts]

/-! ## The entry of a record -/

/-- A record whose entry is normal and has an ID, a name and an address. -/
structure Recorded (rec : EndpointRecord) : Prop where
  normal : Normal (entryOf rec)
  nodeID : rec.nodeID ≠ ""
  nodeName : rec.nodeName ≠ ""
  address : rec.address ≠ ""

section Verified

variable {cr : Crypto} {rec : EndpointRecord}

/-- A record that verifies has all fields, and a sequence only in version 2. -/
theorem facts_of_verified {now : Time} (h : verifyEndpointRecord cr rec now = .ok ()) :
    (rec.nodeID ≠ "" ∧ rec.nodeName ≠ "" ∧ rec.address ≠ "") ∧
      validateCanonicalNodeName rec.nodeName = .ok () ∧ validateIPv6Address rec.address = .ok () ∧
        (rec.version < 2 → rec.sequence = 0) := by
  simp only [verifyEndpointRecord, verifyEndpoint, bind_eq_ok, rejectIf_eq_ok] at h
  obtain ⟨_, ⟨_, hfields, _, hname, _, haddress, _, -, _, -, _, -, _, -, _, hsequence, -⟩, -⟩ := h
  refine ⟨by simpa [and_assoc] using hfields, hname, haddress, fun hversion => ?_⟩
  simpa [hversion] using hsequence

/-- A record that verifies has a normal entry if its fields are trimmed. -/
theorem recorded_of_verified {now : Time} (hverified : verifyEndpointRecord cr rec now = .ok ())
    (htrimmed : (entryOf rec).trimmed = entryOf rec) : Recorded rec := by
  obtain ⟨⟨hid, hname, haddress⟩, hcanonical, hvalid, -⟩ := facts_of_verified hverified
  rw [validateCanonicalNodeName, check_bind_eq_ok, rejectIf_eq_ok] at hcanonical
  have hupper : rec.nodeName = toUpper rec.nodeName := by simpa using hcanonical.1
  have hnormalized : normalizeNodeName rec.nodeName = .ok rec.nodeName := by
    rw [normalizeNodeName, ← hupper, hcanonical.2]
    rfl
  refine ⟨⟨htrimmed, haddress, ?_, fun _ => ?_⟩, hid, hname, haddress⟩
  · show (validateIPv6Address rec.address).isOk = true
    rw [hvalid]
    rfl
  · show (normalizeNodeName rec.nodeName).isOk = true
    rw [hnormalized]
    rfl

end Verified

/-- A hash that tells keys apart, and signatures over the texts that are accepted. -/
def sampleCrypto (accepts : Bytes → Bool) : Crypto where
  sha256 bs := Vector.replicate 32 (bs.headD 0)
  ed25519Verify _ text _ := accepts text

/-- A record of the node `ALICE` with the given version and sequence. -/
def aliceRecord (version : UInt8) (sequence : UInt64) : EndpointRecord where
  version := version
  sequence := sequence
  nodeID := "vx6_" ++ hexEncode (List.replicate 32 1)
  nodeName := "ALICE"
  address := "[2001:db8::1]:4242"
  publicKey := stdEncoding.encodeToString (List.replicate 32 1)
  issuedAt := "2024-06-01T00:00:00Z"
  expiresAt := "2024-12-01T00:00:00Z"
  signature := stdEncoding.encodeToString (List.replicate 64 0)

/-- 2024-07-01T00:00:00Z, when the records are in force. -/
def midYear : Time := 1719792000 * second

theorem trimmed_aliceRecord (version : UInt8) (sequence : UInt64) :
    (entryOf (aliceRecord version sequence)).trimmed = entryOf (aliceRecord version sequence) :=
  KnownPeerEntry.trimmed_eq_iff.2 (by decide +kernel : ∀ text ∈ (entryOf (aliceRecord 0 0)).texts,
    trimSpace text = text)

theorem legacyRecord_verified :
    verifyEndpointRecord (sampleCrypto fun _ => true) (aliceRecord 0 0) midYear = .ok () :=
  ok_of_isOk (by decide +kernel)

end Vx6.Config
