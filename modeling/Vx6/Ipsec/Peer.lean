import Vx6.Record.Endpoint
import Vx6.Lib.Dict
import Vx6.Go.Addr
import Vx6.Go.Sha256

/-!
# Peers of the tunnel manager

The checks `preparePeer` of `internal/ipsec/manager.go` makes before it touches the configuration,
and the names it derives from a node ID. A record that passes them has the fields that
`AcceptedPeer` lists: a verified signature, a node ID from a small alphabet, and an IPv6 host.

The last section fixes two identities with three signed records on which the definitions can be
evaluated.
-/

set_option autoImplicit false

namespace Vx6.Ipsec

open Vx6.Go Vx6.Lib Vx6.Record

/-- The fields of `Manager` that never change: the local identity, the local endpoint and the
directory of the strongSwan files. -/
structure LocalNode where
  nodeID : String
  localIP : IP
  localPort : String
  root : String

/-- The errors of `preparePeer` and `EnsurePeer`. -/
inductive PeerError where
  | unverified (e : RecordError)
  | unsafeNodeID
  | self
  | revoked (nodeID : String)
  | notIPv6
  | localAddress
  | notWritten
  | credentialsNotLoaded
  | connectionNotLoaded
  | negotiationFailed
  | queryFailed
  | notInstalled
  deriving DecidableEq, Repr

/-- The class `[a-zA-Z0-9_-]`. -/
def isSafeChar (c : Char) : Bool :=
  decide ('a' ≤ c ∧ c ≤ 'z') || decide ('A' ≤ c ∧ c ≤ 'Z') || decide ('0' ≤ c ∧ c ≤ '9') ||
    c = '_' || c = '-'

/-- `safeNodeID.MatchString`. -/
def safeNodeID (s : String) : Bool :=
  1 ≤ s.toList.length && s.toList.length ≤ 128 && s.toList.all isSafeChar

/-- `connectionName`. -/
def connectionName (cr : Crypto) (nodeID : String) : String :=
  "vx6-" ++ hexEncode ((cr.sum nodeID).take 8)

/-- `outboundChild`. -/
def outboundChild (name : String) : String := name ++ "-out"

/-- `inboundChild`. -/
def inboundChild (name : String) : String := name ++ "-in"

/-- `peerRawAddress`. -/
def peerRawAddress (address : String) : String := ((splitHostPort address).getD ("", "")).1

/-- The host of an endpoint is an IPv6 address. -/
def isIPv6Endpoint (address : String) : Bool :=
  match splitHostPort address with
  | some (host, _) =>
      match parseIP host with
      | some ip => (IP.to4 ip).isNone
      | none => false
  | none => false

/-- The checks of `preparePeer`; `isRevoked` tells whether the node ID is in the map of revoked
peers. -/
def checkPeer (cr : Crypto) (node : LocalNode) (isRevoked : Bool) (peer : EndpointRecord)
    (now : Time) : Except PeerError Unit := do
  (verifyEndpointRecord cr peer now).mapError .unverified
  rejectIf (!safeNodeID peer.nodeID) .unsafeNodeID
  rejectIf (peer.nodeID = node.nodeID) .self
  rejectIf isRevoked (.revoked peer.nodeID)
  rejectIf (!isIPv6Endpoint peer.address) .notIPv6
  -- the text of the host is compared, not the address it stands for
  rejectIf (peerRawAddress peer.address = IP.string node.localIP) .localAddress

/-- What the checks establish of a record. -/
structure AcceptedPeer (cr : Crypto) (node : LocalNode) (peer : EndpointRecord) (now : Time) :
    Prop where
  verified : verifyEndpointRecord cr peer now = .ok ()
  safe : safeNodeID peer.nodeID = true
  other : peer.nodeID ≠ node.nodeID
  endpoint : isIPv6Endpoint peer.address = true
  remote : peerRawAddress peer.address ≠ IP.string node.localIP

theorem checkPeer_ok_iff {cr : Crypto} {node : LocalNode} {isRevoked : Bool} {peer : EndpointRecord}
    {now : Time} :
    checkPeer cr node isRevoked peer now = .ok () ↔
      AcceptedPeer cr node peer now ∧ isRevoked = false := by
  simp only [checkPeer, bind_eq_ok, mapError_eq_ok, rejectIf_eq_ok, exists_const]
  constructor
  · rintro ⟨⟨⟩, hv, hs, ho, hr, he, hl⟩
    exact ⟨⟨hv, by simpa using hs, by simpa using ho, by simpa using he, by simpa using hl⟩, hr⟩
  · rintro ⟨h, hr⟩
    exact ⟨(), h.verified, by simpa using h.safe, by simpa using h.other, hr, by simpa using h.endpoint,
      by simpa using h.remote⟩

/-- A node ID that belongs to a key is made of safe characters. -/
theorem safeNodeID_nodeIDFromPublicKey (cr : Crypto) (publicKey : Bytes) :
    safeNodeID (nodeIDFromPublicKey cr publicKey) = true := by
  have hdigit : ∀ n < 16, isSafeChar (hexDigit n) = true := by decide
  rw [nodeIDFromPublicKey, safeNodeID]
  simp only [String.toList_append, hexEncode, String.toList_ofList, List.length_append,
    List.length_flatMap, List.length_cons, List.length_nil, List.map_const', List.sum_replicate,
    Vector.length_toList, List.all_append, Bool.and_eq_true, decide_eq_true_eq, List.all_flatMap,
    List.all_cons, List.all_nil, Bool.and_true]
  refine ⟨⟨by decide, by decide⟩, by decide, ?_⟩
  rw [List.all_eq_true]
  intro b hb
  have hlt : b.toNat < 256 := b.toNat_lt
  rw [hdigit _ (by omega), hdigit _ (by omega)]
  rfl

/-- The address of a verified record is an IPv6 endpoint. -/
theorem isIPv6Endpoint_of_verified {cr : Crypto} {peer : EndpointRecord} {now : Time}
    (h : verifyEndpointRecord cr peer now = .ok ()) : isIPv6Endpoint peer.address = true := by
  simp only [verifyEndpointRecord, verifyEndpoint, validateIPv6Address, bind_eq_ok, rejectIf_eq_ok,
    orReject_eq_ok, exists_const] at h
  obtain ⟨_, ⟨-, _, -, ⟨⟨host, port⟩, hsplit, ip, hip, hto4⟩, -⟩, -⟩ := h
  simp only [isIPv6Endpoint, hsplit, hip]
  simpa using hto4

/-- Of the record of another node only a revocation, or the local address in it, is refused. -/
theorem checkPeer_verified_iff {cr : Crypto} {node : LocalNode} {isRevoked : Bool}
    {peer : EndpointRecord} {now : Time} (hother : peer.nodeID ≠ node.nodeID) :
    checkPeer cr node isRevoked peer now = .ok () ↔ verifyEndpointRecord cr peer now = .ok () ∧
      isRevoked = false ∧ peerRawAddress peer.address ≠ IP.string node.localIP := by
  rw [checkPeer_ok_iff]
  constructor
  · rintro ⟨hacc, hrevoked⟩
    exact ⟨hacc.verified, hrevoked, hacc.remote⟩
  · rintro ⟨hverified, hrevoked, hremote⟩
    obtain ⟨-, ⟨signed⟩⟩ := verifyEndpointRecord_ok hverified
    have hsafe := safeNodeID_nodeIDFromPublicKey cr signed.key
    rw [signed.binding] at hsafe
    exact ⟨⟨hverified, hsafe, hother, isIPv6Endpoint_of_verified hverified, hremote⟩, hrevoked⟩

/-! ## Sample peers -/

/-- An endpoint record in force from 2024 to 2030. -/
def signedRecord (sequence : UInt64) (nodeID nodeName address publicKey signature : String) :
    EndpointRecord :=
  { version := 2
    sequence := sequence
    nodeID := nodeID
    nodeName := nodeName
    address := address
    publicKey := publicKey
    issuedAt := "2024-01-01T00:00:00Z"
    expiresAt := "2030-01-01T00:00:00Z"
    signature := signature }

/-- A record of the first identity. -/
def bravoRecord : EndpointRecord :=
  signedRecord 1 "vx6_446f7a2bbd41b685128c261cd121f27c90aeaaa14b17e1c72a9d8e2f34d456e2" "BRAVO"
    "[2001:db8::5]:4242" "ftk74TIgCfnXkOa81HMlh5pVHmI/pV7VeEeg7xVYmEg="
    "6dd3WLEwcDlCRhr9tWFSVZEhFdb/CFeukZoRm9F2fPryx5u+SetkAoLjZ6Wvk1cdqmUQWFD6ry2WU5TToRVgCw=="

/-- A record of the first identity whose port is not a number. -/
def bracedRecord : EndpointRecord :=
  signedRecord 2 "vx6_446f7a2bbd41b685128c261cd121f27c90aeaaa14b17e1c72a9d8e2f34d456e2" "BRAVO"
    "[2001:db8::5]:1\n\x7d" "ftk74TIgCfnXkOa81HMlh5pVHmI/pV7VeEeg7xVYmEg="
    "ouTeXSBZhJCjmfdrIWC+gLAPP1FyIR6t0V6gABrrdEt2JkSY1Im9haMJMKTzEVoEx2zoIommfqwA1ztWHb13CA=="

/-- A record of the second identity. -/
def charlieRecord : EndpointRecord :=
  signedRecord 1 "vx6_35abff71393fe6ff906ef39e7e1f0b6905abb611fbb8e312627a57eb0963953d" "CHARLIE"
    "[2001:db8::6]:4242" "lsiIhreNUsxfBYnxDaS2G/C6Q7D1qJWpOGz4VzoW6Is="
    "b2JKujibFB7u1EEkfeDNY7n3//gW2gPdQ+XT6PHLIySlOAa683PRN26ciN3EDUpZ2cCPI9TdCecF8fYzonxoCQ=="

/-- The sample records. -/
def peerSamples : List EndpointRecord := [bravoRecord, bracedRecord, charlieRecord]

/-- SHA-256, and the signatures of the sample records as the only valid ones. -/
def peerCrypto : Crypto :=
  { sha256 := sha256
    ed25519Verify := fun key message signature =>
      peerSamples.any fun rec =>
        stdEncoding.decodeString rec.publicKey = some key && bytes (signingPayload rec) = message &&
          stdEncoding.decodeString rec.signature = some signature }

/-- A local node with an address of its own. -/
def sampleNode : LocalNode :=
  { nodeID := "vx6_eb7ca8c106b6df9b0241f567243e33ef88dc44383b69981ab40d09196c6e5500"
    localIP := 0x20010db8000000000000000000000001
    localPort := "4242"
    root := "/var/lib/vx6/swanctl" }

/-- A time at which the sample records are in force, 2024-06-01T00:00:00Z. -/
def peerNow : Time := 1717200000 * second

/-- What is evaluated on the samples: the records pass the checks, the two identities have different
connection names, and two local addresses have different digests. -/
theorem peerSamples_checks :
    (∀ rec ∈ peerSamples, (checkPeer peerCrypto sampleNode false rec peerNow).toOption = some ()) ∧
      connectionName peerCrypto bravoRecord.nodeID = "vx6-bf2205641cf4f33d" ∧
      connectionName peerCrypto charlieRecord.nodeID = "vx6-1554b3382f615f34" ∧
      hexEncode ((peerCrypto.sum "[2001:db8::1]:4242").take 8) ≠
        hexEncode ((peerCrypto.sum "[2001:db8::2]:4242").take 8) := by
  decide +kernel

theorem acceptedPeer_sample {rec : EndpointRecord} (h : rec ∈ peerSamples) :
    AcceptedPeer peerCrypto sampleNode rec peerNow :=
  (checkPeer_ok_iff.1 (ok_of_toOption (peerSamples_checks.1 rec h))).1

end Vx6.Ipsec
