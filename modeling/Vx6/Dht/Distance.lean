import Vx6.Dht.Formats

/-!
# Peers and their distances

`proto.NodeInfo` with its check (`nodeinfo.go`), and the coordinates of `table.go`: `routingIDBytes`
turns a text into 32 bytes, `xorDistance` compares two texts. Texts with one of three tags in front
of 64 hexadecimal digits are decoded; all others are hashed.
-/

set_option autoImplicit false

namespace Vx6.Dht

open Vx6.Go Vx6.Lib Vx6.Record

/-- `proto.NodeInfo`. -/
structure NodeInfo where
  identityVersion : UInt8 := 0
  identitySequence : UInt64 := 0
  id : String := ""
  name : String := ""
  nameHash : String := ""
  addr : String := ""
  publicKey : String := ""
  identityIssuedAt : String := ""
  identityExpiresAt : String := ""
  identitySignature : String := ""
  deriving DecidableEq, Repr

/-- The errors of `VerifyNodeInfo`. -/
inductive NodeInfoError where
  | missingFields
  | nameHashMismatch
  | record (e : RecordError)
  deriving DecidableEq, Repr

/-- `endpointRecordFromNodeInfo`. -/
def endpointRecordFromNodeInfo (node : NodeInfo) : EndpointRecord where
  version := node.identityVersion
  sequence := node.identitySequence
  nodeID := node.id
  nodeName := node.name
  address := node.addr
  publicKey := node.publicKey
  issuedAt := node.identityIssuedAt
  expiresAt := node.identityExpiresAt
  signature := node.identitySignature

/-- `big.Int.BitLen`. -/
def bitLen (x : Nat) : Nat := if x = 0 then 0 else Nat.log2 x + 1

theorem bitLen_le {x n : Nat} (h : x < 2 ^ n) : bitLen x ≤ n := by
  unfold bitLen
  split
  · exact Nat.zero_le n
  · rename_i hx
    exact (Nat.log2_lt hx).2 h

section Coordinates

variable (cr : Crypto)

/-- `VerifyNodeInfo`. -/
def verifyNodeInfo (info : NodeInfo) (now : Time) : Except NodeInfoError Unit := do
  rejectIf (info.id = "" || info.name = "" || info.addr = "" || info.publicKey = "" ||
    info.identityIssuedAt = "" || info.identityExpiresAt = "" || info.identitySignature = "")
    .missingFields
  rejectIf (info.nameHash ≠ "" && info.nameHash ≠ nodeNameHash cr info.name) .nameHashMismatch
  (verifyEndpointRecord cr (endpointRecordFromNodeInfo info) now).mapError .record

/-- `nodeNameHash` of a peer: the hash it carries, or the one of its name. -/
def NodeInfo.nodeNameHash (node : NodeInfo) : String :=
  if node.nameHash ≠ "" then node.nameHash else Dht.nodeNameHash cr node.name

/-- The part of a coordinate that `routingIDBytes` tries to decode. -/
def encodedPart (value : String) : String :=
  if hasPrefix value "vx6_" then trimPrefix value "vx6_"
  else if hasPrefix value "node/name/" then trimPrefix value "node/name/"
  else if hasPrefix value "node/id/" then trimPrefix value "node/id/vx6_"
  else ""

/-- `routingIDBytes`: the decoded digits where there are 64 of them, the digest of the whole text
otherwise. -/
def routingIDBytes (value : String) : Bytes :=
  if len (encodedPart value) = 64 then (hexDecode (encodedPart value)).getD (cr.sum value)
  else cr.sum value

/-- `xorDistance`. -/
def xorDistance (id1 id2 : String) : Nat :=
  bigEndian (routingIDBytes cr id1) ^^^ bigEndian (routingIDBytes cr id2)

/-- Coordinates have at most 256 bits. -/
theorem routingIDBytes_length_le (value : String) : (routingIDBytes cr value).length ≤ 32 := by
  rw [routingIDBytes]
  split
  · rename_i hlen
    cases h : hexDecode (encodedPart value) with
    | none => simp [Crypto.sum_length]
    | some bs =>
      have hbs := hexDecodeChars_length h
      have hle := length_le_len (encodedPart value)
      rw [Option.getD_some]
      omega
  · rw [Crypto.sum_length]

theorem bigEndian_routingIDBytes_lt (value : String) :
    bigEndian (routingIDBytes cr value) < 2 ^ 256 := by
  calc bigEndian (routingIDBytes cr value) < 256 ^ (routingIDBytes cr value).length := bigEndian_lt _
    _ ≤ 256 ^ 32 := Nat.pow_le_pow_right (by decide) (routingIDBytes_length_le cr value)
    _ = 2 ^ 256 := by norm_num

theorem xorDistance_lt (id1 id2 : String) : xorDistance cr id1 id2 < 2 ^ 256 :=
  Nat.xor_lt_two_pow (bigEndian_routingIDBytes_lt cr id1) (bigEndian_routingIDBytes_lt cr id2)

end Coordinates

end Vx6.Dht
