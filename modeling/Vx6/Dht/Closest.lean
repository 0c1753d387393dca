import Mathlib.Data.String.Basic
import Vx6.Dht.TableIndex
import Vx6.Lib.Ranking

/-!
# The closest peers

`ClosestNodes` and `ClosestNodesByNameHash` rank the peers of a bucket array by their XOR distance
to a target (`sortClosestEntries`). A node ID is written with the tag `vx6_`, which
`routingIDBytes` takes off before it decodes the 64 digits. The hashes of names are compared as bare
digits, which it does not decode: it hashes their text. So the ranking by node ID is the one by the
256-bit values (`closestNodes_eq_nearest`), and the ranking by name is the one by the digests of the
hash texts. `name_routing_iff` says when the two rankings agree.
-/

set_option autoImplicit false

namespace Vx6.Dht

open Vx6.Go Vx6.Lib Vx6.Record

/-! ## Ranking peers -/

/-- The peers with the smallest distances, ties by node ID. -/
def nearest (distance : NodeInfo → Nat) (peers : List NodeInfo) (count : Int) : List NodeInfo :=
  (ranked distance NodeInfo.id peers).take count.toNat

section Closest

variable (cr : Crypto)

/-- The coordinate of a peer that `sortClosestEntries` compares. -/
def coordinate (byNameHash : Bool) (node : NodeInfo) : String :=
  if byNameHash then node.nodeNameHash cr else node.id

/-- `sortClosestEntries`. -/
def sortClosestEntries (all : List NodeInfo) (target : String) (count : Int) (byNameHash : Bool) :
    List NodeInfo :=
  nearest (fun node => xorDistance cr (coordinate cr byNameHash node) target) all count

/-- The peers of an index, bucket by bucket. -/
def Table.peersOf (t : Table) (index : Index) : List NodeInfo :=
  ((List.finRange 256).flatMap index).map t.node

/-- `ClosestNodes`. -/
def Table.closestNodes (t : Table) (target : String) (count : Int) : List NodeInfo :=
  sortClosestEntries cr (t.peersOf t.buckets) target count false

/-- `ClosestNodesByNameHash`. -/
def Table.closestNodesByNameHash (t : Table) (targetHash : String) (count : Int) : List NodeInfo :=
  sortClosestEntries cr (t.peersOf t.nameBuckets) targetHash count true

end Closest

/-! ## Written hashes -/

/-- A hash as it is written: 64 hexadecimal digits. -/
def IsHash (hash : String) : Prop := len hash = 64 ∧ (hexDecode hash).isSome = true

/-- The 256-bit value of a written hash. -/
def hashValue (hash : String) : Nat := bigEndian ((hexDecode hash).getD [])

/-- The 256-bit value of a node ID. -/
def idValue (nodeID : String) : Nat := hashValue (trimPrefix nodeID "vx6_")

/-- The SHA-256 digest of a text, as a number. -/
def textDigest (cr : Crypto) (text : String) : Nat := bigEndian (cr.sum text)

theorem hasPrefix_append (p s : String) : hasPrefix (p ++ s) p = true := by
  rw [hasPrefix, String.toList_append, List.isPrefixOf_iff_prefix]
  exact List.prefix_append _ _

theorem trimPrefix_append (p s : String) : trimPrefix (p ++ s) p = s := by
  rw [trimPrefix, if_pos (hasPrefix_append p s), String.toList_append, List.drop_left,
    String.ofList_toList]

/-- A text with another first character does not have the prefix. -/
theorem hasPrefix_of_head {s p : String} {c c' : Char} {cs cs' : List Char} (hs : s.toList = c :: cs)
    (hp : p.toList = c' :: cs') (hne : c ≠ c') : hasPrefix s p = false := by
  rw [hasPrefix, hs, hp, List.isPrefixOf_cons_cons]
  simp [hne.symm]

/-- The first digit of a written hash. -/
theorem IsHash.head {hash : String} (h : IsHash hash) :
    ∃ c cs, hash.toList = c :: cs ∧ (hexValue c).isSome = true := by
  obtain ⟨hlen, hdecode⟩ := h
  rw [hexDecode] at hdecode
  cases hchars : hash.toList with
  | nil =>
    have hempty : hash = "" := by
      rw [← String.toList_inj, hchars]
      rfl
    rw [hempty] at hlen
    exact absurd hlen (by decide)
  | cons c cs =>
    refine ⟨c, cs, rfl, ?_⟩
    rw [hchars] at hdecode
    cases cs with
    | nil => cases hdecode
    | cons c' cs =>
      cases hc : hexValue c with
      | none => simp [hexDecodeChars, hc] at hdecode
      | some n => rfl

section Coordinates

variable (cr : Crypto) {hash : String}

theorem routingIDBytes_of_encoded {value : String} (h : IsHash hash)
    (hpart : encodedPart value = hash) : bigEndian (routingIDBytes cr value) = hashValue hash := by
  obtain ⟨bs, hbs⟩ := Option.isSome_iff_exists.1 h.2
  rw [routingIDBytes, hpart, if_pos h.1, hashValue, hbs, Option.getD_some, Option.getD_some]

/-- The tag of a node ID is taken off. -/
theorem routingIDBytes_nodeID (h : IsHash hash) :
    bigEndian (routingIDBytes cr ("vx6_" ++ hash)) = hashValue hash := by
  refine routingIDBytes_of_encoded cr h ?_
  rw [encodedPart, if_pos (hasPrefix_append "vx6_" hash), trimPrefix_append]

/-- The tag of a name key is taken off. -/
theorem routingIDBytes_nameKey (h : IsHash hash) :
    bigEndian (routingIDBytes cr ("node/name/" ++ hash)) = hashValue hash := by
  have hchars : ("node/name/" ++ hash).toList = 'n' :: ("ode/name/".toList ++ hash.toList) := by
    rw [String.toList_append]
    rfl
  have hvx6 : hasPrefix ("node/name/" ++ hash) "vx6_" = false :=
    hasPrefix_of_head hchars rfl (by decide)
  refine routingIDBytes_of_encoded cr h ?_
  rw [encodedPart, hvx6, if_neg Bool.false_ne_true, if_pos (hasPrefix_append "node/name/" hash),
    trimPrefix_append]

/-- A bare hash has no tag: its text is hashed. -/
theorem routingIDBytes_bare (h : IsHash hash) :
    bigEndian (routingIDBytes cr hash) = textDigest cr hash := by
  obtain ⟨c, cs, hchars, hc⟩ := h.head
  have hv : c ≠ 'v' := by
    rintro rfl
    exact absurd hc (by decide)
  have hn : c ≠ 'n' := by
    rintro rfl
    exact absurd hc (by decide)
  have hpart : encodedPart hash = "" := by
    rw [encodedPart, hasPrefix_of_head (p := "vx6_") hchars rfl hv,
      hasPrefix_of_head (p := "node/name/") hchars rfl hn,
      hasPrefix_of_head (p := "node/id/") hchars rfl hn]
    rfl
  rw [routingIDBytes, hpart, if_neg (by decide), textDigest]

end Coordinates

/-! ## What the rankings compare -/

section Rankings

variable (cr : Crypto) {hash : String}

/-- The ranking depends on the distances of the peers only. -/
theorem nearest_congr {d d' : NodeInfo → Nat} {peers : List NodeInfo}
    (hname : ∀ p ∈ peers, ∀ q ∈ peers, p.id = q.id → p = q) (hd : ∀ p ∈ peers, d p = d' p)
    (count : Int) : nearest d peers count = nearest d' peers count := by
  rw [nearest, nearest, (ranked_eq_iff hname).2]
  intro p hp q hq
  rw [Before, Before, hd p hp, hd q hq]

/-- `ClosestNodes` ranks by the values of the node IDs. -/
theorem closestNodes_eq_nearest {t : Table} (hhash : IsHash hash)
    (hids : ∀ p ∈ t.peersOf t.buckets, ∃ h, IsHash h ∧ p.id = "vx6_" ++ h)
    (hdistinct : ∀ p ∈ t.peersOf t.buckets, ∀ q ∈ t.peersOf t.buckets, p.id = q.id → p = q) :
    t.closestNodes cr ("vx6_" ++ hash) =
      nearest (fun p => idValue p.id ^^^ hashValue hash) (t.peersOf t.buckets) := by
  funext count
  refine nearest_congr hdistinct (fun p hp => ?_) count
  obtain ⟨h, hh, hid⟩ := hids p hp
  have hcoord : coordinate cr false p = "vx6_" ++ h := hid
  rw [xorDistance, hcoord, routingIDBytes_nodeID cr hh, routingIDBytes_nodeID cr hhash, hid, idValue,
    trimPrefix_append]

/-- `ClosestNodesByNameHash` ranks by the digests of the hash texts. -/
theorem closestNodesByNameHash_eq_nearest {t : Table} (hhash : IsHash hash)
    (hnames : ∀ p ∈ t.peersOf t.nameBuckets, IsHash p.nameHash)
    (hdistinct : ∀ p ∈ t.peersOf t.nameBuckets, ∀ q ∈ t.peersOf t.nameBuckets, p.id = q.id → p = q) :
    t.closestNodesByNameHash cr hash =
      nearest (fun p => textDigest cr p.nameHash ^^^ textDigest cr hash)
        (t.peersOf t.nameBuckets) := by
  funext count
  refine nearest_congr hdistinct (fun p hp => ?_) count
  have hname := hnames p hp
  have hne : p.nameHash ≠ "" := by
    intro hempty
    have hlen := hname.1
    rw [hempty] at hlen
    exact absurd hlen (by decide)
  have hcoord : coordinate cr true p = p.nameHash := if_pos hne
  rw [xorDistance, hcoord, routingIDBytes_bare cr hname, routingIDBytes_bare cr hhash]

end Rankings

/-- Name lookups use the hashes as coordinates exactly where the digests of the hash texts stand in
the same order as the hashes themselves, and two hashes have the same distance with and without the
tag exactly where their digests have it. Lookups by node ID always use the values. -/
theorem name_routing_iff (cr : Crypto) (t : Table) {hash a b : String} (hhash : IsHash hash)
    (ha : IsHash a) (hb : IsHash b)
    (hids : ∀ p ∈ t.peersOf t.buckets, ∃ h, IsHash h ∧ p.id = "vx6_" ++ h)
    (hdistinct : ∀ p ∈ t.peersOf t.buckets, ∀ q ∈ t.peersOf t.buckets, p.id = q.id → p = q)
    (hnames : ∀ p ∈ t.peersOf t.nameBuckets, IsHash p.nameHash)
    (hnamed : ∀ p ∈ t.peersOf t.nameBuckets, ∀ q ∈ t.peersOf t.nameBuckets, p.id = q.id → p = q) :
    ((∀ count, t.closestNodesByNameHash cr hash count =
        nearest (fun p => hashValue p.nameHash ^^^ hashValue hash) (t.peersOf t.nameBuckets) count) ∧
      (∀ count, t.closestNodes cr ("vx6_" ++ hash) count =
        nearest (fun p => idValue p.id ^^^ hashValue hash) (t.peersOf t.buckets) count) ∧
      xorDistance cr a b = xorDistance cr ("node/name/" ++ a) ("node/name/" ++ b)) ↔
    (∀ p ∈ t.peersOf t.nameBuckets, ∀ q ∈ t.peersOf t.nameBuckets,
      Before (fun p => textDigest cr p.nameHash ^^^ textDigest cr hash) NodeInfo.id p q ↔
        Before (fun p => hashValue p.nameHash ^^^ hashValue hash) NodeInfo.id p q) ∧
      textDigest cr a ^^^ textDigest cr b = hashValue a ^^^ hashValue b := by
  rw [xorDistance, xorDistance, routingIDBytes_bare cr ha, routingIDBytes_bare cr hb,
    routingIDBytes_nameKey cr ha, routingIDBytes_nameKey cr hb,
    closestNodesByNameHash_eq_nearest cr hhash hnames hnamed,
    closestNodes_eq_nearest cr hhash hids hdistinct, ← ranked_eq_iff hnamed, ← take_ranked_eq_iff]
  simp only [nearest, implies_true, true_and]
  constructor
  · rintro ⟨hrank, hdist⟩
    exact ⟨fun n => by simpa using hrank n, hdist⟩
  · rintro ⟨hrank, hdist⟩
    exact ⟨fun count => hrank count.toNat, hdist⟩

/-! ## Two names -/

/-- The hash text whose last digit is given. -/
def sampleHash (last : String) : String :=
  "000000000000000000000000000000000000000000000000000000000000000" ++ last

/-- The peer whose ID and name hash end in the given digit. -/
def hashedPeer (last : String) : NodeInfo :=
  { id := "vx6_" ++ sampleHash last, nameHash := sampleHash last, addr := "[2001:db8::5]:4242" }

/-- A table with these peers in the first bucket of both arrays. -/
def tableOf (peers : List NodeInfo) : Table :=
  { newRoutingTable Table.tableCrypto Table.sampleSelf with
    heap := fun r => { node := peers.getD r {} }
    nextRef := peers.length
    buckets := fun i => if i.val = 0 then List.range peers.length else []
    nameBuckets := fun i => if i.val = 0 then List.range peers.length else [] }

set_option maxRecDepth 4000 in
/-- For the target `1` the digests of `0` and `2` stand in the order of the hashes, so both lookups rank
the two peers by the values. The distance of `0` and `2` is another one with the tag. -/
theorem name_routing_two_peers :
    (∀ count, (tableOf [hashedPeer "0", hashedPeer "2"]).closestNodesByNameHash Table.tableCrypto
        (sampleHash "1") count = nearest (fun p => hashValue p.nameHash ^^^ hashValue (sampleHash "1"))
          [hashedPeer "0", hashedPeer "2"] count) ∧
      (∀ count, (tableOf [hashedPeer "0", hashedPeer "2"]).closestNodes Table.tableCrypto
        ("vx6_" ++ sampleHash "1") count =
          nearest (fun p => idValue p.id ^^^ hashValue (sampleHash "1"))
            [hashedPeer "0", hashedPeer "2"] count) ∧
      xorDistance Table.tableCrypto (sampleHash "0") (sampleHash "2") ≠
        xorDistance Table.tableCrypto ("node/name/" ++ sampleHash "0")
          ("node/name/" ++ sampleHash "2") := by
  have hpeers : (tableOf [hashedPeer "0", hashedPeer "2"]).peersOf
      (tableOf [hashedPeer "0", hashedPeer "2"]).buckets = [hashedPeer "0", hashedPeer "2"] := by decide
  have hnamed : (tableOf [hashedPeer "0", hashedPeer "2"]).peersOf
      (tableOf [hashedPeer "0", hashedPeer "2"]).nameBuckets = [hashedPeer "0", hashedPeer "2"] := by
    decide
  have hzero : IsHash (sampleHash "0") := ⟨by decide, by decide⟩
  have hone : IsHash (sampleHash "1") := ⟨by decide, by decide⟩
  have htwo : IsHash (sampleHash "2") := ⟨by decide, by decide⟩
  obtain ⟨-, h0, h1, h2⟩ := sha256_samples
  have hd0 : textDigest Table.tableCrypto (sampleHash "0") = _ := h0
  have hd1 : textDigest Table.tableCrypto (sampleHash "1") = _ := h1
  have hd2 : textDigest Table.tableCrypto (sampleHash "2") = _ := h2
  have hiff : ∀ {a b : String}, IsHash a → IsHash b → _ := fun ha hb =>
    name_routing_iff Table.tableCrypto (tableOf [hashedPeer "0", hashedPeer "2"]) hone ha hb
      (by rw [hpeers]; simpa using ⟨⟨_, hzero, rfl⟩, ⟨_, htwo, rfl⟩⟩) (by rw [hpeers]; decide)
      (by rw [hnamed]; simp [hashedPeer, hzero, htwo]) (by rw [hnamed]; decide)
  rw [hpeers, hnamed] at hiff
  have hagree : ∀ p ∈ [hashedPeer "0", hashedPeer "2"], ∀ q ∈ [hashedPeer "0", hashedPeer "2"],
      Before (fun p => textDigest Table.tableCrypto p.nameHash ^^^
          textDigest Table.tableCrypto (sampleHash "1")) NodeInfo.id p q ↔
        Before (fun p => hashValue p.nameHash ^^^ hashValue (sampleHash "1")) NodeInfo.id p q := by
    simp only [List.mem_cons, List.not_mem_nil, or_false, forall_eq_or_imp, forall_eq,
      Before, hashedPeer, hd0, hd1, hd2]
    decide
  obtain ⟨hrank, hids, -⟩ := (hiff hone hone).2
    ⟨hagree, by rw [Nat.xor_self, Nat.xor_self]⟩
  refine ⟨hrank, hids, fun hsame => ?_⟩
  have hdigests := ((hiff hzero htwo).1 ⟨hrank, hids, hsame⟩).2
  rw [hd0, hd2] at hdigests
  exact absurd hdigests (by decide)

set_option maxRecDepth 4000 in
/-- The closest of two names to the hash `0` is `1`, but the digest of the text `2` is closer. -/
theorem closest_name_missed :
    (tableOf [hashedPeer "1", hashedPeer "2"]).closestNodesByNameHash Table.tableCrypto
        (sampleHash "0") 1 = [hashedPeer "2"] ∧
      nearest (fun p => hashValue p.nameHash ^^^ hashValue (sampleHash "0"))
        ((tableOf [hashedPeer "1", hashedPeer "2"]).peersOf
          (tableOf [hashedPeer "1", hashedPeer "2"]).nameBuckets) 1 = [hashedPeer "1"] := by
  have hnamed : (tableOf [hashedPeer "1", hashedPeer "2"]).peersOf
      (tableOf [hashedPeer "1", hashedPeer "2"]).nameBuckets = [hashedPeer "1", hashedPeer "2"] := by
    decide
  have hzero : IsHash (sampleHash "0") := ⟨by decide, by decide⟩
  have hone : IsHash (sampleHash "1") := ⟨by decide, by decide⟩
  have htwo : IsHash (sampleHash "2") := ⟨by decide, by decide⟩
  obtain ⟨-, h0, h1, h2⟩ := sha256_samples
  have hd0 : textDigest Table.tableCrypto (sampleHash "0") = _ := h0
  have hd1 : textDigest Table.tableCrypto (sampleHash "1") = _ := h1
  have hd2 : textDigest Table.tableCrypto (sampleHash "2") = _ := h2
  refine ⟨?_, ?_⟩
  · rw [closestNodesByNameHash_eq_nearest _ hzero (by rw [hnamed]; simp [hashedPeer, hone, htwo])
      (by rw [hnamed]; decide), hnamed]
    have hbefore : Before (fun p => textDigest Table.tableCrypto p.nameHash ^^^
        textDigest Table.tableCrypto (sampleHash "0")) NodeInfo.id (hashedPeer "2")
        (hashedPeer "1") := by
      refine .inl ?_
      simp only [hashedPeer, hd0, hd1, hd2]
      decide
    rw [nearest, ranked_pair_of_before hbefore]
    rfl
  · rw [hnamed]
    decide

end Vx6.Dht
