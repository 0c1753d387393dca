import Mathlib.Data.Nat.Bitwise
import Vx6.Dht.Handle

/-!
# Referrals

The two sides of a lookup rank peers by their distance to the target. The client keeps the target as the
caller gave it and chooses between node IDs and name hashes by its tag (`xorDistanceForNode`). It sends a
request with a shorter target (`nodeLookupTarget`, `lookupRequestTarget`), and the responder chooses by the
type of the request and by the shorter target (`ranking`).

The two choices are the same for every accepted request with a tagged target. A bare name hash has no tag:
the client ranks it against node IDs and the responder against name hashes, and some nodes are then ranked
in two ways (`client_and_responder_agree_iff`).
-/

set_option autoImplicit false

namespace Vx6.Dht

open Vx6.Go Vx6.Lib Vx6.Record

/-! ## Requests of a client -/

/-- `nodeLookupTarget`. -/
def nodeLookupTarget (target : String) : DHTRequestType × String :=
  if hasPrefix target "node/name/" then (.lookupName, trimPrefix target "node/name/")
  else if hasPrefix target "node/id/" then (.lookupKey, trimPrefix target "node/id/")
  else if hasPrefix target "vx6_" then (.lookupKey, target)
  else (dhtTypeFor .findNode target, target)

/-- The target of a bootstrap request. -/
def bootstrapTarget (target : String) : String :=
  if hasPrefix target "node/name/" then trimPrefix target "node/name/" else trimPrefix target "node/id/"

/-- Lookups of nodes, of nodes from recent contacts too, and of values. -/
inductive LookupKind where
  | node
  | bootstrap
  | value
  deriving DecidableEq

namespace LookupKind

/-- The request that `queryNodeOnce` or `queryValueOnce` sends for a target. -/
def request (target : String) : LookupKind → DHTRequest
  | .node =>
    { type := (nodeLookupTarget target).1, action := .findNode, target := (nodeLookupTarget target).2 }
  | .bootstrap => { type := .bootstrap, action := .findNode, target := bootstrapTarget target }
  | .value => valueRequest target

/-- The contacts from which a lookup starts. -/
def seeds (rt : Runtime) (t : Table) (target : String) (count : Int) (now : Time) :
    LookupKind → List NodeInfo
  | .node | .value => t.closestForTarget rt target count
  | .bootstrap =>
    t.closestNodesForBootstrap rt (bootstrapTarget target) count (hasPrefix target "node/name/") now

end LookupKind

/-! ## What the two sides compare -/

/-- The coordinate by which the client ranks: whether it is the name hash, and the target. -/
def clientRanking (target : String) : Bool × String :=
  if isNameTarget target then (true, trimPrefix target "node/name/")
  else (false, trimPrefix target "node/id/")

/-- The coordinate by which the responder ranks. -/
def ranking (r : DHTRequest) : Bool × String :=
  match r.action, r.type with
  | .findNode, .bootstrap => (!hasPrefix r.target "vx6_", r.target)
  | .findNode, .lookupName => (true, r.target)
  | .findNode, _ => (false, trimPrefix r.target "node/id/")
  | _, .lookupName => (true, r.target)
  | _, _ => (false, r.target)

/-- A request for contacts that may be offline. -/
def DHTRequest.wantsBootstrap (r : DHTRequest) : Bool := r.action = .findNode && r.type = .bootstrap

/-- The distance of a node in a ranking. -/
def rankDistance (rt : Runtime) (rank : Bool × String) (node : NodeInfo) : Nat :=
  xorDistance rt.toCrypto (coordinate rt.toCrypto rank.1 node) rank.2

/-- The peers that `ClosestNodesForBootstrap` ranks. -/
def Table.bootstrapPeers (t : Table) (byNameHash : Bool) (now : Time) : List NodeInfo :=
  let active := t.peersOf (if byNameHash then t.nameBuckets else t.buckets)
  let hints := (t.offline.entries.map fun e => e.2).filter fun r =>
    (t.heap r).offlineSince ≠ zeroTime && now - (t.heap r).offlineSince ≤ peerHistoryTTL &&
      t.idOf r ∉ active.map NodeInfo.id
  active ++ hints.map t.node

/-- The peers that a ranking is over. -/
def Table.rankedPeers (t : Table) (bootstrap : Bool) (rank : Bool × String) (now : Time) : List NodeInfo :=
  if bootstrap then t.bootstrapPeers rank.1 now
  else t.peersOf (if rank.1 then t.nameBuckets else t.buckets)

section Sides

variable (rt : Runtime)

theorem xorDistanceForNode_eq (node : NodeInfo) (target : String) :
    xorDistanceForNode rt node target = rankDistance rt (clientRanking target) node := by
  rw [xorDistanceForNode, rankDistance, clientRanking]
  split_ifs <;> rfl

/-- The responder refers to the peers that are first in its ranking. -/
theorem referrals_eq (q : Responder) (r : DHTRequest) (now : Time) :
    referrals rt q r now = nearest (rankDistance rt (ranking r))
      (q.table.rankedPeers r.wantsBootstrap (ranking r) now)
      (lookupLimits q.limits).maxReferrals := by
  obtain ⟨_, type, action, target, _⟩ := r
  cases action <;> cases type <;> rfl

end Sides

/-! ## Agreement -/

/-- A target with a tag: the key of a record, or a full node ID. -/
inductive Tagged : String → Prop where
  | nodeName {hash : String} (h : isSHA256Hex hash = true) : Tagged ("node/name/" ++ hash)
  | nodeID {hash : String} (h : isSHA256Hex hash = true) : Tagged ("node/id/vx6_" ++ hash)
  | fullNodeID {hash : String} (h : isSHA256Hex hash = true) : Tagged ("vx6_" ++ hash)
  | service (rest : String) : Tagged ("service/" ++ rest)
  | privateCatalog (rest : String) : Tagged ("private-catalog/" ++ rest)
  | hidden (rest : String) : Tagged ("hidden-desc/v1/" ++ rest)

section Agreement

variable {kind : LookupKind} {hash target : String}

theorem trimPrefix_of_not {s p : String} (h : hasPrefix s p = false) : trimPrefix s p = s := by
  rw [trimPrefix, h, if_neg Bool.false_ne_true]

theorem isHash_of_isSHA256Hex (h : isSHA256Hex hash = true) : IsHash hash := by
  simp only [isSHA256Hex, Bool.and_eq_true, decide_eq_true_eq] at h
  exact ⟨h.1.1, h.2⟩

/-- A text with a character that is no digit is no digest. -/
theorem not_isSHA256Hex {c : Char} (hc : c ∈ target.toList) (hdigit : hexValue c = none) :
    isSHA256Hex target = false := by
  rw [Bool.eq_false_iff]
  intro h
  obtain ⟨bs, hbs⟩ := Option.isSome_iff_exists.1 (isHash_of_isSHA256Hex h).2
  have hsome := hexValue_of_hexDecode hbs c hc
  rw [hdigit] at hsome
  cases hsome

/-- A written digest has no tag. -/
theorem hasPrefix_vx6_of_isSHA256Hex (h : isSHA256Hex hash = true) : hasPrefix hash "vx6_" = false := by
  rw [Bool.eq_false_iff]
  intro hinitial
  have hv : 'v' ∈ hash.toList := by
    rw [eq_append_trimPrefix hinitial, String.toList_append]
    exact List.mem_append_left _ (by decide)
  rw [not_isSHA256Hex hv (by decide)] at h
  cases h

theorem clientRanking_name (hash : String) : clientRanking ("node/name/" ++ hash) = (true, hash) := by
  rw [clientRanking, isNameTarget, hasPrefix_append, if_pos rfl, trimPrefix_append]

theorem clientRanking_of_not_name (h : hasPrefix target "node/name/" = false) :
    clientRanking target = (false, trimPrefix target "node/id/") := by
  rw [clientRanking, isNameTarget, h, if_neg Bool.false_ne_true]

/-- The key of a name is ranked by name hashes. -/
theorem ranking_name (hhash : isSHA256Hex hash = true) :
    ranking (kind.request ("node/name/" ++ hash)) = (true, hash) := by
  cases kind with
  | node =>
    have htarget : nodeLookupTarget ("node/name/" ++ hash) = (.lookupName, hash) := by
      rw [nodeLookupTarget, hasPrefix_append, if_pos rfl, trimPrefix_append]
    rw [LookupKind.request, htarget]
    rfl
  | bootstrap =>
    have htarget : bootstrapTarget ("node/name/" ++ hash) = hash := by
      rw [bootstrapTarget, hasPrefix_append, if_pos rfl, trimPrefix_append]
    rw [LookupKind.request, htarget, ranking, hasPrefix_vx6_of_isSHA256Hex hhash]
    rfl
  | value =>
    have htarget : lookupRequestTarget ("node/name/" ++ hash) = (.lookupName, hash) := by
      rw [lookupRequestTarget, hasPrefix_append, if_pos rfl, trimPrefix_append]
    rw [LookupKind.request, valueRequest, htarget]
    rfl

/-- The key of a node ID is ranked by node IDs, without its tag. -/
theorem ranking_nodeID :
    ranking (kind.request ("node/id/" ++ ("vx6_" ++ hash))) = (false, "vx6_" ++ hash) := by
  have hname : hasPrefix ("node/id/" ++ ("vx6_" ++ hash)) "node/name/" = false :=
    hasPrefix_of_differ (by decide) _
  cases kind with
  | node =>
    have htarget : nodeLookupTarget ("node/id/" ++ ("vx6_" ++ hash)) = (.lookupKey, "vx6_" ++ hash) := by
      rw [nodeLookupTarget, hname, if_neg Bool.false_ne_true, hasPrefix_append, if_pos rfl,
        trimPrefix_append]
    rw [LookupKind.request, htarget, ranking, trimPrefix_of_not (hasPrefix_of_differ (by decide) _)]
  | bootstrap =>
    have htarget : bootstrapTarget ("node/id/" ++ ("vx6_" ++ hash)) = "vx6_" ++ hash := by
      rw [bootstrapTarget, hname, if_neg Bool.false_ne_true, trimPrefix_append]
    rw [LookupKind.request, htarget, ranking, hasPrefix_append]
    rfl
  | value =>
    have htarget : lookupRequestTarget ("node/id/" ++ ("vx6_" ++ hash)) =
        (.lookupKey, "vx6_" ++ hash) := by
      rw [lookupRequestTarget, hname, if_neg Bool.false_ne_true, hasPrefix_append, if_pos rfl,
        trimPrefix_append]
    rw [LookupKind.request, valueRequest, htarget]
    rfl

/-- A full node ID is ranked by node IDs, if the request for it is accepted. -/
theorem ranking_fullNodeID (haccept : (kind.request ("vx6_" ++ hash)).validate = .ok ()) :
    ranking (kind.request ("vx6_" ++ hash)) = (false, "vx6_" ++ hash) := by
  have hother : ∀ p, differ "vx6_" p = true → hasPrefix ("vx6_" ++ hash) p = false :=
    fun p hp => hasPrefix_of_differ hp hash
  cases kind with
  | node =>
    have htarget : nodeLookupTarget ("vx6_" ++ hash) = (.lookupKey, "vx6_" ++ hash) := by
      rw [nodeLookupTarget, hother _ (by decide), hother _ (by decide), if_neg Bool.false_ne_true,
        if_neg Bool.false_ne_true, hasPrefix_append, if_pos rfl]
    rw [LookupKind.request, htarget, ranking, trimPrefix_of_not (hother _ (by decide))]
  | bootstrap =>
    have htarget : bootstrapTarget ("vx6_" ++ hash) = "vx6_" ++ hash := by
      rw [bootstrapTarget, hother _ (by decide), if_neg Bool.false_ne_true,
        trimPrefix_of_not (hother _ (by decide))]
    rw [LookupKind.request, htarget, ranking, hasPrefix_append]
    rfl
  | value =>
    -- a value is not looked up under a bare node ID
    have htarget : lookupRequestTarget ("vx6_" ++ hash) = (.other "", "vx6_" ++ hash) := by
      rw [lookupRequestTarget, dhtTypeFor, hother _ (by decide), hother _ (by decide),
        hother _ (by decide),
        hother _ (by decide), hother _ (by decide)]
      rfl
    rw [LookupKind.request, valueRequest, htarget] at haccept
    cases (DHTRequest.validate_eq_ok.1 haccept).2.2.2.2.1

theorem dhtTypeFor_findNode (hname : hasPrefix target "node/name/" = false)
    (hid : hasPrefix target "node/id/" = false) :
    dhtTypeFor .findNode target = .lookupSvc ∨ dhtTypeFor .findNode target = .lookupPriv ∨
      dhtTypeFor .findNode target = .lookupHid ∨ dhtTypeFor .findNode target = .bootstrap := by
  simp only [dhtTypeFor, hname, hid]
  split_ifs <;> simp_all

theorem dhtTypeFor_findValue (hname : hasPrefix target "node/name/" = false) :
    dhtTypeFor .findValue target ≠ .lookupName := by
  simp only [dhtTypeFor, hname]
  split_ifs <;> simp

theorem ranking_findValue {type : DHTRequestType} (h : type ≠ .lookupName) :
    ranking { type := type, action := .findValue, target := target } = (false, target) := by
  cases type with
  | lookupName => exact absurd rfl h
  | _ => rfl

/-- The key of another record is only used to look up values, and is ranked by node IDs. -/
theorem ranking_direct (hname : hasPrefix target "node/name/" = false)
    (hid : hasPrefix target "node/id/" = false) (hnode : hasPrefix target "vx6_" = false)
    (hhash : isSHA256Hex target = false) (haccept : (kind.request target).validate = .ok ()) :
    ranking (kind.request target) = (false, target) := by
  have hfull : isFullNodeID target = false := by rw [isFullNodeID, hnode, Bool.false_and]
  have hcheck := (DHTRequest.validate_eq_ok.1 haccept).2.2.2.2.1
  cases kind with
  | node =>
    have htarget : nodeLookupTarget target = (dhtTypeFor .findNode target, target) := by
      rw [nodeLookupTarget, hname, hid, hnode]
      rfl
    rw [LookupKind.request, htarget] at hcheck
    rcases dhtTypeFor_findNode hname hid with htype | htype | htype | htype
    · rw [htype] at hcheck
      exact absurd (rejectIf_eq_ok.1 hcheck) (by simp)
    · rw [htype] at hcheck
      exact absurd (rejectIf_eq_ok.1 hcheck) (by simp)
    · rw [htype] at hcheck
      exact absurd (rejectIf_eq_ok.1 hcheck) (by simp)
    · rw [htype] at hcheck
      have hbad := rejectIf_eq_ok.1 hcheck
      simp [hhash, hfull] at hbad
  | bootstrap =>
    have htarget : bootstrapTarget target = target := by
      rw [bootstrapTarget, hname, if_neg Bool.false_ne_true, trimPrefix_of_not hid]
    rw [LookupKind.request, htarget] at hcheck
    have hbad := rejectIf_eq_ok.1 hcheck
    simp [hhash, hfull] at hbad
  | value =>
    have htarget : lookupRequestTarget target = (dhtTypeFor .findValue target, target) := by
      rw [lookupRequestTarget, hname, hid]
      rfl
    rw [LookupKind.request, valueRequest, htarget, ranking_findValue (dhtTypeFor_findValue hname)]

/-- A target with another tag than those of nodes, in which a character is no digit. -/
theorem ranking_of_tag {tag rest : String} {c : Char} (hname : differ tag "node/name/" = true)
    (hid : differ tag "node/id/" = true) (hnode : differ tag "vx6_" = true) (hc : c ∈ tag.toList)
    (hdigit : hexValue c = none) (haccept : (kind.request (tag ++ rest)).validate = .ok ()) :
    ranking (kind.request (tag ++ rest)) = clientRanking (tag ++ rest) := by
  have hmem : c ∈ (tag ++ rest).toList := by
    rw [String.toList_append]
    exact List.mem_append_left _ hc
  rw [clientRanking_of_not_name (hasPrefix_of_differ hname rest),
    trimPrefix_of_not (hasPrefix_of_differ hid rest)]
  exact ranking_direct (hasPrefix_of_differ hname rest) (hasPrefix_of_differ hid rest)
    (hasPrefix_of_differ hnode rest) (not_isSHA256Hex hmem hdigit) haccept

/-- The responder to an accepted request with a tagged target ranks as the client does. -/
theorem ranking_request (htag : Tagged target) (haccept : (kind.request target).validate = .ok ()) :
    ranking (kind.request target) = clientRanking target := by
  cases htag with
  | nodeName hhash => rw [ranking_name hhash, clientRanking_name]
  | @nodeID hash hhash =>
    have hsplit : "node/id/vx6_" ++ hash = "node/id/" ++ ("vx6_" ++ hash) := by
      rw [← String.append_assoc]
      rfl
    rw [clientRanking_of_not_name (hasPrefix_of_differ (by decide) _), hsplit, ranking_nodeID,
      trimPrefix_append]
  | fullNodeID hhash =>
    rw [ranking_fullNodeID haccept, clientRanking_of_not_name (hasPrefix_of_differ (by decide) _),
      trimPrefix_of_not (hasPrefix_of_differ (by decide) _)]
  | service | privateCatalog | hidden =>
    have hslash : hexValue '/' = none := by decide
    exact ranking_of_tag (by decide) (by decide) (by decide) (by decide) hslash haccept

/-- A target and its form without the tag `node/id/` have the same distances. -/
theorem rankDistance_target (rt : Runtime) (htag : Tagged target)
    (hname : hasPrefix target "node/name/" = false) (node : NodeInfo) :
    rankDistance rt (false, target) node = rankDistance rt (false, trimPrefix target "node/id/") node := by
  cases hid : hasPrefix target "node/id/" with
  | false => rw [trimPrefix_of_not hid]
  | true =>
    cases htag with
    | nodeName h => rw [hasPrefix_append] at hname; cases hname
    | @nodeID hash h =>
      have hhash := isHash_of_isSHA256Hex h
      have hpart : encodedPart ("node/id/vx6_" ++ hash) = hash := by
        rw [encodedPart, hasPrefix_of_differ (by decide), hname, hid, trimPrefix_append]
        rfl
      have hsplit : "node/id/vx6_" ++ hash = "node/id/" ++ ("vx6_" ++ hash) := by
        rw [← String.append_assoc]
        rfl
      rw [rankDistance, rankDistance, xorDistance, xorDistance, routingIDBytes_of_encoded _ hhash hpart,
        hsplit, trimPrefix_append, routingIDBytes_nodeID _ hhash]
    | fullNodeID | service | privateCatalog | hidden =>
      rw [hasPrefix_of_differ (by decide)] at hid
      cases hid

/-- The seeds of a lookup are the contacts that are first in the ranking of the client. -/
theorem seeds_eq (rt : Runtime) (t : Table) (htag : Tagged target) (count : Int) (now : Time) :
    kind.seeds rt t target count now = nearest (rankDistance rt (clientRanking target))
      (t.rankedPeers (kind = .bootstrap) (clientRanking target) now) count := by
  cases hname : hasPrefix target "node/name/" with
  | true =>
    have hrank : clientRanking target = (true, trimPrefix target "node/name/") := by
      rw [clientRanking, isNameTarget, hname, if_pos rfl]
    rw [hrank]
    cases kind with
    | node | value =>
      rw [LookupKind.seeds, Table.closestForTarget, isNameTarget, hname, if_pos rfl]
      rfl
    | bootstrap =>
      rw [LookupKind.seeds, bootstrapTarget, hname, if_pos rfl]
      rfl
  | false =>
    rw [clientRanking_of_not_name hname]
    have hdist : rankDistance rt (false, target) = rankDistance rt (false, trimPrefix target "node/id/") :=
      funext (rankDistance_target rt htag hname)
    cases kind with
    | node | value =>
      rw [LookupKind.seeds, Table.closestForTarget, isNameTarget, hname,
        if_neg Bool.false_ne_true, ← hdist]
      rfl
    | bootstrap =>
      rw [LookupKind.seeds, bootstrapTarget, hname, if_neg Bool.false_ne_true]
      rfl

/-- A bare hash has none of the tags. -/
theorem hasPrefix_of_isSHA256Hex (h : isSHA256Hex hash = true) {tag : String} {c : Char}
    (hc : c ∈ tag.toList) (hdigit : hexValue c = none) : hasPrefix hash tag = false := by
  rw [Bool.eq_false_iff]
  intro hinitial
  have hmem : c ∈ hash.toList := by
    rw [eq_append_trimPrefix hinitial, String.toList_append]
    exact List.mem_append_left _ hc
  rw [not_isSHA256Hex hmem hdigit] at h
  cases h

/-- The client ranks a bare hash against node IDs. -/
theorem clientRanking_bare (h : isSHA256Hex hash = true) : clientRanking hash = (false, hash) := by
  have hslash : hexValue '/' = none := by decide
  rw [clientRanking_of_not_name (hasPrefix_of_isSHA256Hex h (by decide) hslash),
    trimPrefix_of_not (hasPrefix_of_isSHA256Hex h (by decide) hslash)]

/-- The responder ranks a bare hash against name hashes, where the request for it is accepted. -/
theorem ranking_bare (h : isSHA256Hex hash = true) (haccept : (kind.request hash).validate = .ok ()) :
    ranking (kind.request hash) = (true, hash) := by
  have hslash : hexValue '/' = none := by decide
  have hother : ∀ {tag : String}, '/' ∈ tag.toList → hasPrefix hash tag = false :=
    fun hc => hasPrefix_of_isSHA256Hex h hc hslash
  have hname : hasPrefix hash "node/name/" = false := hother (by decide)
  have hid : hasPrefix hash "node/id/" = false := hother (by decide)
  have hnode := hasPrefix_vx6_of_isSHA256Hex h
  have hservice : hasPrefix hash "service/" = false := hother (by decide)
  have hprivate : hasPrefix hash "private-catalog/" = false := hother (by decide)
  have hhidden : hasPrefix hash "hidden-desc/v1/" = false := hother (by decide)
  cases kind with
  | node =>
    have htarget : nodeLookupTarget hash = (.bootstrap, hash) := by
      simp [nodeLookupTarget, dhtTypeFor, hname, hid, hnode, hservice, hprivate, hhidden]
    rw [LookupKind.request, htarget, ranking, hnode]
    rfl
  | bootstrap =>
    have htarget : bootstrapTarget hash = hash := by
      rw [bootstrapTarget, hname, if_neg Bool.false_ne_true, trimPrefix_of_not hid]
    rw [LookupKind.request, htarget, ranking, hnode]
    rfl
  | value =>
    -- a value is not looked up under a bare hash
    have htarget : lookupRequestTarget hash = (.other "", hash) := by
      simp [lookupRequestTarget, dhtTypeFor, hname, hid, hservice, hprivate, hhidden]
    rw [LookupKind.request, valueRequest, htarget] at haccept
    cases (DHTRequest.validate_eq_ok.1 haccept).2.2.2.2.1

end Agreement

/-! ## Bare hashes -/

/-- A node with coordinates of full length. -/
def FullLength (node : NodeInfo) : Prop :=
  (∃ digits, IsHash digits ∧ node.id = "vx6_" ++ digits) ∧ IsHash node.nameHash

section Bare

variable (rt : Runtime)

/-- The distance of a node ID to a bare hash. -/
theorem rankDistance_id_bare {hash digits : String} {node : NodeInfo} (hhash : IsHash hash)
    (hdigits : IsHash digits) (hid : node.id = "vx6_" ++ digits) :
    rankDistance rt (false, hash) node = hashValue digits ^^^ textDigest rt.toCrypto hash := by
  have hcoord : coordinate rt.toCrypto false node = "vx6_" ++ digits := hid
  rw [rankDistance, xorDistance, hcoord, routingIDBytes_nodeID _ hdigits, routingIDBytes_bare _ hhash]

/-- The distance of a name hash to a bare hash. -/
theorem rankDistance_name_bare {hash : String} {node : NodeInfo} (hhash : IsHash hash)
    (hname : IsHash node.nameHash) :
    rankDistance rt (true, hash) node =
      textDigest rt.toCrypto node.nameHash ^^^ textDigest rt.toCrypto hash := by
  have hne : node.nameHash ≠ "" := by
    intro hempty
    have hlen := hname.1
    rw [hempty] at hlen
    exact absurd hlen (by decide)
  have hcoord : coordinate rt.toCrypto true node = node.nameHash := if_pos hne
  rw [rankDistance, xorDistance, hcoord, routingIDBytes_bare _ hname, routingIDBytes_bare _ hhash]

/-- The digits of an ID that begin with the given one. -/
def leadingDigit (first : String) : String :=
  first ++ "000000000000000000000000000000000000000000000000000000000000000"

/-- A node with one of these IDs; all have the same name hash. -/
def namesake (first : String) : NodeInfo :=
  { id := "vx6_" ++ leadingDigit first, nameHash := sampleHash "0" }

theorem fullLength_namesake {first : String} (h : IsHash (leadingDigit first)) :
    FullLength (namesake first) :=
  ⟨⟨_, h, rfl⟩, show len (sampleHash "0") = 64 by decide,
    show (hexDecode (sampleHash "0")).isSome = true by decide⟩

/-- Two nodes with one name hash: the responder ranks them by the text of their IDs, the client by the
distance of the IDs to the digest of the target. Of `a` and `b`, and of `B` and `a`, one pair is ranked
in two ways, whatever the digest is. -/
theorem namesakes_ranked_apart {hash : String} (hhash : IsHash hash) :
    ∃ p q, FullLength p ∧ FullLength q ∧ Before (rankDistance rt (true, hash)) NodeInfo.id p q ∧
      ¬ Before (rankDistance rt (false, hash)) NodeInfo.id p q := by
  have ha : IsHash (leadingDigit "a") := ⟨by decide, by decide⟩
  have hb : IsHash (leadingDigit "b") := ⟨by decide, by decide⟩
  have hB : IsHash (leadingDigit "B") := ⟨by decide, by decide⟩
  have hvalue : hashValue (leadingDigit "b") ≠ hashValue (leadingDigit "a") ∧
      hashValue (leadingDigit "B") = hashValue (leadingDigit "b") := by decide +kernel
  have hone : ∀ first second, IsHash (leadingDigit first) → IsHash (leadingDigit second) →
      (namesake first).id < (namesake second).id →
      hashValue (leadingDigit second) ^^^ textDigest rt.toCrypto hash <
        hashValue (leadingDigit first) ^^^ textDigest rt.toCrypto hash →
      ∃ p q, FullLength p ∧ FullLength q ∧ Before (rankDistance rt (true, hash)) NodeInfo.id p q ∧
        ¬ Before (rankDistance rt (false, hash)) NodeInfo.id p q := by
    intro first second hfirst hsecond hids hnearer
    refine ⟨namesake first, namesake second, fullLength_namesake hfirst, fullLength_namesake hsecond,
      .inr ⟨?_, hids⟩, ?_⟩
    · rw [rankDistance_name_bare rt hhash (fullLength_namesake hfirst).2,
        rankDistance_name_bare rt hhash (fullLength_namesake hsecond).2]
      rfl
    · rw [Before, rankDistance_id_bare rt hhash hfirst rfl, rankDistance_id_bare rt hhash hsecond rfl]
      omega
  rcases lt_or_ge (hashValue (leadingDigit "b") ^^^ textDigest rt.toCrypto hash)
    (hashValue (leadingDigit "a") ^^^ textDigest rt.toCrypto hash) with hlt | hge
  · exact hone "a" "b" ha hb (by decide) hlt
  · refine hone "B" "a" hB ha (by decide) ?_
    rw [hvalue.2]
    exact lt_of_le_of_ne hge fun hsame => hvalue.1 (Nat.xor_left_injective hsame.symm)

end Bare

/-- Client and responder measure the same distance. For every kind of lookup and every tagged target or
bare name hash for which the request is accepted: the client ranks any two nodes of full length as the
responder does, the responder refers to the nodes that are first in the ranking of the client, and the
client starts from the contacts that are first in the ranking of the responder, exactly when the target
has a tag. -/
theorem client_and_responder_agree_iff (rt : Runtime) {kind : LookupKind} {target : String}
    (htarget : Tagged target ∨ isSHA256Hex target = true)
    (haccept : (kind.request target).validate = .ok ()) :
    ((∀ p q, FullLength p → FullLength q →
      (Before (fun node => xorDistanceForNode rt node target) NodeInfo.id p q ↔
        Before (rankDistance rt (ranking (kind.request target))) NodeInfo.id p q)) ∧
    (∀ q now, referrals rt q (kind.request target) now =
      nearest (fun node => xorDistanceForNode rt node target)
        (q.table.rankedPeers (kind.request target).wantsBootstrap (clientRanking target) now)
        (lookupLimits q.limits).maxReferrals) ∧
    ∀ t count now, kind.seeds rt t target count now =
      nearest (rankDistance rt (ranking (kind.request target)))
        (t.rankedPeers (kind = .bootstrap) (clientRanking target) now) count) ↔ Tagged target := by
  have hclient : (fun node => xorDistanceForNode rt node target) =
      rankDistance rt (clientRanking target) := funext fun node => xorDistanceForNode_eq rt node target
  rw [hclient]
  constructor
  · rintro ⟨horder, -, -⟩
    rcases htarget with htag | hbare
    · exact htag
    · -- one of the pairs of namesakes is ranked in two ways
      rw [ranking_bare hbare haccept, clientRanking_bare hbare] at horder
      obtain ⟨p, q, hp, hq, hbefore, hnot⟩ := namesakes_ranked_apart rt (isHash_of_isSHA256Hex hbare)
      exact absurd ((horder p q hp hq).2 hbefore) hnot
  · intro htag
    have hrank := ranking_request htag haccept
    rw [← hrank]
    refine ⟨fun p q _ _ => Iff.rfl, fun q now => referrals_eq rt q _ now, fun t count now => ?_⟩
    rw [hrank]
    exact seeds_eq rt t htag count now

/-! ## Samples -/

/-- A run time with SHA-256. -/
def hashRuntime : Runtime := { wireRuntime with toCrypto := Table.tableCrypto }

set_option maxRecDepth 4000 in
/-- The ranking of the key of a name. -/
theorem name_key_ranked_alike :
    Before (fun node => xorDistanceForNode hashRuntime node ("node/name/" ++ sampleHash "0")) NodeInfo.id
      (hashedPeer "2") (hashedPeer "1") ↔
    Before (rankDistance hashRuntime (ranking (LookupKind.node.request ("node/name/" ++ sampleHash "0"))))
      NodeInfo.id (hashedPeer "2") (hashedPeer "1") := by
  have htag : Tagged ("node/name/" ++ sampleHash "0") := .nodeName (by decide)
  have haccept : (LookupKind.node.request ("node/name/" ++ sampleHash "0")).validate = .ok () := by decide
  have hone : IsHash (sampleHash "1") := ⟨by decide, by decide⟩
  have htwo : IsHash (sampleHash "2") := ⟨by decide, by decide⟩
  exact ((client_and_responder_agree_iff hashRuntime (.inl htag) haccept).2 htag).1 _ _
    ⟨⟨_, htwo, rfl⟩, htwo⟩ ⟨⟨_, hone, rfl⟩, hone⟩

set_option maxRecDepth 4000 in
/-- A bare name hash is accepted by both kinds of node lookup. The client ranks the node with the ID `1`
first, and the responder the one with the name hash `2`. -/
theorem bare_hash_ranked_apart :
    (LookupKind.node.request (sampleHash "0")).validate = .ok () ∧
    LookupKind.bootstrap.request (sampleHash "0") = LookupKind.node.request (sampleHash "0") ∧
    Before (fun node => xorDistanceForNode hashRuntime node (sampleHash "0")) NodeInfo.id
      (hashedPeer "1") (hashedPeer "2") ∧
    Before (rankDistance hashRuntime (ranking (LookupKind.node.request (sampleHash "0")))) NodeInfo.id
      (hashedPeer "2") (hashedPeer "1") := by
  have hzero : IsHash (sampleHash "0") := ⟨by decide, by decide⟩
  have hone : IsHash (hashedPeer "1").nameHash := ⟨by decide, by decide⟩
  have htwo : IsHash (hashedPeer "2").nameHash := ⟨by decide, by decide⟩
  obtain ⟨-, h0, h1, h2⟩ := sha256_samples
  have hd0 : textDigest hashRuntime.toCrypto (sampleHash "0") = _ := h0
  have hd1 : textDigest hashRuntime.toCrypto (hashedPeer "1").nameHash = _ := h1
  have hd2 : textDigest hashRuntime.toCrypto (hashedPeer "2").nameHash = _ := h2
  have hranking : ranking (LookupKind.node.request (sampleHash "0")) = (true, sampleHash "0") := by decide
  have hclient : clientRanking (sampleHash "0") = (false, sampleHash "0") := by decide
  refine ⟨by decide, by decide, .inl ?_, .inl ?_⟩
  · simp only [xorDistanceForNode_eq, hclient]
    rw [rankDistance_id_bare _ hzero hone rfl, rankDistance_id_bare _ hzero htwo rfl, hd0]
    decide
  · rw [hranking, rankDistance_name_bare _ hzero hone, rankDistance_name_bare _ hzero htwo, hd0, hd1, hd2]
    decide

end Vx6.Dht
