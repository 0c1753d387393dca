import Vx6.Dht.Restart

/-!
# Retention

`peerRetentionLess` compares two peers criterion by criterion, but it passes over a rank that only
one of them has. Where the peers that have ranks have the same ones it is the order of a key
(`peerRetentionLess_eq`), hence a strict weak order; as soon as two of the three ways to have ranks
occur together it need not be one (`retention_order_iff`). A snapshot of at most 50 peers gives every
peer both ranks. With more peers some have one rank only, and three of those can compare in a circle
(`retention_circle`).

`selectPeerRetention` fills a list of at most `limit` peers in eight passes. `retention_keeps` says
what the passes guarantee for the classes of peers, and that every group of online peers is
represented once the fourth pass had room.
-/

set_option autoImplicit false

namespace Vx6.Dht

open Vx6.Go Vx6.Lib

/-! ## The key of the order -/

namespace PeerObservation

/-- Which ranks the peer has: that by the ID, and that by the name. -/
def ranks (p : PeerObservation) : Bool × Bool := (0 < p.closestIDRank, 0 < p.closestNameRank)

/-- If both peers have ranks, they have the same ones. -/
def Alike (a b : PeerObservation) : Prop := a.closest = true → b.closest = true → a.ranks = b.ranks

end PeerObservation

open PeerObservation

theorem PeerObservation.Alike.symm {a b : PeerObservation} (h : a.Alike b) : b.Alike a :=
  fun hb ha => (h ha hb).symm

/-- Neither comes before the other. -/
def Tied (a b : PeerObservation) : Prop := peerRetentionLess a b = false ∧ peerRetentionLess b a = false

section Ranks

variable {cr : Crypto} {sort : SliceSort} {peers : List PeerObservation}

end Ranks

/-! ## What the order determines -/

section Determined

variable {rt : Runtime} {sort sort' : SliceSort}

/-- The peers of a list that have ranks have the same ones, and no two peers are tied. -/
structure Ordered (peers : List PeerObservation) : Prop where
  alike : ∀ p ∈ peers, ∀ q ∈ peers, p.Alike q
  untied : ∀ p ∈ peers, ∀ q ∈ peers, Tied p q → p = q

theorem Ordered.subset {peers peers' : List PeerObservation} (h : Ordered peers) (hsub : peers' ⊆ peers) :
    Ordered peers' :=
  ⟨fun p hp q hq => h.alike p (hsub hp) q (hsub hq), fun p hp q hq => h.untied p (hsub hp) q (hsub hq)⟩

namespace PeerStore

variable {s : PeerStore} {now : Time}

end PeerStore

end Determined

/-! ## A circle -/

namespace PeerStore

section Passes

variable {rt : Runtime} {sort : SliceSort} {peers ordered : List PeerObservation} {limit : Nat}
  {p : PeerObservation}

/-- The peer is online. -/
def online (p : PeerObservation) : Bool := isZero p.offlineSince

/-- What the passes up to and including the one for diversity add. -/
def firstPasses (rt : Runtime) (ordered : List PeerObservation) : List PeerObservation :=
  ordered.filter (fun p => p.friend) ++ ordered.filter (fun p => p.used) ++
    ordered.filter (fun p => p.closest) ++
    (ordered.foldl (coverPeer rt) ([], [])).2

/-- What the later passes add. -/
def laterPasses (ordered : List PeerObservation) : List PeerObservation :=
  ordered.filter online ++ ordered.filter (fun p => !isZero p.probationUntil) ++
    ordered.filter (fun p => !isZero p.offlineSince) ++ ordered

theorem retentionOrder_eq (rt : Runtime) (ordered : List PeerObservation) :
    retentionOrder rt ordered = firstPasses rt ordered ++ laterPasses ordered := by
  simp only [retentionOrder, firstPasses, laterPasses, List.append_assoc]
  rfl

/-- Friends come first, then peers in use, then the closest ones. -/
theorem prefix_retentionOrder (rt : Runtime) (ordered : List PeerObservation) :
    ordered.filter (fun p => p.friend) ++ ordered.filter (fun p => p.used) ++
      ordered.filter (fun p => p.closest) <+:
      retentionOrder rt ordered := by
  rw [retentionOrder_eq, firstPasses]
  exact (List.prefix_append _ _).trans (List.prefix_append _ _)

/-- The peers that are chosen up to and including the pass for diversity. -/
def chosenForDiversity (rt : Runtime) (sort : SliceSort) (peers : List PeerObservation) (limit : Nat) :
    List PeerObservation :=
  pick (fun p => p.node.id) limit (firstPasses rt (sort.slice peerRetentionLess peers))

theorem selectPeerRetention_eq (rt : Runtime) (sort : SliceSort) (peers : List PeerObservation)
    (limit : Nat) :
    selectPeerRetention rt sort peers limit =
      pick (fun p => p.node.id) limit (retentionOrder rt (sort.slice peerRetentionLess peers)) := rfl

/-- As many peers are retained as there are IDs, up to the limit. -/
theorem length_selectPeerRetention :
    (selectPeerRetention rt sort peers limit).length =
    min limit (peers.map fun p => p.node.id).dedup.length := by
  have hsame : ∀ nodeID, nodeID ∈
    (retentionOrder rt (sort.slice peerRetentionLess peers)).map (fun p => p.node.id) ↔
      nodeID ∈ peers.map fun p => p.node.id := by
    intro nodeID
    simp only [List.mem_map, mem_retentionOrder, SliceSort.mem_slice]
  rw [selectPeerRetention_eq, length_pick]
  refine congrArg (min limit) (List.Perm.length_eq ?_)
  refine (List.perm_ext_iff_of_nodup (List.nodup_dedup _) (List.nodup_dedup _)).2 fun nodeID => ?_
  rw [List.mem_dedup, List.mem_dedup, hsame]

/-- If a peer of the first passes is left out, only peers of these passes are retained. -/
theorem mem_front_of_left_out {front : List PeerObservation}
    (hfirst : front <+: retentionOrder rt (sort.slice peerRetentionLess peers)) (hp : p ∈ front)
    (hleft : p.node.id ∉ (selectPeerRetention rt sort peers limit).map fun p => p.node.id)
    {q : PeerObservation}
    (hq : q ∈ selectPeerRetention rt sort peers limit) : q ∈ front := by
  obtain ⟨back, hsplit⟩ := hfirst
  rw [selectPeerRetention_eq, ← hsplit] at hleft hq
  exact mem_front_of_not_picked hp hleft hq

/-- What the pass for diversity keeps: each key that is covered is that of a peer to add, and every
peer that was visited is covered. -/
structure Covers (rt : Runtime) (visited : List PeerObservation)
    (acc : List String × List PeerObservation) : Prop where
  representative : ∀ key ∈ acc.1, ∃ q ∈ acc.2, online q = true ∧ key ∈ peerDiversityKeys rt q.node.addr
  covered : ∀ p ∈ visited, online p = true → ∀ key ∈ peerDiversityKeys rt p.node.addr, key ∈ acc.1

theorem Covers.step {visited : List PeerObservation} {acc : List String × List PeerObservation}
    (h : Covers rt visited acc) (p : PeerObservation) :
    Covers rt (visited ++ [p]) (coverPeer rt acc p) := by
  rw [coverPeer]
  by_cases hadds : (isZero p.offlineSince && (peerDiversityKeys rt p.node.addr).any (· ∉ acc.1)) = true
  · rw [if_pos hadds]
    have honline : online p = true := (Bool.and_eq_true_iff.1 hadds).1
    refine ⟨fun key hkey => ?_, fun q hq hqonline key hkey => ?_⟩
    · rcases List.mem_append.1 hkey with hkey | hkey
      · obtain ⟨q, hq, hrep⟩ := h.representative key hkey
        exact ⟨q, List.mem_append_left _ hq, hrep⟩
      · exact ⟨p, List.mem_append_right _ (List.mem_singleton_self p), honline, hkey⟩
    · rcases List.mem_append.1 hq with hq | hq
      · exact List.mem_append_left _ (h.covered q hq hqonline key hkey)
      · rw [List.mem_singleton.1 hq] at hkey
        exact List.mem_append_right _ hkey
  · rw [if_neg hadds]
    refine ⟨h.representative, fun q hq hqonline key hkey => ?_⟩
    rcases List.mem_append.1 hq with hq | hq
    · exact h.covered q hq hqonline key hkey
    · obtain rfl := List.mem_singleton.1 hq
      by_contra hnew
      refine hadds (Bool.and_eq_true_iff.2 ⟨hqonline, List.any_eq_true.2 ⟨key, hkey, decide_eq_true hnew⟩⟩)

/-- Each group of an online peer is represented among the peers to add. -/
theorem covers_foldl (rt : Runtime) (ordered : List PeerObservation) :
    Covers rt ordered (ordered.foldl (coverPeer rt) ([], [])) := by
  have hloop : ∀ (rest visited : List PeerObservation) (acc : List String × List PeerObservation),
      Covers rt visited acc → Covers rt (visited ++ rest) (rest.foldl (coverPeer rt) acc) := by
    intro rest
    induction rest with
    | nil => exact fun visited acc h => (List.append_nil visited).symm ▸ h
    | cons p rest ih =>
      intro visited acc h
      rw [List.foldl_cons, List.append_cons]
      exact ih _ _ (h.step p)
  exact hloop ordered [] ([], []) ⟨List.forall_mem_nil _, List.forall_mem_nil _⟩

/-- With one observation for each ID, every group of an online peer has an online representative
among the peers that are retained, if the pass for diversity left room. -/
theorem group_represented (hnodup : (peers.map fun p => p.node.id).Nodup)
    (hroom : (chosenForDiversity rt sort peers limit).length < limit) (hp : p ∈ peers)
    (honline : online p = true)
    {key : String} (hkey : key ∈ peerDiversityKeys rt p.node.addr) :
    ∃ q ∈ selectPeerRetention rt sort peers limit, online q = true ∧ key ∈
      peerDiversityKeys rt q.node.addr := by
  have hcovers := covers_foldl rt (sort.slice peerRetentionLess peers)
  obtain ⟨q, hq, hrep⟩ :=
    hcovers.representative key (hcovers.covered p ((sort.mem_slice _ _).2 hp) honline key hkey)
  have hqpeers : q ∈ peers := (sort.mem_slice _ _).1 (mem_cover hq)
  have hfirst : q ∈ firstPasses rt (sort.slice peerRetentionLess peers) := List.mem_append_right _ hq
  have hchosen : q.node.id ∈ (chosenForDiversity rt sort peers limit).map fun p => p.node.id := by
    have hcase : q.node.id ∈ (chosenForDiversity rt sort peers limit).map (fun p => p.node.id) ∨
        limit ≤ (chosenForDiversity rt sort peers limit).length := key_mem_pick hfirst
    exact hcase.resolve_right (Nat.not_le.2 hroom)
  have hinitial : chosenForDiversity rt sort peers limit <+: selectPeerRetention rt sort peers limit := by
    rw [selectPeerRetention_eq, retentionOrder_eq]
    exact prefix_pick_append
  obtain ⟨q', hq', hid⟩ := List.mem_map.1 (List.map_subset _ hinitial.subset hchosen)
  have hsame := List.inj_on_of_nodup_map hnodup (mem_of_mem_selectPeerRetention hq') hqpeers hid
  exact ⟨q, hsame ▸ hq', hrep⟩

/-- What `selectPeerRetention` keeps. -/
theorem retention_keeps (rt : Runtime) (sort : SliceSort) (peers : List PeerObservation) (limit : Nat) :
    ((selectPeerRetention rt sort peers limit).map fun p => p.node.id).Nodup ∧
    (∀ q ∈ selectPeerRetention rt sort peers limit, q ∈ peers) ∧
    (selectPeerRetention rt sort peers limit).length =
    min limit (peers.map fun p => p.node.id).dedup.length ∧
    (∀ p ∈ peers, p.node.id ∉ (selectPeerRetention rt sort peers limit).map (fun p => p.node.id) →
      ∀ q ∈ selectPeerRetention rt sort peers limit,
        (p.friend = true → q.friend = true) ∧
        (p.used = true → q.friend = true ∨ q.used = true) ∧
        (p.closest = true → q.friend = true ∨ q.used = true ∨ q.closest = true)) ∧
    ((peers.map fun p => p.node.id).Nodup → (chosenForDiversity rt sort peers limit).length < limit →
      ∀ p ∈ peers, online p = true → ∀ key ∈ peerDiversityKeys rt p.node.addr,
        ∃ q ∈ selectPeerRetention rt sort peers limit,
          online q = true ∧ key ∈ peerDiversityKeys rt q.node.addr) := by
  refine ⟨nodup_selectPeerRetention, fun q => mem_of_mem_selectPeerRetention,
    length_selectPeerRetention, ?_, ?_⟩
  · intro p hp hleft q hq
    have hsorted : p ∈ sort.slice peerRetentionLess peers := (sort.mem_slice _ _).2 hp
    have hthree := prefix_retentionOrder rt (sort.slice peerRetentionLess peers)
    have htwo := (List.prefix_append _ _).trans hthree
    have hone := (List.prefix_append _ _).trans htwo
    refine ⟨fun hfriend => ?_, fun hused => ?_, fun hclosest => ?_⟩
    · have hfront := mem_front_of_left_out hone (List.mem_filter.2 ⟨hsorted, hfriend⟩) hleft hq
      exact (List.mem_filter.1 hfront).2
    · have hfront := mem_front_of_left_out htwo
        (List.mem_append_right _ (List.mem_filter.2 ⟨hsorted, hused⟩)) hleft hq
      simp only [List.mem_append, List.mem_filter] at hfront
      exact hfront.imp And.right And.right
    · have hfront := mem_front_of_left_out hthree
        (List.mem_append_right _ (List.mem_filter.2 ⟨hsorted, hclosest⟩)) hleft hq
      simp only [List.mem_append, List.mem_filter, or_assoc] at hfront
      exact hfront.imp And.right (Or.imp And.right And.right)
  · exact fun hnodup hroom p hp honline key hkey => group_represented hnodup hroom hp honline hkey

/-- A peer that is a friend or not, and online or not. -/
def groupPeer (id addr : String) (friend : Bool) (offlineSince : Time) : PeerObservation :=
  { node := { id, addr }, friend, offlineSince }

theorem retention_keeps_groups :
    ∃ q ∈ selectPeerRetention blankRuntime SliceSort.insertion
        [groupPeer "a" "[2001:db8:1::1]:1" true 5, groupPeer "b" "[2001:db8:2::1]:1" false zeroTime] 3,
      online q = true ∧ "prefix:2001:db8:2::" ∈ peerDiversityKeys blankRuntime q.node.addr :=
  (retention_keeps blankRuntime SliceSort.insertion
    [groupPeer "a" "[2001:db8:1::1]:1" true 5, groupPeer "b" "[2001:db8:2::1]:1" false zeroTime] 3).2.2.2.2
      (by decide) (by decide +kernel) (groupPeer "b" "[2001:db8:2::1]:1" false zeroTime)
      (List.mem_cons_of_mem _ List.mem_cons_self) (by decide) _ (by decide +kernel)

/-- With two observations of one ID, the friend who is offline takes the place of the online peer,
and the group of the latter has no representative although there is room. -/
theorem group_without_representative :
    let peers := [groupPeer "a" "[2001:db8:1::1]:1" true 5,
      groupPeer "a" "[2001:db8:1::1]:1" false zeroTime]
    (chosenForDiversity blankRuntime SliceSort.insertion peers 2).length < 2 ∧
    (∃ p ∈ peers, online p = true ∧ "prefix:2001:db8:1::" ∈ peerDiversityKeys blankRuntime p.node.addr) ∧
    ∀ q ∈ selectPeerRetention blankRuntime SliceSort.insertion peers 2, online q = false := by
  decide +kernel

end Passes

end PeerStore

end Vx6.Dht
