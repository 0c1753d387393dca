import Vx6.Dht.TableChanges
import Vx6.Go.Sha256

/-!
# The indexes of the routing table

The operations of the table keep the invariants of `TableChanges`; each proof follows the changes
of the source one by one. `Queued` is lost only by a `PruneOffline` that drops a candidate
(`PruneSpares`), `Coherent` only by a `RecordLivenessResult` that forgets an offline peer
(`KeepsOffline`). `representation_invariant` is the result for whole runs.
-/

set_option autoImplicit false

namespace Vx6.Dht.Table

open Vx6.Go Vx6.Lib Vx6.Record

section Operations

variable {cr : Crypto} {t t' : Table} {r : Ref} {nodeID : String}

/-! ## The operations on one entry -/

theorem held_modify {f : BucketEntry → BucketEntry} {r' : Ref}
    (hid : (f (t.heap r)).node.id = t.idOf r) : (t.modify r f).Held r' ↔ t.Held r' := by
  rw [Held, Held, idOf_modify hid]
  rfl

theorem held_alloc {entry : BucketEntry} : (t.alloc entry.node.id entry).Held t.nextRef := by
  rw [Held, idOf_alloc_new, lookup_alloc, if_pos rfl]

theorem Queued.held_of_lookup (h : t.Queued cr) (hr : t.peerByID.lookup nodeID = some r) :
    t.Held r ∧ t.idOf r = nodeID := by
  have hid := (h.keyed nodeID r hr).2
  exact ⟨by rwa [Held, hid], hid⟩

theorem idOf_welcome (t : Table) (r : Ref) (now : Time) : (t.welcome cr r now).idOf = t.idOf :=
  idOf_modify (t := t.deleteOffline (t.idOf r)) rfl

theorem held_welcome {now : Time} (hheld : t.Held r) : (t.welcome cr r now).Held r :=
  (held_modify (t := t.deleteOffline (t.idOf r)) rfl).2 hheld

theorem Queued.welcome (h : t.Queued cr) (r : Ref) (now : Time) : (t.welcome cr r now).Queued cr := by
  have h' : (t.deleteOffline (t.idOf r)).Queued cr := h.of_eq rfl rfl rfl rfl rfl
  exact (h'.modify rfl).removePending (t.idOf r)

theorem Coherent.welcome (h : t.Coherent cr) (r : Ref) (now : Time) :
    (t.welcome cr r now).Coherent cr := by
  have h' : ((t.deleteOffline (t.idOf r)).modify r (noteExchange cr now)).Coherent cr :=
    (h.deleteOffline (t.idOf r)).modify_same fun _ => rfl
  exact h'.removePending (t.idOf r)

/-- A peer that answered is no candidate. -/
theorem Queued.not_pending_welcome (h : t.Queued cr) (r : Ref) (now : Time) :
    ¬ Buckets.Mem (t.welcome cr r now).pending r := by
  have h' : (t.deleteOffline (t.idOf r)).Queued cr := h.of_eq rfl rfl rfl rfl rfl
  have h'' : ((t.deleteOffline (t.idOf r)).modify r (noteExchange cr now)).Queued cr := h'.modify rfl
  intro hr
  exact ((mem_removePending h'').1 hr).2 (congrFun (idOf_modify rfl) r)

/-- A peer that answered is not offline. -/
theorem not_offline_welcome (r : Ref) (now : Time) :
    (t.welcome cr r now).offline.lookup ((t.welcome cr r now).idOf r) = none := by
  rw [idOf_welcome]
  show (t.offline.erase (t.idOf r)).lookup (t.idOf r) = none
  rw [Dict.lookup_erase_eq, if_pos rfl]

theorem Queued.activate (h : t.Queued cr) (r : Ref) (now : Time) : (t.activate cr r now).Queued cr := by
  simp only [Table.activate]
  split
  · exact (h.welcome r now).of_eq rfl rfl rfl rfl rfl
  · exact (h.welcome r now).of_eq rfl rfl rfl rfl rfl

theorem Coherent.activate (h : t.Coherent cr) (hheld : t.Held r) (now : Time) :
    (t.activate cr r now).Coherent cr := by
  have h' := h.welcome r now
  have hactive := h'.insertActive (held_welcome hheld) (h.not_pending_welcome r now)
    (not_offline_welcome r now)
  simp only [Table.activate]
  split
  · exact hactive.insertNamed ((Buckets.mem_insert fun r' hr' hid =>
      (h'.activeHeld r' hr').eq (held_welcome hheld) hid).2 (.inr rfl))
  · exact hactive

theorem Queued.replaceNode (h : t.Queued cr) {node : NodeInfo} (hid : node.id = t.idOf r) :
    (t.replaceNode cr r node).Queued cr := by
  unfold Table.replaceNode
  split
  · have h' : (t.removeNamed node.id).Queued cr := h.of_eq rfl rfl rfl rfl rfl
    exact h'.modify hid
  · exact h.modify hid

theorem Coherent.replaceNode (h : t.Coherent cr) {node : NodeInfo} (hid : node.id = t.idOf r) :
    (t.replaceNode cr r node).Coherent cr := by
  unfold Table.replaceNode
  split
  · exact h.removeNamed.modify hid fun hr => absurd hid.symm (h.named.mem_remove.1 hr).2
  · rename_i hhash
    rw [not_not] at hhash
    refine h.modify hid fun _ => ?_
    rw [nameSlot, nameSlot, nameBucketIndex, nameBucketIndex, hhash]

theorem held_replaceNode {node : NodeInfo} (hid : node.id = t.idOf r) (hheld : t.Held r) :
    (t.replaceNode cr r node).Held r := by
  unfold Table.replaceNode
  split
  · exact (held_modify (t := t.removeNamed node.id) hid).2 hheld
  · exact (held_modify hid).2 hheld

theorem startProbation_node (now : Time) (e : BucketEntry) : (startProbation now e).node = e.node := by
  unfold startProbation
  split <;> rfl

theorem Queued.addNode (h : t.Queued cr) (node : NodeInfo) (now : Time) :
    (t.addNode cr node now).Queued cr := by
  unfold Table.addNode
  split
  · split
    · rename_i hnone
      have h' := h.alloc { node := node, probationUntil := now + peerProbationPeriod } hnone
      exact h'.activate t.nextRef now
    · rename_i r hr
      have h' := h.replaceNode (h.keyed _ r hr).2.symm
      exact (h'.modify (by rw [startProbation_node]; rfl)).activate r now
  · exact h

theorem Coherent.addNode (h : t.Coherent cr) (node : NodeInfo) (now : Time) :
    (t.addNode cr node now).Coherent cr := by
  unfold Table.addNode
  split
  · split
    · rename_i hnone
      have h' := h.alloc { node := node, probationUntil := now + peerProbationPeriod } hnone
      exact h'.activate held_alloc now
    · rename_i r hr
      obtain ⟨hheld, hid⟩ := h.held_of_lookup hr
      have h' := (h.replaceNode hid.symm).modify_same (r := r) (startProbation_node now)
      refine h'.activate ((held_modify ?_).2 (held_replaceNode hid.symm hheld)) now
      rw [startProbation_node]
      rfl
  · exact h

theorem Queued.updateKnownNode (h : t.Queued cr) (node : NodeInfo) (now : Time) :
    (t.updateKnownNode cr node now).1.Queued cr := by
  unfold Table.updateKnownNode
  split
  · split
    · exact h
    · rename_i r hr
      split
      · have h' := h.replaceNode (h.keyed _ r hr).2.symm
        simp only
        split
        · exact h'.of_eq rfl rfl rfl rfl rfl
        · exact h'
      · exact h
  · exact h

theorem Coherent.updateKnownNode (h : t.Coherent cr) (node : NodeInfo) (now : Time) :
    (t.updateKnownNode cr node now).1.Coherent cr := by
  unfold Table.updateKnownNode
  split
  · split
    · exact h
    · rename_i r hr
      split
      · obtain ⟨hheld, hid⟩ := h.held_of_lookup hr
        have h' := h.replaceNode hid.symm
        have hheld' : (t.replaceNode cr r node).Held r := held_replaceNode hid.symm hheld
        simp only
        split
        · rename_i hin
          rw [Bool.and_eq_true] at hin
          obtain ⟨r', hr', hid'⟩ := Buckets.has_iff.1 hin.1
          refine h'.insertNamed ?_
          have hidr : (t.replaceNode cr r node).idOf r = node.id := (h'.keyed _ r (by
            unfold Table.replaceNode; split <;> exact hr)).2
          rwa [(h'.activeHeld r' hr').eq hheld' (hid'.trans hidr.symm)] at hr'
        · exact h'
      · exact h
  · exact h

/-! ## Candidates -/

theorem Queued.enqueue (h : t.Queued cr) {i : Fin 256} (hheld : t.Held r)
    (hi : t.slot cr (t.idOf r) = i) (hnew : ¬ Buckets.Mem t.pending r) : (t.enqueue r i).Queued cr :=
  (h.appendPending hheld hi hnew).of_eq rfl rfl rfl rfl rfl

/-- What `AddLookupCandidate` does: nothing, or a new entry that is queued. -/
theorem addLookupCandidate_cases {node : NodeInfo} {b : Bool}
    (h : t.addLookupCandidate cr node = some (t', b)) :
    (b = false ∧ t' = t) ∨
      (b = true ∧ t.peerByID.lookup node.id = none ∧ t.pendingN < maxPendingCandidates ∧
        ∃ i, checked (t.bucketIndex cr node.id) = some i ∧
          t' = (t.alloc node.id { node := node, transient := true }).enqueue t.nextRef i) := by
  unfold addLookupCandidate at h
  split at h
  · split at h
    · cases h
      exact .inl ⟨rfl, rfl⟩
    · rename_i hroom
      simp only [Bool.or_eq_true, decide_eq_true_eq, not_or, Option.isSome_iff_ne_none, not_not,
        not_le] at hroom
      simp only [Option.bind_eq_bind, Option.bind_eq_some_iff, pure, Option.some.injEq,
        Prod.mk.injEq] at h
      obtain ⟨i, hi, rfl, rfl⟩ := h
      exact .inr ⟨rfl, hroom.1, hroom.2, i, hi, rfl⟩
  · cases h
    exact .inl ⟨rfl, rfl⟩

/-- `AddCandidate` takes the peer: it is not active, and it is a candidate already or there is room for
one more. -/
def takes (t : Table) (node : NodeInfo) : Bool :=
  t.acceptable node && !t.inBuckets node.id && !t.inNameBuckets node.id &&
    (((t.peerByID.lookup node.id).isSome && t.inPending node.id) || t.pendingN < maxPendingCandidates)

/-- What `AddCandidate` does: nothing, or the refresh of a candidate, or a place in the queue for a
known peer, or for a new one. -/
theorem addCandidate_cases {node : NodeInfo} (h : t.addCandidate cr node = some t') :
    (t.takes node = false ∧ t' = t) ∨
      (t.takes node = true ∧ t.inBuckets node.id = false ∧ t.inNameBuckets node.id = false ∧
      ∃ i, checked (t.bucketIndex cr node.id) = some i ∧
        ((∃ r, t.peerByID.lookup node.id = some r ∧ t.inPending node.id = true ∧
            t' = (t.refresh r node).appendPending r i) ∨
          (∃ r, t.peerByID.lookup node.id = some r ∧ t.inPending node.id = false ∧
            t.pendingN < maxPendingCandidates ∧
            t' = (t.adopt r node).enqueue r i) ∨
          (t.peerByID.lookup node.id = none ∧ t.pendingN < maxPendingCandidates ∧
            t' = ((t.alloc node.id { node := node }).deleteOffline node.id).enqueue
              t.nextRef i))) := by
  unfold addCandidate at h
  split at h
  · rename_i hok
    split at h
    · rename_i hindex
      cases h
      refine .inl ⟨?_, rfl⟩
      rcases Bool.or_eq_true_iff.1 hindex with hin | hin <;> simp [takes, hin]
    · rename_i hindex
      rw [Bool.or_eq_true, not_or, Bool.not_eq_true, Bool.not_eq_true] at hindex
      split at h
      · rename_i r hr
        split at h
        · rename_i hpending
          simp only [Option.bind_eq_bind, Option.bind_eq_some_iff, pure, Option.some.injEq] at h
          obtain ⟨i, hi, rfl⟩ := h
          refine .inr ⟨?_, hindex.1, hindex.2, i, hi, .inl ⟨r, hr, hpending, rfl⟩⟩
          simp [takes, hok, hindex, hr, hpending]
        · rename_i hpending
          split at h
          · rename_i hroom
            cases h
            exact .inl ⟨by simp [takes, hpending, hroom], rfl⟩
          · rename_i hroom
            simp only [Option.bind_eq_bind, Option.bind_eq_some_iff, pure, Option.some.injEq] at h
            obtain ⟨i, hi, rfl⟩ := h
            refine .inr ⟨?_, hindex.1, hindex.2, i, hi, .inr (.inl
              ⟨r, hr, Bool.eq_false_iff.2 hpending, not_le.1 hroom, rfl⟩)⟩
            simp [takes, hok, hindex, not_le.1 hroom]
      · rename_i hnone
        split at h
        · rename_i hroom
          cases h
          exact .inl ⟨by simp [takes, hnone, hroom], rfl⟩
        · rename_i hroom
          simp only [Option.bind_eq_bind, Option.bind_eq_some_iff, pure, Option.some.injEq] at h
          obtain ⟨i, hi, rfl⟩ := h
          refine .inr ⟨?_, hindex.1, hindex.2, i, hi, .inr (.inr ⟨hnone, not_le.1 hroom, rfl⟩)⟩
          simp [takes, hok, hindex, not_le.1 hroom]
  · rename_i hok
    cases h
    exact .inl ⟨by simp [takes, Bool.eq_false_iff.2 hok], rfl⟩

/-- A new entry takes its place in the queue. -/
theorem Queued.enqueue_new (h : t.Queued cr) (entry : BucketEntry) {i : Fin 256}
    (hnone : t.peerByID.lookup entry.node.id = none)
    (hi : checked (t.bucketIndex cr entry.node.id) = some i) :
    ((t.alloc entry.node.id entry).enqueue t.nextRef i).Queued cr := by
  refine (h.alloc entry hnone).enqueue held_alloc ?_ fun hr => ?_
  · rw [idOf_alloc_new]
    exact checked_eq_some hi
  · exact Nat.lt_irrefl _ (h.lt (h.held _ hr))

theorem Queued.addLookupCandidate (h : t.Queued cr) {node : NodeInfo} {b : Bool}
    (hadd : t.addLookupCandidate cr node = some (t', b)) : t'.Queued cr := by
  rcases addLookupCandidate_cases hadd with ⟨-, rfl⟩ | ⟨-, hnone, -, i, hi, rfl⟩
  · exact h
  · exact h.enqueue_new _ hnone hi

theorem Coherent.addLookupCandidate (h : t.Coherent cr) {node : NodeInfo} {b : Bool}
    (hadd : t.addLookupCandidate cr node = some (t', b)) : t'.Coherent cr := by
  rcases addLookupCandidate_cases hadd with ⟨-, rfl⟩ | ⟨-, hnone, -, i, hi, rfl⟩
  · exact h
  · have h' := h.alloc { node := node, transient := true } hnone
    refine h'.enqueue held_alloc ?_ (fun hr => ?_) (fun hr => ?_) ?_
    · rw [idOf_alloc_new]
      exact checked_eq_some hi
    · exact Nat.lt_irrefl _ (h.lt (h.held _ hr))
    · exact Nat.lt_irrefl _ (h.lt (h.activeHeld _ hr))
    · rw [idOf_alloc_new]
      exact h.offline_none hnone

/-- The pointer of a peer that is in no bucket. -/
theorem Queued.not_mem_of_has (h : t.Queued cr) {index : Index}
    (hr : t.peerByID.lookup nodeID = some r) (hout : Buckets.has t.idOf index nodeID = false) :
    ¬ Buckets.Mem index r :=
  fun hmem => Buckets.has_eq_false.1 hout r hmem (h.keyed nodeID r hr).2

section KnownCandidate

variable {node : NodeInfo} (hr : t.peerByID.lookup node.id = some r)
include hr

theorem idOf_refresh (h : t.Queued cr) : (t.refresh r node).idOf = t.idOf :=
  idOf_setNode (t := t.removePending node.id) (h.keyed _ r hr).2.symm

theorem Queued.refresh (h : t.Queued cr) : (t.refresh r node).Queued cr := by
  have h' : ((t.removePending node.id).setNode r node).Queued cr :=
    (h.removePending node.id).modify (h.keyed _ r hr).2.symm
  exact h'.of_eq rfl rfl rfl rfl rfl

/-- A refreshed candidate has left its list, and is not offline. -/
theorem refresh_out (h : t.Queued cr) :
    ¬ Buckets.Mem (t.refresh r node).pending r ∧
      (t.refresh r node).offline.lookup ((t.refresh r node).idOf r) = none := by
  refine ⟨fun hmem => ((mem_removePending h).1 hmem).2 (h.keyed _ r hr).2, ?_⟩
  rw [idOf_refresh hr h, (h.keyed _ r hr).2]
  show (t.offline.erase node.id).lookup node.id = none
  rw [Dict.lookup_erase_eq, if_pos rfl]

theorem idOf_adopt (h : t.Queued cr) : (t.adopt r node).idOf = t.idOf :=
  idOf_modify (t := t) (f := fun e => { e with node := node, transient := false })
    (h.keyed _ r hr).2.symm

theorem Queued.adopt (h : t.Queued cr) : (t.adopt r node).Queued cr :=
  h.of_eq (idOf_adopt hr h) rfl rfl rfl rfl

theorem adopt_out (h : t.Queued cr) :
    (t.adopt r node).offline.lookup ((t.adopt r node).idOf r) = none := by
  rw [idOf_adopt hr h, (h.keyed _ r hr).2]
  show (t.offline.erase node.id).lookup node.id = none
  rw [Dict.lookup_erase_eq, if_pos rfl]

end KnownCandidate

theorem Queued.addCandidate (h : t.Queued cr) {node : NodeInfo}
    (hadd : t.addCandidate cr node = some t') : t'.Queued cr := by
  rcases addCandidate_cases hadd with ⟨-, rfl⟩ | ⟨-, -, -, i, hi, hcase⟩
  · exact h
  rcases hcase with ⟨r, hr, -, rfl⟩ | ⟨r, hr, hpending, -, rfl⟩ | ⟨hnone, -, rfl⟩
  · obtain ⟨hheld, hid⟩ := h.held_of_lookup hr
    refine (h.refresh hr).appendPending ?_ ?_ (refresh_out hr h).1
    · rw [Held, idOf_refresh hr h]
      exact hheld
    · rw [idOf_refresh hr h, hid]
      exact checked_eq_some hi
  · obtain ⟨hheld, hid⟩ := h.held_of_lookup hr
    refine (h.adopt hr).enqueue ?_ ?_ (h.not_mem_of_has hr hpending)
    · rw [Held, idOf_adopt hr h]
      exact hheld
    · rw [idOf_adopt hr h, hid]
      exact checked_eq_some hi
  · have h' : ((t.alloc node.id { node := node }).enqueue t.nextRef i).Queued cr :=
      Queued.enqueue_new h { node := node } hnone hi
    exact h'.of_eq rfl rfl rfl rfl rfl

theorem Coherent.addCandidate (h : t.Coherent cr) {node : NodeInfo}
    (hadd : t.addCandidate cr node = some t') : t'.Coherent cr := by
  rcases addCandidate_cases hadd with ⟨-, rfl⟩ | ⟨-, hbuckets, hnames, i, hi, hcase⟩
  · exact h
  rcases hcase with ⟨r, hr, -, rfl⟩ | ⟨r, hr, hpending, -, rfl⟩ | ⟨hnone, -, rfl⟩
  · obtain ⟨hheld, hid⟩ := h.held_of_lookup hr
    have h' : (t.refresh r node).Coherent cr :=
      ((h.removePending node.id).modify hid.symm
        (fun hmem => absurd hmem (h.not_mem_of_has hr hnames))).deleteOffline node.id
    refine h'.appendPending ?_ ?_ (refresh_out hr h.toQueued).1 (h.not_mem_of_has hr hbuckets)
      (refresh_out hr h.toQueued).2
    · rw [Held, idOf_refresh hr h.toQueued]
      exact hheld
    · rw [idOf_refresh hr h.toQueued, hid]
      exact checked_eq_some hi
  · obtain ⟨hheld, hid⟩ := h.held_of_lookup hr
    have h' : (t.adopt r node).Coherent cr :=
      (h.modify (f := fun e => { e with node := node, transient := false }) hid.symm
        (fun hmem => absurd hmem (h.not_mem_of_has hr hnames))).deleteOffline node.id
    refine h'.enqueue ?_ ?_ (h.not_mem_of_has hr hpending) (h.not_mem_of_has hr hbuckets)
      (adopt_out hr h.toQueued)
    · rw [Held, idOf_adopt hr h.toQueued]
      exact hheld
    · rw [idOf_adopt hr h.toQueued, hid]
      exact checked_eq_some hi
  · have h' := (h.alloc { node := node } hnone).deleteOffline node.id
    have hnew : (t.alloc node.id { node := node }).idOf t.nextRef = node.id := idOf_alloc_new
    have hid : ((t.alloc node.id { node := node }).deleteOffline node.id).idOf t.nextRef = node.id :=
      hnew
    refine h'.enqueue held_alloc ?_ (fun hr => ?_) (fun hr => ?_) ?_
    · rw [hid]
      exact checked_eq_some hi
    · exact Nat.lt_irrefl _ (h.lt (h.held _ hr))
    · exact Nat.lt_irrefl _ (h.lt (h.activeHeld _ hr))
    · rw [hid]
      show (t.offline.erase node.id).lookup node.id = none
      rw [Dict.lookup_erase_eq, if_pos rfl]

/-- What one turn of `RestoreCandidates` does. -/
theorem restoreCandidate_cases {peer : PeerObservation} {now : Time}
    (h : t.restoreCandidate cr peer now = some t') :
    t' = t ∨ (tooOld peer now = false ∧ ∃ t₁, t.addCandidate cr peer.node = some t₁ ∧
      (t' = t₁ ∨ ∃ r, t₁.peerByID.lookup peer.node.id = some r ∧
        (t' = t₁.modify r (remember peer) ∨
          (isZero peer.offlineSince = false ∧
            t' = ((t₁.modify r (remember peer)).removePending peer.node.id).setOffline
              peer.node.id r)))) := by
  unfold restoreCandidate at h
  split at h
  · cases h
    exact .inl rfl
  · rename_i hold
    simp only [Option.bind_eq_bind, Option.bind_eq_some_iff] at h
    obtain ⟨t₁, hadd, h⟩ := h
    refine .inr ⟨Bool.eq_false_iff.2 hold, t₁, hadd, ?_⟩
    split at h
    · cases h
      exact .inl rfl
    · rename_i r hr
      refine .inr ⟨r, hr, ?_⟩
      split at h
      · cases h
        exact .inl rfl
      · rename_i hzero
        cases h
        exact .inr ⟨Bool.eq_false_iff.2 hzero, rfl⟩

theorem Queued.restoreCandidate (h : t.Queued cr) {peer : PeerObservation} {now : Time}
    (hrestore : t.restoreCandidate cr peer now = some t') : t'.Queued cr := by
  rcases restoreCandidate_cases hrestore with rfl | ⟨-, t₁, hadd, hcase⟩
  · exact h
  have h₁ := h.addCandidate hadd
  rcases hcase with rfl | ⟨r, -, rfl | ⟨-, rfl⟩⟩
  · exact h₁
  · exact h₁.modify rfl
  · have h₂ : ((t₁.modify r (remember peer)).removePending peer.node.id).Queued cr :=
      Queued.removePending (h₁.modify rfl) _
    exact h₂.of_eq rfl rfl rfl rfl rfl

theorem buckets_addCandidate {node : NodeInfo} (hadd : t.addCandidate cr node = some t') :
    t'.buckets = t.buckets := by
  rcases addCandidate_cases hadd with ⟨-, rfl⟩ | ⟨-, -, -, i, -, hcase⟩
  · rfl
  · rcases hcase with ⟨r, -, -, rfl⟩ | ⟨r, -, -, -, rfl⟩ | ⟨-, -, rfl⟩ <;> rfl

/-- The entries of before keep their IDs. -/
theorem idOf_addCandidate (h : t.Queued cr) {node : NodeInfo} (hadd : t.addCandidate cr node = some t')
    (hlt : r < t.nextRef) : t'.idOf r = t.idOf r := by
  rcases addCandidate_cases hadd with ⟨-, rfl⟩ | ⟨-, -, -, i, -, hcase⟩
  · rfl
  rcases hcase with ⟨s, hs, -, rfl⟩ | ⟨s, hs, -, -, rfl⟩ | ⟨-, -, rfl⟩
  · exact congrFun (idOf_refresh hs h) r
  · exact congrFun (idOf_adopt hs h) r
  · show (t.alloc node.id { node := node }).idOf r = t.idOf r
    exact idOf_alloc hlt

theorem buckets_restoreCandidate {peer : PeerObservation} {now : Time}
    (hrestore : t.restoreCandidate cr peer now = some t') : t'.buckets = t.buckets := by
  rcases restoreCandidate_cases hrestore with rfl | ⟨-, t₁, hadd, hcase⟩
  · rfl
  · rw [← buckets_addCandidate hadd]
    rcases hcase with rfl | ⟨r, -, rfl | ⟨-, rfl⟩⟩ <;> rfl

/-- A restored peer that is not active may be put offline. -/
theorem Coherent.restoreCandidate (h : t.Coherent cr) {peer : PeerObservation} {now : Time}
    (hout : tooOld peer now = false → isZero peer.offlineSince = false →
      ∀ r, Buckets.Mem t.buckets r → t.idOf r ≠ peer.node.id)
    (hrestore : t.restoreCandidate cr peer now = some t') : t'.Coherent cr := by
  rcases restoreCandidate_cases hrestore with rfl | ⟨hold, t₁, hadd, hcase⟩
  · exact h
  have h₁ := h.addCandidate hadd
  rcases hcase with rfl | ⟨r, hr, rfl | ⟨hzero, rfl⟩⟩
  · exact h₁
  · exact h₁.modify_same fun _ => rfl
  · have h₂ : (t₁.modify r (remember peer)).Coherent cr := h₁.modify_same fun _ => rfl
    have hid : t₁.idOf r = peer.node.id := (h₁.keyed _ r hr).2
    refine (h₂.removePending peer.node.id).setOffline hr (fun hmem => ?_) fun hmem => ?_
    · -- the entry was active before, under the same ID
      have hmem₁ : Buckets.Mem t₁.buckets r := hmem
      rw [buckets_addCandidate hadd] at hmem₁
      have hlt := h.lt (h.activeHeld r hmem₁)
      exact hout hold hzero r hmem₁ ((idOf_addCandidate h.toQueued hadd hlt).symm.trans hid)
    · exact ((mem_removePending h₂.toQueued).1 hmem).2 ((congrFun (idOf_modify rfl) r).trans hid)

/-- What holds of a table and survives every restored peer survives all of them. -/
theorem restoreCandidates_induction {motive : Table → Prop} {peers : List PeerObservation}
    {now : Time} (hrestore : t.restoreCandidates cr peers now = some t') (ht : motive t)
    (hstep : ∀ t peer t', motive t → t.restoreCandidate cr peer now = some t' → motive t') :
    motive t' := by
  unfold restoreCandidates at hrestore
  generalize hotPeers peers = hot at hrestore
  induction hot generalizing t with
  | nil =>
    cases hrestore
    exact ht
  | cons peer hot ih =>
    simp only [List.foldlM_cons, Option.bind_eq_bind, Option.bind_eq_some_iff] at hrestore
    obtain ⟨t₁, hpeer, hrest⟩ := hrestore
    exact ih (hstep t peer t₁ ht hpeer) hrest

/-! ## Liveness -/

/-- `RecordLivenessResult(nodeID, now, false)` forgets the peer: it has missed often enough, is in
no bucket array, never answered and is not pinned. -/
def forgets (t : Table) (nodeID : String) (now : Time) : Bool :=
  match t.peerByID.lookup nodeID with
  | none => false
  | some r =>
    !tooSoon now (t.heap r) &&
      !decide (incrementByte (t.heap r).probeMisses < staleFailureThreshold) &&
      !(t.inBuckets nodeID || t.inNameBuckets nodeID) &&
      !(decide (0 < (t.heap r).successCount) || (t.heap r).pinned)

theorem forgets_of {now : Time} (hr : t.peerByID.lookup nodeID = some r)
    (hsoon : tooSoon now (t.heap r) = false)
    (hmisses : ¬ incrementByte (t.heap r).probeMisses < staleFailureThreshold)
    (hbuckets : t.inBuckets nodeID = false) (hnames : t.inNameBuckets nodeID = false)
    (hgone : ¬ (0 < (t.heap r).successCount ∨ (t.heap r).pinned = true)) :
    t.forgets nodeID now = true := by
  rw [not_or] at hgone
  simp [forgets, hr, hsoon, hmisses, hbuckets, hnames, hgone]

theorem Queued.takeOffline (h : t.Queued cr) (r : Ref) (nodeID : String) (now : Time) :
    (t.takeOffline r nodeID now).1.Queued cr := by
  unfold Table.takeOffline
  split
  · have h₁ : ((t.removeActive nodeID).removeNamed nodeID).Queued cr := h.of_eq rfl rfl rfl rfl rfl
    have h₂ := h₁.modify (r := r) (f := noteOffline now) rfl
    have h₃ : ((((t.removeActive nodeID).removeNamed nodeID).modify r (noteOffline now)).setOffline
        nodeID r).Queued cr := h₂.of_eq rfl rfl rfl rfl rfl
    exact h₃.removePeerIfUnindexed
  · have h₁ := h.removePending nodeID
    simp only
    split
    · have h₂ := h₁.modify (r := r) (f := noteOffline now) rfl
      exact h₂.of_eq rfl rfl rfl rfl rfl
    · exact h₁.deletePeer fun r hr => ((mem_removePending h).1 hr).2

theorem Coherent.takeOffline (h : t.Coherent cr) (hr : t.peerByID.lookup nodeID = some r)
    (now : Time)
    (hkeep : t.inBuckets nodeID = false → t.inNameBuckets nodeID = false →
      ¬ (0 < (t.heap r).successCount ∨ (t.heap r).pinned = true) → t.offline.lookup nodeID = none) :
    (t.takeOffline r nodeID now).1.Coherent cr := by
  have hid := (h.keyed nodeID r hr).2
  unfold Table.takeOffline
  split
  · rename_i hin
    -- an active peer is no candidate; without its places it may go offline
    have hactive : Buckets.Mem t.buckets r := by
      have key : ∀ r', Buckets.Mem t.buckets r' → t.idOf r' = nodeID → r' = r := by
        intro r' hr' hid'
        have hheld := h.activeHeld r' hr'
        rw [Held, hid', hr] at hheld
        exact (Option.some.inj hheld).symm
      rcases Bool.or_eq_true_iff.1 hin with hin | hin
      · obtain ⟨r', hr', hid'⟩ := Buckets.has_iff.1 hin
        exact key r' hr' hid' ▸ hr'
      · obtain ⟨r', hr', hid'⟩ := Buckets.has_iff.1 hin
        exact key r' (h.namedActive r' hr') hid' ▸ h.namedActive r' hr'
    have h₀ : ((t.removeActive nodeID).removeNamed nodeID).Coherent cr := h.deactivate
    have h₁ : (((t.removeActive nodeID).removeNamed nodeID).modify r (noteOffline now)).Coherent cr :=
      h₀.modify_same fun _ => rfl
    have hout : ¬ Buckets.Mem (t.removeActive nodeID).buckets r := fun hmem =>
      (h.active.mem_remove.1 hmem).2 hid
    exact (h₁.setOffline hr hout (h.apart r hactive)).removePeerIfUnindexed
  · rename_i hin
    rw [Bool.or_eq_true, not_or, Bool.not_eq_true, Bool.not_eq_true] at hin
    have h₁ := h.removePending nodeID
    have hout : ¬ Buckets.Mem (t.removePending nodeID).pending r := fun hmem =>
      ((mem_removePending h.toQueued).1 hmem).2 hid
    simp only
    split
    · have h₂ : ((t.removePending nodeID).modify r (noteOffline now)).Coherent cr :=
        h₁.modify_same fun _ => rfl
      exact h₂.setOffline hr (h.not_mem_of_has hr hin.1) hout
    · rename_i hgone
      rw [Bool.or_eq_true, decide_eq_true_eq] at hgone
      exact h₁.deletePeer (fun r hr => ((mem_removePending h.toQueued).1 hr).2)
        (Buckets.has_eq_false.1 hin.1) (hkeep hin.1 hin.2 hgone)

theorem Queued.recordLivenessResult (h : t.Queued cr) (nodeID : String) (now : Time) (alive : Bool) :
    (t.recordLivenessResult nodeID now alive).1.Queued cr := by
  unfold Table.recordLivenessResult
  split
  · exact h
  · rename_i r hr
    have h₁ := h.modify (r := r) (f := noteProbe now) rfl
    simp only
    split_ifs with halive hsoon hfew
    · exact h₁.modify rfl
    · exact h₁
    · exact h₁.modify rfl
    · exact Queued.takeOffline (h₁.modify rfl) r nodeID now

theorem Coherent.recordLivenessResult (h : t.Coherent cr) {now : Time} {alive : Bool}
    (hkeep : alive = false → t.forgets nodeID now = true → t.offline.lookup nodeID = none) :
    (t.recordLivenessResult nodeID now alive).1.Coherent cr := by
  unfold Table.recordLivenessResult
  split
  · exact h
  · rename_i r hr
    have h₁ : (t.modify r (noteProbe now)).Coherent cr := h.modify_same fun _ => rfl
    simp only
    split_ifs with halive hsoon hfew
    · exact h₁.modify_same fun _ => rfl
    · exact h₁
    · exact h₁.modify_same fun _ => rfl
    · have h₂ : ((t.modify r (noteProbe now)).modify r (noteMiss now)).Coherent cr :=
        h₁.modify_same fun _ => rfl
      refine h₂.takeOffline hr now fun hbuckets hnames hgone => hkeep (Bool.eq_false_iff.2 halive) ?_
      rw [heap_modify] at hsoon hfew hgone
      rw [heap_modify] at hfew hgone
      have hid : ((t.modify r (noteProbe now)).modify r (noteMiss now)).idOf = t.idOf := by
        rw [idOf_modify rfl, idOf_modify rfl]
      rw [inBuckets, hid] at hbuckets
      rw [inNameBuckets, hid] at hnames
      exact forgets_of hr (Bool.eq_false_iff.2 hsoon) hfew hbuckets hnames hgone

/-! ## The remaining operations -/

theorem mem_moveToFront {index : Index} {key : Ref → String} {idx : Int} :
    Buckets.Mem (moveToFront index key nodeID idx) r ↔ Buckets.Mem index r := by
  unfold moveToFront
  split
  · exact Buckets.mem_moveToFront
  · exact Iff.rfl

theorem tidy_moveToFront {index : Index} {key : Ref → String} {place : Ref → Fin 256} {idx : Int}
    (h : Buckets.Tidy key place index) : Buckets.Tidy key place (moveToFront index key nodeID idx) := by
  unfold moveToFront
  split
  · exact h.moveToFront
  · exact h

theorem Coherent.touchActive (h : t.Coherent cr) (nodeID : String) :
    (t.touchActive cr nodeID).Coherent cr where
  toQueued := h.toQueued.of_eq rfl rfl rfl rfl rfl
  active := tidy_moveToFront h.active
  activeHeld r hr := h.activeHeld r (mem_moveToFront.1 hr)
  named := h.named
  namedActive r hr := mem_moveToFront.2 (h.namedActive r hr)
  apart r hr := h.apart r (mem_moveToFront.1 hr)
  away nodeID r hoff := by
    obtain ⟨hpeer, hactive, hpending⟩ := h.away nodeID r hoff
    exact ⟨hpeer, fun hr => hactive (mem_moveToFront.1 hr), hpending⟩

theorem Coherent.touchNamed (h : t.Coherent cr) (r : Ref) (nodeID : String) :
    (t.touchNamed cr r nodeID).Coherent cr where
  toQueued := h.toQueued.of_eq rfl rfl rfl rfl rfl
  active := h.active
  activeHeld := h.activeHeld
  named := tidy_moveToFront h.named
  namedActive r hr := h.namedActive r (mem_moveToFront.1 hr)
  apart := h.apart
  away := h.away

theorem nodeNameHash_withNameHash (node : NodeInfo) :
    (withNameHash cr node).nodeNameHash cr = node.nodeNameHash cr := by
  unfold withNameHash NodeInfo.nodeNameHash
  by_cases hhash : node.nameHash = ""
  · by_cases hname : nodeNameHash cr node.name = ""
    · simp [hhash, hname]
    · simp [hhash]
  · simp [hhash]

theorem Queued.recordUse (h : t.Queued cr) (nodeID : String) (now : Time) (rtt : Duration) :
    (t.recordUse cr nodeID now rtt).Queued cr := by
  unfold Table.recordUse
  split
  · exact h
  · rename_i r hr
    have h₁ : (t.modify r (noteUse now rtt)).Queued cr := h.modify rfl
    have h₂ : ((t.modify r (noteUse now rtt)).touchActive cr nodeID).Queued cr :=
      h₁.of_eq rfl rfl rfl rfl rfl
    simp only
    split
    · have h₃ := h₂.modify (r := r) (f := fun e => { e with node := withNameHash cr _ }) rfl
      exact h₃.of_eq rfl rfl rfl rfl rfl
    · exact h₂

theorem Coherent.recordUse (h : t.Coherent cr) (nodeID : String) (now : Time) (rtt : Duration) :
    (t.recordUse cr nodeID now rtt).Coherent cr := by
  unfold Table.recordUse
  split
  · exact h
  · rename_i r hr
    have h₁ : (t.modify r (noteUse now rtt)).Coherent cr := h.modify_same fun _ => rfl
    have h₂ := h₁.touchActive nodeID
    simp only
    split
    · refine Coherent.touchNamed (h₂.modify rfl fun _ => ?_) r nodeID
      simp only [nameSlot, nameBucketIndex, nodeNameHash_withNameHash]
    · exact h₂

theorem Queued.setPinned (h : t.Queued cr) (nodeID : String) (pinned : Bool) :
    (t.setPinned nodeID pinned).1.Queued cr := by
  unfold Table.setPinned
  split
  · exact h
  · rename_i r hr
    have h₁ := h.modify (r := r) (f := fun e => { e with pinned := pinned }) rfl
    simp only
    split
    · exact h₁
    · exact h₁.removePeerIfUnindexed

theorem Coherent.setPinned (h : t.Coherent cr) (nodeID : String) (pinned : Bool) :
    (t.setPinned nodeID pinned).1.Coherent cr := by
  unfold Table.setPinned
  split
  · exact h
  · rename_i r hr
    have h₁ := h.modify_same (r := r) (f := fun e => { e with pinned := pinned }) fun _ => rfl
    simp only
    split
    · exact h₁
    · exact h₁.removePeerIfUnindexed

/-- The entries that `SetSelfNameHash` puts back are active. -/
theorem Coherent.mem_activeEntries (h : t.Coherent cr) (hr : r ∈ t.activeEntries) :
    Buckets.Mem t.buckets r := by
  obtain ⟨hmem, hin⟩ := List.mem_filter.1 hr
  rw [List.mem_insertionSort, List.mem_map] at hmem
  obtain ⟨⟨nodeID, _⟩, he, rfl⟩ := hmem
  obtain ⟨hheld, -⟩ := h.held_of_lookup (AList.mem_lookup_iff.2 he)
  obtain ⟨r', hr', hid⟩ := Buckets.has_iff.1 hin
  exact (h.activeHeld r' hr').eq hheld hid ▸ hr'

theorem Queued.setSelfNameHash (h : t.Queued cr) (hash : String) :
    (t.setSelfNameHash cr hash).Queued cr := by
  unfold Table.setSelfNameHash
  refine List.foldlRecOn (motive := fun t => Queued cr t) _ _ ?_ fun t ht r _ => ?_
  · exact h.of_eq rfl rfl rfl rfl rfl
  · exact ht.of_eq rfl rfl rfl rfl rfl

theorem Coherent.setSelfNameHash (h : t.Coherent cr) (hash : String) :
    (t.setSelfNameHash cr hash).Coherent cr := by
  have hstart : { t with selfNameHash := hash, nameBuckets := fun _ => [] }.Coherent cr :=
    { toQueued := h.toQueued.of_eq rfl rfl rfl rfl rfl
      active := h.active
      activeHeld := h.activeHeld
      named := Buckets.Tidy.empty
      namedActive := fun r hr => absurd hr Buckets.not_mem_empty
      apart := h.apart
      away := h.away }
  -- the entries are put back one by one; the active peers stay as they are
  have hall : (t.setSelfNameHash cr hash).Coherent cr ∧
      (t.setSelfNameHash cr hash).buckets = t.buckets := by
    unfold Table.setSelfNameHash
    refine List.foldlRecOn (motive := fun s => Coherent cr s ∧ s.buckets = t.buckets) _ _ ⟨hstart, rfl⟩
      fun s hs r hr => ⟨hs.1.insertNamed ?_, hs.2⟩
    rw [hs.2]
    exact h.mem_activeEntries hr
  exact hall.1

theorem Queued.promoteCandidate (h : t.Queued cr) (nodeID : String) (now : Time) :
    (t.promoteCandidate cr nodeID now).Queued cr := by
  unfold Table.promoteCandidate
  split
  · exact h
  · have h' := h.removePending nodeID
    simp only
    split
    · exact h'.addNode _ now
    · exact h'

theorem Coherent.promoteCandidate (h : t.Coherent cr) (nodeID : String) (now : Time) :
    (t.promoteCandidate cr nodeID now).Coherent cr := by
  unfold Table.promoteCandidate
  split
  · exact h
  · have h' := h.removePending nodeID
    simp only
    split
    · exact h'.addNode _ now
    · exact h'

theorem Queued.discardCandidate (h : t.Queued cr) (nodeID : String) :
    (t.discardCandidate nodeID).Queued cr := by
  unfold Table.discardCandidate
  split
  · exact (h.removePending nodeID).removePeerIfUnindexed
  · exact h

theorem Coherent.discardCandidate (h : t.Coherent cr) (nodeID : String) :
    (t.discardCandidate nodeID).Coherent cr := by
  unfold Table.discardCandidate
  split
  · exact (h.removePending nodeID).removePeerIfUnindexed
  · exact h

/-- The table differs from the first in one entry at most, and not in the peer of that entry. -/
def Noted (t t' : Table) : Prop :=
  ∃ r f, t' = t.modify r f ∧ ∀ e : BucketEntry, (f e).node = e.node

theorem Noted.refl (t : Table) : t.Noted t := ⟨0, id, by simp [modify], fun _ => rfl⟩

theorem noted_noteFailureAt (nodeID : String) (now : Time) :
    t.Noted (t.noteFailureAt nodeID now) := by
  unfold noteFailureAt
  split
  · exact .refl t
  · rename_i r hr
    split
    · exact .refl t
    · exact ⟨r, _, rfl, fun _ => rfl⟩

theorem noted_beginLivenessProbe (order : List String) (now : Time) :
    t.Noted (t.beginLivenessProbe order now).1 := by
  unfold beginLivenessProbe
  split
  · exact .refl t
  · rename_i r hr
    exact ⟨r, _, rfl, fun _ => rfl⟩

theorem noted_setFriend (nodeID : String) (friend : Bool) :
    t.Noted (t.setFriend nodeID friend).1 := by
  unfold setFriend
  split
  · exact .refl t
  · rename_i r hr
    exact ⟨r, fun e => { e with friend := friend }, rfl, fun _ => rfl⟩

theorem Queued.noted (h : t.Queued cr) (hn : t.Noted t') : t'.Queued cr := by
  obtain ⟨r, f, rfl, hf⟩ := hn
  refine h.modify ?_
  rw [hf]
  rfl

theorem Coherent.noted (h : t.Coherent cr) (hn : t.Noted t') : t'.Coherent cr := by
  obtain ⟨r, f, rfl, hf⟩ := hn
  exact h.modify_same hf

end Operations

/-! ## Steps and runs -/

/-- A `PruneOffline` step drops no candidate. -/
def PruneSpares (t : Table) : Op → Prop
  | .pruneOffline now => ∀ r, Buckets.Mem t.pending r → t.prunes now (t.idOf r) = false
  | _ => True

theorem Queued.step {cr : Crypto} {t t' : Table} {op : Op} (h : t.Queued cr)
    (hok : t.PruneSpares op) (hstep : t.step cr op = some t') : t'.Queued cr := by
  cases op with
  | addNode node now =>
    cases hstep
    exact h.addNode node now
  | updateKnownNode node now =>
    cases hstep
    exact h.updateKnownNode node now
  | addCandidate node => exact h.addCandidate hstep
  | addLookupCandidate node =>
    obtain ⟨⟨t₁, b⟩, hadd, rfl⟩ := Option.map_eq_some_iff.1 hstep
    exact h.addLookupCandidate hadd
  | restoreCandidates peers now =>
    exact restoreCandidates_induction (motive := fun t => Queued cr t) hstep h
      fun _ _ _ ht hrestore => ht.restoreCandidate hrestore
  | promoteCandidate nodeID now =>
    cases hstep
    exact h.promoteCandidate nodeID now
  | discardCandidate nodeID =>
    cases hstep
    exact h.discardCandidate nodeID
  | noteFailureAt nodeID now =>
    cases hstep
    exact h.noted (noted_noteFailureAt nodeID now)
  | beginLivenessProbe order now =>
    cases hstep
    exact h.noted (noted_beginLivenessProbe order now)
  | recordLivenessResult nodeID now alive =>
    cases hstep
    exact h.recordLivenessResult nodeID now alive
  | recordUse nodeID now rtt =>
    cases hstep
    exact h.recordUse nodeID now rtt
  | setPinned nodeID pinned =>
    cases hstep
    exact h.setPinned nodeID pinned
  | setFriend nodeID friend =>
    cases hstep
    exact h.noted (noted_setFriend nodeID friend)
  | setSelfNameHash hash =>
    cases hstep
    exact h.setSelfNameHash hash
  | pruneOffline now =>
    cases hstep
    exact h.pruneOffline hok

/-- The steps of a table after its start: no `RestoreCandidates`, and no `RecordLivenessResult` that
forgets a peer that is offline. -/
def KeepsOffline (t : Table) : Op → Prop
  | .restoreCandidates _ _ => False
  | .recordLivenessResult nodeID now false =>
    t.forgets nodeID now = true → t.offline.lookup nodeID = none
  | _ => True

theorem Coherent.step {cr : Crypto} {t t' : Table} {op : Op} (h : t.Coherent cr)
    (hok : t.KeepsOffline op) (hstep : t.step cr op = some t') : t'.Coherent cr := by
  cases op with
  | addNode node now =>
    cases hstep
    exact h.addNode node now
  | updateKnownNode node now =>
    cases hstep
    exact h.updateKnownNode node now
  | addCandidate node => exact h.addCandidate hstep
  | addLookupCandidate node =>
    obtain ⟨⟨t₁, b⟩, hadd, rfl⟩ := Option.map_eq_some_iff.1 hstep
    exact h.addLookupCandidate hadd
  | restoreCandidates peers now => cases hok
  | promoteCandidate nodeID now =>
    cases hstep
    exact h.promoteCandidate nodeID now
  | discardCandidate nodeID =>
    cases hstep
    exact h.discardCandidate nodeID
  | noteFailureAt nodeID now =>
    cases hstep
    exact h.noted (noted_noteFailureAt nodeID now)
  | beginLivenessProbe order now =>
    cases hstep
    exact h.noted (noted_beginLivenessProbe order now)
  | recordLivenessResult nodeID now alive =>
    cases hstep
    refine h.recordLivenessResult ?_
    rintro rfl
    exact hok
  | recordUse nodeID now rtt =>
    cases hstep
    exact h.recordUse nodeID now rtt
  | setPinned nodeID pinned =>
    cases hstep
    exact h.setPinned nodeID pinned
  | setFriend nodeID friend =>
    cases hstep
    exact h.noted (noted_setFriend nodeID friend)
  | setSelfNameHash hash =>
    cases hstep
    exact h.setSelfNameHash hash
  | pruneOffline now =>
    cases hstep
    exact h.pruneOffline

/-! ## The representation invariant -/

/-- What the indexes of a table say about its peers. -/
structure Representation (cr : Crypto) (t : Table) : Prop where
  /-- An entry of an index is the one that `peerByID` holds for its node ID. -/
  held : ∀ i r, r ∈ t.buckets i ∨ r ∈ t.nameBuckets i ∨ r ∈ t.pending i →
    t.peerByID.lookup (t.idOf r) = some r
  heldOffline : ∀ nodeID r, t.offline.lookup nodeID = some r →
    t.peerByID.lookup (t.idOf r) = some r
  activeOnce : (t.ids t.buckets).Nodup
  activePlace : ∀ i, ∀ r ∈ t.buckets i, (i : Int) = max 0 (t.bucketIndex cr (t.idOf r))
  namedOnce : (t.ids t.nameBuckets).Nodup
  namedPlace : ∀ i, ∀ r ∈ t.nameBuckets i, (i : Int) = max 0 (t.nameBucketIndex cr (t.node r))
  namedActive : ∀ nodeID ∈ t.ids t.nameBuckets, nodeID ∈ t.ids t.buckets
  /-- No ID is in two of `Buckets`, `Pending` and `offline`. -/
  activePending : ∀ nodeID ∈ t.ids t.buckets, nodeID ∉ t.ids t.pending
  activeOffline : ∀ nodeID ∈ t.ids t.buckets, t.offline.lookup nodeID = none
  pendingOffline : ∀ nodeID ∈ t.ids t.pending, t.offline.lookup nodeID = none
  /-- `Nodes` finds every entry. -/
  nodes : t.nodes.isSome = true

theorem clamp_val {idx : Int} (h : idx ≤ 255) : ((clamp idx : Fin 256) : Int) = max 0 idx := by
  simp only [clamp, Fin.ofNat]
  omega

theorem bitIndex_le {distance : Nat} (h : distance < 2 ^ 256) : bitIndex distance ≤ 255 := by
  have := bitLen_le h
  unfold bitIndex
  omega

theorem isSome_mapM {α β : Type} {f : α → Option β} {l : List α}
    (h : ∀ a ∈ l, (f a).isSome = true) : (l.mapM f).isSome = true := by
  induction l with
  | nil => rfl
  | cons a l ih =>
    obtain ⟨b, hb⟩ := Option.isSome_iff_exists.1 (h a List.mem_cons_self)
    obtain ⟨bs, hbs⟩ := Option.isSome_iff_exists.1 (ih fun a ha => h a (List.mem_cons_of_mem _ ha))
    rw [List.mapM_cons, hb, hbs]
    rfl

theorem Coherent.representation {cr : Crypto} {t : Table} (h : t.Coherent cr) :
    t.Representation cr where
  held i r hr := by
    rcases hr with hr | hr | hr
    · exact h.activeHeld r ⟨i, hr⟩
    · exact h.activeHeld r (h.namedActive r ⟨i, hr⟩)
    · exact h.held r ⟨i, hr⟩
  heldOffline nodeID r hoff := (h.held_of_lookup (h.away nodeID r hoff).1).1
  activeOnce := h.active.nodup_keys
  activePlace i r hr := by
    rw [bucketIndex, ← clamp_val (bitIndex_le (xorDistance_lt cr _ _)), ← h.active.placed i r hr]
    rfl
  namedOnce := h.named.nodup_keys
  namedPlace i r hr := by
    rw [nameBucketIndex, ← clamp_val (bitIndex_le (xorDistance_lt cr _ _)), ← h.named.placed i r hr]
    rfl
  namedActive nodeID hid := by
    obtain ⟨r, hr, hid⟩ := Buckets.mem_keys.1 hid
    exact Buckets.mem_keys.2 ⟨r, h.namedActive r hr, hid⟩
  activePending nodeID hid hid' := by
    obtain ⟨r, hr, hid⟩ := Buckets.mem_keys.1 hid
    obtain ⟨r', hr', hid'⟩ := Buckets.mem_keys.1 hid'
    refine h.apart r hr ?_
    rwa [(h.activeHeld r hr).eq (h.held r' hr') (hid.trans hid'.symm)]
  activeOffline nodeID hid := by
    obtain ⟨r, hr, rfl⟩ := Buckets.mem_keys.1 hid
    exact h.offline_none_of (h.activeHeld r hr) (.inl hr)
  pendingOffline nodeID hid := by
    obtain ⟨r, hr, rfl⟩ := Buckets.mem_keys.1 hid
    exact h.offline_none_of (h.held r hr) (.inr hr)
  nodes := by
    refine isSome_mapM fun nodeID hid => ?_
    rw [distinctSorted, List.mem_dedup, List.mem_insertionSort] at hid
    obtain ⟨r, hr, rfl⟩ := Buckets.mem_keys.1 hid
    rw [show t.peerByID.lookup (t.idOf r) = some r from h.activeHeld r hr]
    rfl

theorem coherent_new (cr : Crypto) (selfID : String) : (newRoutingTable cr selfID).Coherent cr where
  keyed nodeID r hr := by
    rw [newRoutingTable, Dict.lookup_empty_eq] at hr
    cases hr
  tidy := Buckets.Tidy.empty
  held r hr := absurd hr Buckets.not_mem_empty
  active := Buckets.Tidy.empty
  activeHeld r hr := absurd hr Buckets.not_mem_empty
  named := Buckets.Tidy.empty
  namedActive r hr := absurd hr Buckets.not_mem_empty
  apart r hr := absurd hr Buckets.not_mem_empty
  away nodeID r hoff := by
    rw [newRoutingTable, Dict.lookup_empty_eq] at hoff
    cases hoff

/-- A table as the node starts it: new, or new with restored peers. -/
def Started (cr : Crypto) (selfID : String) (t : Table) : Prop :=
  t = newRoutingTable cr selfID ∨
    ∃ peers now, (newRoutingTable cr selfID).restoreCandidates cr peers now = some t

theorem Started.coherent {cr : Crypto} {selfID : String} {t : Table} (h : Started cr selfID t) :
    t.Coherent cr := by
  rcases h with rfl | ⟨peers, now, hrestore⟩
  · exact coherent_new cr selfID
  · -- no peer is active before the first exchange
    refine (restoreCandidates_induction (motive := fun t => Coherent cr t ∧
      ∀ r, ¬ Buckets.Mem t.buckets r) hrestore ⟨coherent_new cr selfID, fun r => Buckets.not_mem_empty⟩
      fun t peer t' ht hpeer => ⟨ht.1.restoreCandidate (fun _ _ r hr => absurd hr (ht.2 r)) hpeer, ?_⟩).1
    rw [buckets_restoreCandidate hpeer]
    exact ht.2

/-- In every run in which no offline peer is forgotten the indexes represent the peers. -/
theorem representation_invariant {cr : Crypto} {selfID : String} {start t : Table}
    (hstart : Started cr selfID start) (hrun : Reach (Table.step cr) KeepsOffline start t) :
    t.Representation cr := by
  have h : t.Coherent cr :=
    Reach.invariant (fun _ _ _ h hok hstep => Coherent.step h hok hstep) hrun hstart.coherent
  exact h.representation

/-- SHA-256; no signature is checked in the runs below. -/
def tableCrypto : Crypto := { sha256 := sha256, ed25519Verify := fun _ _ _ => false }

/-- The ID of a local node. -/
def sampleSelf : String := "vx6_0000000000000000000000000000000000000000000000000000000000000000"

/-- A peer next to it. -/
def samplePeer : NodeInfo :=
  { id := "vx6_0000000000000000000000000000000000000000000000000000000000000001"
    name := "BRAVO", addr := "[2001:db8::5]:4242" }

/-- Two peers further away. -/
def secondPeer : NodeInfo :=
  { id := "vx6_0000000000000000000000000000000000000000000000000000000000000002"
    name := "CHARLIE", addr := "[2001:db8::6]:4242" }

@[inherit_doc secondPeer]
def thirdPeer : NodeInfo :=
  { id := "vx6_0000000000000000000000000000000000000000000000000000000000000004"
    name := "DELTA", addr := "[2001:db8::7]:4242" }

/-- A peer is added and another one waits; the first one misses three probes and goes offline. -/
def goesOffline : List Op :=
  [.addNode samplePeer 0, .addCandidate secondPeer,
    .recordLivenessResult samplePeer.id (5 * minute) false,
    .recordLivenessResult samplePeer.id (10 * minute) false,
    .recordLivenessResult samplePeer.id (15 * minute) false]

/-- A third peer waits, and the second one is promoted. -/
def takesUp : List Op := [.addCandidate thirdPeer, .promoteCandidate secondPeer.id (20 * minute)]

/-- A test of the steps of these runs: a candidate is neither waiting nor offline, and a peer that misses
a probe is not forgotten. -/
def calm (t : Table) : Op → Bool
  | .addNode _ _ | .promoteCandidate _ _ => true
  | .addCandidate node => !t.inPending node.id && (t.offline.lookup node.id).isNone
  | .recordLivenessResult nodeID now alive => !alive && !isZero now && !t.forgets nodeID now
  | _ => false

theorem keepsOffline_of_calm (t : Table) (op : Op) (h : t.calm op = true) : t.KeepsOffline op := by
  cases op with
  | restoreCandidates peers now => cases h
  | recordLivenessResult nodeID now alive =>
    cases alive with
    | true => trivial
    | false =>
      intro hforgets
      simp [calm, hforgets] at h
  | _ => trivial

set_option maxRecDepth 8000 in
theorem calm_run :
    ((goesOffline ++ takesUp).foldlM
      (fun (t : Table) op => if t.calm op then t.step tableCrypto op else none)
      (newRoutingTable tableCrypto sampleSelf)).map (fun t => (t.pendingN, t.inPending thirdPeer.id,
        t.inBuckets secondPeer.id, (t.offline.lookup samplePeer.id).isSome)) =
      some (1, true, true, true) := by
  decide

/-- One peer waits, one is active and one is offline, and the indexes represent them. -/
theorem representation_offline_and_pending :
    ∃ t : Table, (t.inPending thirdPeer.id, t.inBuckets secondPeer.id,
        (t.offline.lookup samplePeer.id).isSome) = (true, true, true) ∧ t.Representation tableCrypto := by
  obtain ⟨t, hrun, hend⟩ := Option.map_eq_some_iff.1 calm_run
  exact ⟨t, (Prod.mk.inj hend).2,
    representation_invariant (.inl rfl : Started tableCrypto sampleSelf _)
      (Reach.of_testedM keepsOffline_of_calm _ hrun)⟩

/-- A pinned candidate misses three probes and goes offline; unpinned, it misses another one. -/
def forgottenRun : List Op :=
  [.addCandidate samplePeer, .setPinned samplePeer.id true,
    .recordLivenessResult samplePeer.id 0 false,
    .recordLivenessResult samplePeer.id (5 * minute) false,
    .recordLivenessResult samplePeer.id (10 * minute) false, .setPinned samplePeer.id false,
    .recordLivenessResult samplePeer.id (15 * minute) false]

set_option maxRecDepth 4000 in
theorem forgottenRun_end :
    (forgottenRun.foldlM (Table.step tableCrypto) (newRoutingTable tableCrypto sampleSelf)).map
      (fun t => (t.offline.lookup samplePeer.id, t.peerByID.entries)) = some (some 0, []) := by
  decide

/-- After the last miss the peer is in `offline` but not in `peerByID`. -/
theorem forgotten_peer_stays_offline :
    ∃ t, forgottenRun.foldlM (Table.step tableCrypto) (newRoutingTable tableCrypto sampleSelf) = some t ∧
      ¬ t.Representation tableCrypto := by
  obtain ⟨t, hrun, hend⟩ := Option.map_eq_some_iff.1 forgottenRun_end
  obtain ⟨hoff, hpeers⟩ := Prod.mk.inj hend
  refine ⟨t, hrun, fun h => ?_⟩
  have hheld := h.heldOffline _ 0 hoff
  rw [Dict.entries_eq_nil_iff.1 hpeers] at hheld
  cases hheld

end Vx6.Dht.Table
