import Vx6.Dht.Table

/-!
# Invariants of the routing table

Two invariants of a table. `Queued` is about `Pending`: every candidate is the entry that `peerByID`
holds for its ID, at its own position, once. `Coherent` adds the other indexes: the active peers are
tidy in both bucket arrays, a peer with a name position is active, and no peer is in two of
`Buckets`, `Pending` and `offline`.

The operations of the table are chains of small changes (an entry is changed or allocated, a peer
enters or leaves one index); this module proves for each change when it keeps the invariants.
-/

set_option autoImplicit false

namespace Vx6.Dht.Table

open Vx6.Go Vx6.Lib Vx6.Record

/-! ## Invariants -/

section Invariants

variable (cr : Crypto) (t : Table)

/-- The entry is the one that `peerByID` holds for its ID. -/
def Held (r : Ref) : Prop := t.peerByID.lookup (t.idOf r) = some r

/-- The position of a node ID in `Buckets` and `Pending`. -/
def slot (nodeID : String) : Fin 256 := clamp (t.bucketIndex cr nodeID)

/-- The position of a peer in `NameBuckets`. -/
def nameSlot (node : NodeInfo) : Fin 256 := clamp (t.nameBucketIndex cr node)

/-- The candidates are in order. -/
structure Queued : Prop where
  keyed : ∀ nodeID r, t.peerByID.lookup nodeID = some r → r < t.nextRef ∧ t.idOf r = nodeID
  tidy : Buckets.Tidy t.idOf (fun r => t.slot cr (t.idOf r)) t.pending
  held : ∀ r, Buckets.Mem t.pending r → t.Held r

/-- All indexes are in order. -/
structure Coherent : Prop extends Queued cr t where
  active : Buckets.Tidy t.idOf (fun r => t.slot cr (t.idOf r)) t.buckets
  activeHeld : ∀ r, Buckets.Mem t.buckets r → t.Held r
  named : Buckets.Tidy t.idOf (fun r => t.nameSlot cr (t.node r)) t.nameBuckets
  namedActive : ∀ r, Buckets.Mem t.nameBuckets r → Buckets.Mem t.buckets r
  apart : ∀ r, Buckets.Mem t.buckets r → ¬ Buckets.Mem t.pending r
  away : ∀ nodeID r, t.offline.lookup nodeID = some r → t.peerByID.lookup nodeID = some r ∧
    ¬ Buckets.Mem t.buckets r ∧ ¬ Buckets.Mem t.pending r

end Invariants

section Changes

variable {cr : Crypto} {t t' : Table} {r : Ref} {nodeID : String}

/-! ## Entries behind pointers -/

theorem Held.eq {r' : Ref} (h : t.Held r) (h' : t.Held r') (hid : t.idOf r = t.idOf r') : r = r' := by
  unfold Held at h h'
  rw [hid, h'] at h
  exact (Option.some.inj h).symm

theorem checked_eq_some {idx : Int} {i : Fin 256} (h : checked idx = some i) : clamp idx = i := by
  unfold checked at h
  split at h
  · rename_i hidx
    cases h
    apply Fin.ext
    simp only [clamp, Fin.ofNat]
    omega
  · cases h

/-- A change of an entry that keeps its ID. -/
theorem idOf_modify {f : BucketEntry → BucketEntry} (h : (f (t.heap r)).node.id = t.idOf r) :
    (t.modify r f).idOf = t.idOf := by
  funext r'
  by_cases hr : r' = r
  · subst hr
    simpa [idOf, node, modify] using h
  · simp [idOf, node, modify, Function.update_of_ne hr]

theorem heap_modify {f : BucketEntry → BucketEntry} : (t.modify r f).heap r = f (t.heap r) :=
  Function.update_self _ _ _

theorem idOf_setNode {node : NodeInfo} (h : node.id = t.idOf r) : (t.setNode r node).idOf = t.idOf :=
  idOf_modify h

theorem idOf_alloc {entry : BucketEntry} (h : r < t.nextRef) :
    (t.alloc nodeID entry).idOf r = t.idOf r := by
  simp [idOf, node, alloc, Function.update_of_ne (Nat.ne_of_lt h)]

theorem node_alloc {entry : BucketEntry} (h : r < t.nextRef) :
    (t.alloc nodeID entry).node r = t.node r := by
  simp [node, alloc, Function.update_of_ne (Nat.ne_of_lt h)]

theorem idOf_alloc_new {entry : BucketEntry} : (t.alloc nodeID entry).idOf t.nextRef = entry.node.id := by
  simp [idOf, node, alloc]

theorem lookup_alloc {entry : BucketEntry} {nodeID' : String} :
    (t.alloc nodeID entry).peerByID.lookup nodeID' =
      if nodeID' = nodeID then some t.nextRef else t.peerByID.lookup nodeID' :=
  Dict.lookup_insert_eq _ _ _ _

/-! ## Changes that keep the candidates in order -/

/-- `Queued` reads the candidates, the map of the peers and the IDs of the entries. -/
theorem Queued.of_eq (h : t.Queued cr) (hid : t'.idOf = t.idOf) (hself : t'.selfID = t.selfID)
    (hnext : t'.nextRef = t.nextRef) (hpeer : t'.peerByID = t.peerByID)
    (hpending : t'.pending = t.pending) : t'.Queued cr where
  keyed nodeID r hr := by
    rw [hpeer] at hr
    rw [hnext, hid]
    exact h.keyed nodeID r hr
  tidy := by
    rw [hpending]
    refine h.tidy.congr (fun r _ => congrFun hid r) fun r _ => ?_
    rw [hid, slot, slot, bucketIndex, bucketIndex, hself]
  held r hr := by
    rw [hpending] at hr
    rw [Held, hpeer, hid]
    exact h.held r hr

theorem Queued.lt (h : t.Queued cr) (hr : t.Held r) : r < t.nextRef := (h.keyed _ r hr).1

theorem Queued.modify (h : t.Queued cr) {f : BucketEntry → BucketEntry}
    (hf : (f (t.heap r)).node.id = t.idOf r) : (t.modify r f).Queued cr :=
  h.of_eq (idOf_modify hf) rfl rfl rfl rfl

/-- A new entry. -/
theorem Queued.alloc (h : t.Queued cr) (entry : BucketEntry)
    (hnone : t.peerByID.lookup entry.node.id = none) : (t.alloc entry.node.id entry).Queued cr where
  keyed nodeID r hr := by
    rw [lookup_alloc] at hr
    split at hr
    · rename_i hn
      cases hr
      exact ⟨Nat.lt_succ_self _, by rw [idOf_alloc_new, hn]⟩
    · obtain ⟨hlt, hid⟩ := h.keyed nodeID r hr
      exact ⟨Nat.lt_succ_of_lt hlt, by rw [idOf_alloc hlt, hid]⟩
  tidy := by
    refine h.tidy.congr (fun r hr => idOf_alloc (h.lt (h.held r hr))) fun r hr => ?_
    rw [idOf_alloc (h.lt (h.held r hr))]
    rfl
  held r hr := by
    have hheld := h.held r hr
    rw [Held, idOf_alloc (h.lt hheld), lookup_alloc, if_neg]
    · exact hheld
    · intro hid
      rw [Held, hid, hnone] at hheld
      cases hheld

theorem mem_removePending (h : t.Queued cr) :
    Buckets.Mem (t.removePending nodeID).pending r ↔
      Buckets.Mem t.pending r ∧ t.idOf r ≠ nodeID :=
  h.tidy.mem_removeFirst

theorem Queued.removePending (h : t.Queued cr) (nodeID : String) :
    (t.removePending nodeID).Queued cr where
  keyed := h.keyed
  tidy := h.tidy.removeFirst
  held r hr := h.held r (Buckets.mem_of_mem_removeFirst hr)

/-- A candidate that has the entry of its ID and is not queued yet. -/
theorem Queued.appendPending (h : t.Queued cr) {i : Fin 256} (hheld : t.Held r)
    (hi : t.slot cr (t.idOf r) = i) (hnew : ¬ Buckets.Mem t.pending r) :
    (t.appendPending r i).Queued cr where
  keyed := h.keyed
  tidy := h.tidy.append hi fun r' hr' hid => hnew ((h.held r' hr').eq hheld hid ▸ hr')
  held r' hr' := by
    rcases Buckets.mem_append.1 hr' with hr' | rfl
    · exact h.held r' hr'
    · exact hheld

theorem Queued.deletePeer (h : t.Queued cr) (hout : ∀ r, Buckets.Mem t.pending r → t.idOf r ≠ nodeID) :
    (t.deletePeer nodeID).Queued cr where
  keyed nodeID' r hr := by
    have hr : (t.peerByID.erase nodeID).lookup nodeID' = some r := hr
    rw [Dict.lookup_erase_eq] at hr
    split at hr
    · cases hr
    · exact h.keyed nodeID' r hr
  tidy := h.tidy
  held r hr := by
    show (t.peerByID.erase nodeID).lookup (t.idOf r) = some r
    rw [Dict.lookup_erase_eq, if_neg (hout r hr)]
    exact h.held r hr

theorem mem_pending_of_inPending (h : t.inPending nodeID = false) :
    ∀ r, Buckets.Mem t.pending r → t.idOf r ≠ nodeID :=
  Buckets.has_eq_false.1 h

theorem Queued.removePeerIfUnindexed (h : t.Queued cr) :
    (t.removePeerIfUnindexed nodeID).Queued cr := by
  unfold Table.removePeerIfUnindexed
  split_ifs with hpin hin hoff hpend
  · exact h
  · exact h
  · exact h
  · exact h
  · exact h.deletePeer (mem_pending_of_inPending (Bool.eq_false_iff.2 hpend))

theorem Queued.pruneOffline {now : Time} (h : t.Queued cr)
    (hspare : ∀ r, Buckets.Mem t.pending r → t.prunes now (t.idOf r) = false) :
    (t.pruneOffline now).Queued cr where
  keyed nodeID r hr := by
    have hr : (t.peerByID.filter fun nodeID _ => !t.prunes now nodeID).lookup nodeID = some r := hr
    rw [Dict.lookup_filter, Option.filter_eq_some_iff] at hr
    exact h.keyed nodeID r hr.1
  tidy := h.tidy
  held r hr := by
    show (t.peerByID.filter fun nodeID _ => !t.prunes now nodeID).lookup (t.idOf r) = some r
    rw [Dict.lookup_filter, Option.filter_eq_some_iff, hspare r hr]
    exact ⟨h.held r hr, rfl⟩

/-! ## Changes that keep all indexes in order -/

/-- A change of an entry that keeps its ID, and its name position if it has one. -/
theorem Coherent.modify (h : t.Coherent cr) {f : BucketEntry → BucketEntry}
    (hid : (f (t.heap r)).node.id = t.idOf r)
    (hname : Buckets.Mem t.nameBuckets r →
      t.nameSlot cr (f (t.heap r)).node = t.nameSlot cr (t.node r)) :
    (t.modify r f).Coherent cr where
  toQueued := h.toQueued.modify hid
  active := by
    refine h.active.congr (fun r' _ => congrFun (idOf_modify hid) r') fun r' _ => ?_
    rw [idOf_modify hid]
    rfl
  activeHeld r' hr' := by
    rw [Held, idOf_modify hid]
    exact h.activeHeld r' hr'
  named := by
    refine h.named.congr (fun r' _ => congrFun (idOf_modify hid) r') fun r' hr' => ?_
    by_cases hr : r' = r
    · subst hr
      simpa [node, Table.modify, nameSlot, nameBucketIndex] using hname hr'
    · simp [node, Table.modify, nameSlot, nameBucketIndex, Function.update_of_ne hr]
  namedActive := h.namedActive
  apart := h.apart
  away := h.away

/-- A change of an entry that keeps its peer. -/
theorem Coherent.modify_same (h : t.Coherent cr) {f : BucketEntry → BucketEntry}
    (hf : ∀ e, (f e).node = e.node) : (t.modify r f).Coherent cr := by
  refine h.modify ?_ fun _ => ?_
  · rw [hf]
    rfl
  · rw [hf]
    rfl

theorem Coherent.offline_none (h : t.Coherent cr) (hnone : t.peerByID.lookup nodeID = none) :
    t.offline.lookup nodeID = none := by
  cases hoff : t.offline.lookup nodeID with
  | none => rfl
  | some r =>
    rw [(h.away nodeID r hoff).1] at hnone
    cases hnone

theorem Coherent.alloc (h : t.Coherent cr) (entry : BucketEntry)
    (hnone : t.peerByID.lookup entry.node.id = none) :
    (t.alloc entry.node.id entry).Coherent cr where
  toQueued := h.toQueued.alloc entry hnone
  active := by
    refine h.active.congr (fun r hr => idOf_alloc (h.lt (h.activeHeld r hr))) fun r hr => ?_
    rw [idOf_alloc (h.lt (h.activeHeld r hr))]
    rfl
  activeHeld r hr := by
    have hheld := h.activeHeld r hr
    rw [Held, idOf_alloc (h.lt hheld), lookup_alloc, if_neg]
    · exact hheld
    · intro hid
      rw [Held, hid, hnone] at hheld
      cases hheld
  named := by
    have hlt : ∀ r, Buckets.Mem t.nameBuckets r → r < t.nextRef := fun r hr =>
      h.lt (h.activeHeld r (h.namedActive r hr))
    refine h.named.congr (fun r hr => idOf_alloc (hlt r hr)) fun r hr => ?_
    rw [node_alloc (hlt r hr)]
    rfl
  namedActive := h.namedActive
  apart := h.apart
  away nodeID r hoff := by
    obtain ⟨hpeer, hrest⟩ := h.away nodeID r hoff
    refine ⟨?_, hrest⟩
    rw [lookup_alloc, if_neg]
    · exact hpeer
    · rintro rfl
      rw [hnone] at hpeer
      cases hpeer

theorem Coherent.removePending (h : t.Coherent cr) (nodeID : String) :
    (t.removePending nodeID).Coherent cr where
  toQueued := h.toQueued.removePending nodeID
  active := h.active
  activeHeld := h.activeHeld
  named := h.named
  namedActive := h.namedActive
  apart r hr hr' := h.apart r hr (Buckets.mem_of_mem_removeFirst hr')
  away nodeID r hoff := by
    obtain ⟨hpeer, hactive, hpending⟩ := h.away nodeID r hoff
    exact ⟨hpeer, hactive, fun hr => hpending (Buckets.mem_of_mem_removeFirst hr)⟩

theorem Coherent.appendPending (h : t.Coherent cr) {i : Fin 256} (hheld : t.Held r)
    (hi : t.slot cr (t.idOf r) = i) (hnew : ¬ Buckets.Mem t.pending r)
    (hactive : ¬ Buckets.Mem t.buckets r) (hoff : t.offline.lookup (t.idOf r) = none) :
    (t.appendPending r i).Coherent cr where
  toQueued := h.toQueued.appendPending hheld hi hnew
  active := h.active
  activeHeld := h.activeHeld
  named := h.named
  namedActive := h.namedActive
  apart r' hr' hr'' := by
    rcases Buckets.mem_append.1 hr'' with hr'' | rfl
    · exact h.apart r' hr' hr''
    · exact hactive hr'
  away nodeID r' hoff' := by
    obtain ⟨hpeer, hactive', hpending'⟩ := h.away nodeID r' hoff'
    refine ⟨hpeer, hactive', fun hr' => ?_⟩
    rcases Buckets.mem_append.1 hr' with hr' | rfl
    · exact hpending' hr'
    · rw [(h.keyed nodeID r' hpeer).2] at hoff
      exact Option.some_ne_none r' (hoff'.symm.trans hoff)

/-- The count of the candidates is not part of the invariants. -/
theorem Coherent.enqueue (h : t.Coherent cr) {i : Fin 256} (hheld : t.Held r)
    (hi : t.slot cr (t.idOf r) = i) (hnew : ¬ Buckets.Mem t.pending r)
    (hactive : ¬ Buckets.Mem t.buckets r) (hoff : t.offline.lookup (t.idOf r) = none) :
    (t.enqueue r i).Coherent cr :=
  let h' := h.appendPending hheld hi hnew hactive hoff
  { keyed := h'.keyed, tidy := h'.tidy, held := h'.held, active := h'.active,
    activeHeld := h'.activeHeld, named := h'.named, namedActive := h'.namedActive,
    apart := h'.apart, away := h'.away }

theorem Coherent.deleteOffline (h : t.Coherent cr) (nodeID : String) :
    (t.deleteOffline nodeID).Coherent cr where
  toQueued := h.toQueued.of_eq rfl rfl rfl rfl rfl
  active := h.active
  activeHeld := h.activeHeld
  named := h.named
  namedActive := h.namedActive
  apart := h.apart
  away nodeID' r hoff := by
    have hoff : (t.offline.erase nodeID).lookup nodeID' = some r := hoff
    rw [Dict.lookup_erase_eq] at hoff
    split at hoff
    · cases hoff
    · exact h.away nodeID' r hoff

theorem Coherent.setOffline (h : t.Coherent cr) (hpeer : t.peerByID.lookup nodeID = some r)
    (hactive : ¬ Buckets.Mem t.buckets r) (hpending : ¬ Buckets.Mem t.pending r) :
    (t.setOffline nodeID r).Coherent cr where
  toQueued := h.toQueued.of_eq rfl rfl rfl rfl rfl
  active := h.active
  activeHeld := h.activeHeld
  named := h.named
  namedActive := h.namedActive
  apart := h.apart
  away nodeID' r' hoff := by
    have hoff : (t.offline.insert nodeID r).lookup nodeID' = some r' := hoff
    rw [Dict.lookup_insert_eq] at hoff
    split at hoff
    · rename_i hid
      cases hoff
      exact ⟨hid ▸ hpeer, hactive, hpending⟩
    · exact h.away nodeID' r' hoff

theorem Coherent.insertActive (h : t.Coherent cr) (hheld : t.Held r)
    (hpending : ¬ Buckets.Mem t.pending r) (hoff : t.offline.lookup (t.idOf r) = none) :
    (t.insertActive cr r).Coherent cr := by
  have hown : ∀ r', Buckets.Mem t.buckets r' → t.idOf r' = t.idOf r → r' = r :=
    fun r' hr' hid => (h.activeHeld r' hr').eq hheld hid
  have hmem : ∀ r', Buckets.Mem (t.insertActive cr r).buckets r' ↔ Buckets.Mem t.buckets r' ∨ r' = r :=
    fun r' => Buckets.mem_insert hown
  exact {
    toQueued := h.toQueued.of_eq rfl rfl rfl rfl rfl
    active := h.active.insert rfl hown
    activeHeld := by
      intro r' hr'
      rcases (hmem r').1 hr' with hr' | rfl
      · exact h.activeHeld r' hr'
      · exact hheld
    named := h.named
    namedActive := fun r' hr' => (hmem r').2 (.inl (h.namedActive r' hr'))
    apart := by
      intro r' hr'
      rcases (hmem r').1 hr' with hr' | rfl
      · exact h.apart r' hr'
      · exact hpending
    away := by
      intro nodeID r' hoff'
      obtain ⟨hpeer, hactive', hpending'⟩ := h.away nodeID r' hoff'
      refine ⟨hpeer, fun hr' => ?_, hpending'⟩
      rcases (hmem r').1 hr' with hr' | rfl
      · exact hactive' hr'
      · rw [(h.keyed nodeID r' hpeer).2] at hoff
        exact Option.some_ne_none r' (hoff'.symm.trans hoff) }

theorem Coherent.insertNamed (h : t.Coherent cr) (hactive : Buckets.Mem t.buckets r) :
    (t.insertNamed cr r).Coherent cr := by
  have hown : ∀ r', Buckets.Mem t.nameBuckets r' → t.idOf r' = t.idOf r → r' = r :=
    fun r' hr' hid => (h.activeHeld r' (h.namedActive r' hr')).eq (h.activeHeld r hactive) hid
  exact {
    toQueued := h.toQueued.of_eq rfl rfl rfl rfl rfl
    active := h.active
    activeHeld := h.activeHeld
    named := h.named.insert rfl hown
    namedActive := by
      intro r' hr'
      rcases (Buckets.mem_insert hown).1 hr' with hr' | rfl
      · exact h.namedActive r' hr'
      · exact hactive
    apart := h.apart
    away := h.away }

theorem Coherent.removeNamed (h : t.Coherent cr) : (t.removeNamed nodeID).Coherent cr where
  toQueued := h.toQueued.of_eq rfl rfl rfl rfl rfl
  active := h.active
  activeHeld := h.activeHeld
  named := h.named.remove
  namedActive r hr := h.namedActive r (h.named.mem_remove.1 hr).1
  apart := h.apart
  away := h.away

/-- A peer leaves both bucket arrays. -/
theorem Coherent.deactivate (h : t.Coherent cr) :
    ((t.removeActive nodeID).removeNamed nodeID).Coherent cr where
  toQueued := h.toQueued.of_eq rfl rfl rfl rfl rfl
  active := h.active.remove
  activeHeld r hr := h.activeHeld r (h.active.mem_remove.1 hr).1
  named := h.named.remove
  namedActive r hr := by
    obtain ⟨hr, hid⟩ := h.named.mem_remove.1 hr
    exact h.active.mem_remove.2 ⟨h.namedActive r hr, hid⟩
  apart r hr := h.apart r (h.active.mem_remove.1 hr).1
  away nodeID' r hoff := by
    obtain ⟨hpeer, hactive, hpending⟩ := h.away nodeID' r hoff
    exact ⟨hpeer, fun hr => hactive (h.active.mem_remove.1 hr).1, hpending⟩

theorem Coherent.deletePeer (h : t.Coherent cr)
    (hpending : ∀ r, Buckets.Mem t.pending r → t.idOf r ≠ nodeID)
    (hactive : ∀ r, Buckets.Mem t.buckets r → t.idOf r ≠ nodeID)
    (hoff : t.offline.lookup nodeID = none) : (t.deletePeer nodeID).Coherent cr where
  toQueued := h.toQueued.deletePeer hpending
  active := h.active
  activeHeld r hr := by
    show (t.peerByID.erase nodeID).lookup (t.idOf r) = some r
    rw [Dict.lookup_erase_eq, if_neg (hactive r hr)]
    exact h.activeHeld r hr
  named := h.named
  namedActive := h.namedActive
  apart := h.apart
  away nodeID' r hoff' := by
    obtain ⟨hpeer, hrest⟩ := h.away nodeID' r hoff'
    refine ⟨?_, hrest⟩
    show (t.peerByID.erase nodeID).lookup nodeID' = some r
    rw [Dict.lookup_erase_eq, if_neg]
    · exact hpeer
    · rintro rfl
      exact Option.some_ne_none r (hoff'.symm.trans hoff)

theorem Coherent.removePeerIfUnindexed (h : t.Coherent cr) :
    (t.removePeerIfUnindexed nodeID).Coherent cr := by
  unfold Table.removePeerIfUnindexed
  split_ifs with hpin hin hoff hpend
  · exact h
  · exact h
  · exact h
  · exact h
  · rw [Bool.or_eq_true, not_or] at hin
    refine h.deletePeer (mem_pending_of_inPending (Bool.eq_false_iff.2 hpend))
      (Buckets.has_eq_false.1 (Bool.eq_false_iff.2 hin.1)) ?_
    simpa using hoff

/-- An active peer or candidate is not offline. -/
theorem Coherent.offline_none_of (h : t.Coherent cr) (hheld : t.Held r)
    (hin : Buckets.Mem t.buckets r ∨ Buckets.Mem t.pending r) :
    t.offline.lookup (t.idOf r) = none := by
  cases hoff : t.offline.lookup (t.idOf r) with
  | none => rfl
  | some r' =>
    obtain ⟨hpeer, hactive, hpending⟩ := h.away _ r' hoff
    rw [Held, hpeer] at hheld
    cases hheld
    rcases hin with hin | hin
    · exact absurd hin hactive
    · exact absurd hin hpending

theorem Coherent.prunes_false {now : Time} (h : t.Coherent cr) (hheld : t.Held r)
    (hin : Buckets.Mem t.buckets r ∨ Buckets.Mem t.pending r) : t.prunes now (t.idOf r) = false := by
  rw [prunes, h.offline_none_of hheld hin]

theorem Coherent.pruneOffline {now : Time} (h : t.Coherent cr) : (t.pruneOffline now).Coherent cr where
  toQueued := h.toQueued.pruneOffline fun r hr => h.prunes_false (h.held r hr) (.inr hr)
  active := h.active
  activeHeld r hr := by
    have hheld := h.activeHeld r hr
    show (t.peerByID.filter fun nodeID _ => !t.prunes now nodeID).lookup (t.idOf r) = some r
    rw [Dict.lookup_filter, Option.filter_eq_some_iff, h.prunes_false hheld (.inl hr)]
    exact ⟨hheld, rfl⟩
  named := h.named
  namedActive := h.namedActive
  apart := h.apart
  away nodeID r hoff := by
    have hoff : (t.offline.filter fun nodeID _ => !t.prunes now nodeID).lookup nodeID = some r := hoff
    rw [Dict.lookup_filter, Option.filter_eq_some_iff] at hoff
    obtain ⟨hpeer, hrest⟩ := h.away nodeID r hoff.1
    refine ⟨?_, hrest⟩
    show (t.peerByID.filter fun nodeID _ => !t.prunes now nodeID).lookup nodeID = some r
    rw [Dict.lookup_filter, Option.filter_eq_some_iff]
    exact ⟨hpeer, hoff.2⟩

end Changes

end Vx6.Dht.Table
