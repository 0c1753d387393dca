import Vx6.Dht.Publish
import Vx6.Dht.TableView

/-!
# The signed endpoint of a known peer

`UpdateKnownNode` compares the signed endpoint it gets with the one the table holds. `AddNode`,
`AddCandidate`, `PromoteCandidate` and `RestoreCandidates` write the copy they are given. A change of
the table rolls no endpoint back exactly when the copy it writes is not older than the one held
(`Fresh`), which a query that started with an old copy does not guarantee.
-/

set_option autoImplicit false

namespace Vx6.Dht

open Vx6.Go Vx6.Lib Vx6.Record

/-- `NodeInfoFromEndpointRecord`. -/
def nodeInfoFromEndpointRecord (cr : Crypto) (rec : EndpointRecord) : NodeInfo where
  identityVersion := rec.version
  identitySequence := rec.sequence
  id := rec.nodeID
  name := rec.nodeName
  nameHash := nodeNameHash cr rec.nodeName
  addr := rec.address
  publicKey := rec.publicKey
  identityIssuedAt := rec.issuedAt
  identityExpiresAt := rec.expiresAt
  identitySignature := rec.signature

theorem endpointRecordFromNodeInfo_eq (cr : Crypto) (rec : EndpointRecord) :
    endpointRecordFromNodeInfo (nodeInfoFromEndpointRecord cr rec) = rec := rfl

/-- The signed endpoint of `node` is that of `held`, or a newer one. -/
def Current (node held : NodeInfo) : Prop :=
  endpointRecordFromNodeInfo node = endpointRecordFromNodeInfo held ∨
    endpointRecordNewer (endpointRecordFromNodeInfo node) (endpointRecordFromNodeInfo held) = true

theorem Current.refl (node : NodeInfo) : Current node node := .inl rfl

namespace Table

/-- The signed endpoint of a peer that stays known is replaced only by a newer one. -/
def NoRollback (t t' : Table) : Prop :=
  ∀ nodeID e e', t.entry nodeID = some e → t'.entry nodeID = some e' → Current e'.node e.node

/-- A copy of a peer that is not older than the one held. -/
def FreshCopy (t : Table) (node : NodeInfo) : Prop := ∀ e, t.entry node.id = some e → Current node e.node

/-- The change writes no copy that is older than the one held. -/
def Fresh (t : Table) : Change → Prop
  | .call (.addNode node _) => t.acceptable node = true → t.FreshCopy node
  | .call (.promoteCandidate nodeID _) =>
    ∀ r, t.firstPending nodeID = some r → t.acceptable (t.node r) = true → t.FreshCopy (t.node r)
  | .call (.addCandidate node) => t.takes node = true → t.FreshCopy node
  | .restored peer now => tooOld peer now = false → t.takes peer.node = true → t.FreshCopy peer.node
  | _ => True

section Changes

variable {cr : Crypto} {t t' : Table} {nodeID : String}

/-- A change that sets the entry of one peer. -/
theorem noRollback_iff {e' : BucketEntry} {offline : Bool} (hview : ∀ nodeID', t'.view nodeID' =
    if nodeID' = nodeID then ⟨some e', offline⟩ else t.view nodeID') :
    t.NoRollback t' ↔ ∀ e, t.entry nodeID = some e → Current e'.node e.node := by
  have hthis : t'.entry nodeID = some e' := by
    have := congrArg PeerView.entry (hview nodeID)
    rwa [if_pos rfl] at this
  constructor
  · intro hno e he
    exact hno nodeID e e' he hthis
  · intro hcurrent nodeID' e₁ e₂ he₁ he₂
    by_cases hid : nodeID' = nodeID
    · subst hid
      rw [hthis] at he₂
      cases he₂
      exact hcurrent e₁ he₁
    · have hsame := congrArg PeerView.entry (hview nodeID')
      rw [if_neg hid] at hsame
      have hentry : t'.entry nodeID' = t.entry nodeID' := hsame
      rw [hentry, he₁] at he₂
      cases he₂
      exact .refl e₁.node

theorem NoRollback.refl (t : Table) : t.NoRollback t := by
  intro nodeID e e' he he'
  rw [he] at he'
  cases he'
  exact .refl e.node

theorem exchanged_node (node : NodeInfo) (now : Time) (held : Option BucketEntry) :
    (exchanged cr node now held).node = node := by
  cases held with
  | none => rfl
  | some e => exact startProbation_node now { e with node := node }

theorem proposed_node (pending : Bool) (node : NodeInfo) (held : Option BucketEntry) :
    (proposed pending node held).node = node := by
  cases held <;> rfl

/-- `AddNode` writes the copy it is given. -/
theorem node_addNode (cr : Crypto) (h : t.Keyed) {node : NodeInfo} (hok : t.acceptable node = true)
    (now : Time) :
    ∃ e, (t.addNode cr node now).entry node.id = some e ∧ e.node = node := by
  have hview := congrArg PeerView.entry ((view_addNode cr h hok now).2 node.id)
  rw [if_pos rfl] at hview
  exact ⟨_, hview, exchanged_node node now _⟩

theorem noRollback_addNode (h : t.Keyed) (node : NodeInfo) (now : Time) :
    t.NoRollback (t.addNode cr node now) ↔ (t.acceptable node = true → t.FreshCopy node) := by
  by_cases hok : t.acceptable node = true
  · rw [noRollback_iff (view_addNode cr h hok now).2, exchanged_node]
    exact ⟨fun hfresh _ => hfresh, fun hfresh => hfresh hok⟩
  · rw [addNode, if_neg hok]
    exact ⟨fun _ hyes => absurd hyes hok, fun _ => .refl t⟩

theorem noRollback_promoteCandidate (h : t.Keyed) (now : Time) :
    t.NoRollback (t.promoteCandidate cr nodeID now) ↔ t.Fresh (.call (.promoteCandidate nodeID now)) := by
  unfold promoteCandidate
  cases hr : t.firstPending nodeID with
  | none =>
    refine ⟨fun _ r hsome => ?_, fun _ => .refl t⟩
    rw [hr] at hsome
    cases hsome
  | some r =>
    -- the peer of the candidate is added as `Pending` holds it
    have hfresh : t.Fresh (.call (.promoteCandidate nodeID now)) ↔
        (t.acceptable (t.node r) = true → t.FreshCopy (t.node r)) := by
      refine ⟨fun hall => hall r hr, fun hthis r' hr' => ?_⟩
      rw [hr] at hr'
      cases hr'
      exact hthis
    rw [hfresh]
    simp only
    split_ifs with hempty
    · exact noRollback_addNode (t := t.removePending nodeID) h (t.node r) now
    · have hid : (t.node r).id = "" := not_not.1 hempty
      refine ⟨fun _ hok => ?_, fun _ => NoRollback.refl t⟩
      simp [acceptable, hid] at hok

theorem noRollback_addCandidate (h : t.Keyed) {node : NodeInfo} (hadd : t.addCandidate cr node = some t') :
    t.NoRollback t' ↔ (t.takes node = true → t.FreshCopy node) := by
  by_cases htakes : t.takes node = true
  · rw [noRollback_iff (view_addCandidate h htakes hadd).2, proposed_node]
    exact ⟨fun hfresh _ => hfresh, fun hfresh => hfresh htakes⟩
  · rw [addCandidate_idle (Bool.eq_false_iff.2 htakes) hadd]
    exact ⟨fun _ hyes => absurd hyes htakes, fun _ => .refl t⟩

theorem noRollback_restoreCandidate (h : t.Keyed) {peer : PeerObservation} {now : Time}
    (hrestore : t.restoreCandidate cr peer now = some t') :
    t.NoRollback t' ↔ t.Fresh (.restored peer now) := by
  cases hold : tooOld peer now with
  | true =>
    rw [restoreCandidate_skip hold hrestore]
    refine ⟨fun _ hnot => ?_, fun _ => .refl t⟩
    rw [hold] at hnot
    cases hnot
  | false =>
    have hview := (view_restoreCandidate h hold hrestore).2
    by_cases htakes : t.takes peer.node = true
    · rw [offered, if_pos htakes, PeerView.restored] at hview
      rw [noRollback_iff hview]
      exact ⟨fun hfresh _ _ e he => (proposed_node (t.inPending peer.node.id) peer.node
          (t.entry peer.node.id)) ▸ hfresh e he,
        fun hfresh e he => (proposed_node (t.inPending peer.node.id) peer.node
          (t.entry peer.node.id)).symm ▸ hfresh hold htakes e he⟩
    · -- an entry that is only remembered keeps its peer
      refine ⟨fun _ _ hyes => absurd hyes htakes, fun _ nodeID e e' he he' => ?_⟩
      have hentry := congrArg PeerView.entry (hview nodeID)
      rw [offered, if_neg htakes] at hentry
      split_ifs at hentry with hid
      · subst hid
        rw [PeerView.restored, show (t.view peer.node.id).entry = some e from he,
          show (t'.view peer.node.id).entry = some e' from he'] at hentry
        cases hentry
        exact .refl e.node
      · rw [show (t'.view nodeID).entry = some e' from he', show (t.view nodeID).entry = some e from he]
          at hentry
        cases hentry
        exact .refl e.node

/-- The other operations keep the signed endpoint of a peer, or replace it by a newer one. -/
theorem Touch.current {op : Op} {v w : PeerView} (h : Touch cr t nodeID op v w)
    (hadd : ∀ node now, op ≠ .addNode node now) (hpromote : ∀ nodeID now,
      op ≠ .promoteCandidate nodeID now)
    (hcandidate : ∀ node, op ≠ .addCandidate node) {e e' : BucketEntry} (he : v.entry = some e)
    (he' : w.entry = some e') : Current e'.node e.node := by
  cases h with
  | same =>
    rw [he] at he'
    cases he'
    exact .refl e.node
  | addNode node now => exact absurd rfl (hadd node now)
  | promote r now => exact absurd rfl (hpromote nodeID now)
  | candidate node => exact absurd rfl (hcandidate node)
  | update node now e₁ offline hid hnewer =>
    cases he
    cases he'
    exact .inr hnewer
  | use now rtt e₁ node offline hnode =>
    cases he
    cases he'
    rcases hnode with rfl | rfl
    · exact .inl rfl
    · exact .inl rfl
  | lookup => cases he
  | discard => cases he'
  | forget => cases he'
  | unpin => cases he'
  | prune => cases he'
  | _ =>
    cases he
    cases he'
    exact .inl rfl

/-- A candidate is promoted as the table holds it, when `Pending` holds entries of `peerByID`. -/
theorem Queued.fresh_promoteCandidate (h : t.Queued cr) (now : Time) :
    t.Fresh (.call (.promoteCandidate nodeID now)) := by
  intro r hr _ e he
  have hmem : Buckets.Mem t.pending r := by
    obtain ⟨i, -, hi⟩ := List.mem_flatMap.1 (List.mem_of_find?_eq_some hr)
    exact ⟨i, hi⟩
  have hheld : t.peerByID.lookup (t.node r).id = some r := h.held r hmem
  rw [entry_of_lookup hheld] at he
  cases he
  exact .refl (t.node r)

end Changes

/-- In every run of a table, a change rolls no signed endpoint back exactly when it writes no copy
older than the one held. -/
theorem no_rollback_iff_fresh {cr : Crypto} {selfID : String} {t t' : Table} {c : Change}
    (hrun : Reach (change cr) (fun _ _ => True) (newRoutingTable cr selfID) t)
    (hchange : t.change cr c = some t') : t.NoRollback t' ↔ t.Fresh c := by
  have h : t.Keyed := keyed_of_run hrun
  cases c with
  | restored peer now => exact noRollback_restoreCandidate h hchange
  | call op =>
    -- the operations that compare, or leave the endpoint alone
    obtain ⟨hstep, hop⟩ := step_of_change hchange
    have hother (hadd : ∀ node now, op ≠ .addNode node now)
        (hpromote : ∀ nodeID now, op ≠ .promoteCandidate nodeID now)
        (hcandidate : ∀ node, op ≠ .addCandidate node) : t.NoRollback t' :=
      fun nodeID e e' he he' =>
        ((touches_step h hstep hop).2 nodeID).current hadd hpromote hcandidate he he'
    cases op with
    | restoreCandidates peers now => exact absurd rfl (hop peers now)
    | addNode node now =>
      cases hstep
      exact noRollback_addNode h node now
    | promoteCandidate nodeID now =>
      cases hstep
      exact noRollback_promoteCandidate h now
    | addCandidate node => exact noRollback_addCandidate h hstep
    | _ => exact ⟨fun _ => trivial, fun _ => hother nofun nofun nofun⟩

/-- The table of the samples below. -/
def sampleTable : Table := newRoutingTable sampleCrypto "self"

/-- The peer of a sample record. -/
def sampleInfo (rec : EndpointRecord) : NodeInfo := nodeInfoFromEndpointRecord sampleCrypto rec

theorem verifyNodeInfo_sample {rec : EndpointRecord} {signature : String}
    (hp : (rec, signature) ∈ samples) :
    verifyNodeInfo sampleCrypto (sampleInfo rec) sampleNow = .ok () := by
  have hver : verifyEndpointRecord sampleCrypto rec sampleNow = .ok () :=
    ok_of_toOption (samples_checks _ hp).1
  have hfields : ¬ (rec.nodeID = "" ∨ rec.nodeName = "" ∨ rec.address = "" ∨ rec.publicKey = "" ∨
      rec.issuedAt = "" ∨ rec.expiresAt = "" ∨ rec.signature = "") := by
    have hall : ∀ p ∈ samples, ¬ (p.1.nodeID = "" ∨ p.1.nodeName = "" ∨ p.1.address = "" ∨
        p.1.publicKey = "" ∨ p.1.issuedAt = "" ∨ p.1.expiresAt = "" ∨ p.1.signature = "") := by decide
    exact hall _ hp
  simp only [not_or] at hfields
  rw [verifyNodeInfo, sampleInfo, endpointRecordFromNodeInfo_eq, hver]
  simp only [nodeInfoFromEndpointRecord, hfields, decide_false, Bool.or_false, ne_eq, not_true_eq_false,
    Bool.and_false]
  rfl

/-- A peer that has moved is added with its new record: the table held the old one, and rolls nothing
back. -/
theorem no_rollback_iff_fresh_moved :
    ∃ t e, Reach (change sampleCrypto) (fun _ _ => True) sampleTable t ∧
      t.entry sampleNodeID = some e ∧ endpointRecordFromNodeInfo e.node = firstRecord ∧
      t.NoRollback (t.addNode sampleCrypto (sampleInfo earlyRecord) sampleNow) := by
  have hok : sampleTable.acceptable (sampleInfo firstRecord) = true := by decide
  obtain ⟨e, he, hnode⟩ := node_addNode sampleCrypto (keyed_new sampleCrypto "self") hok sampleNow
  have hrun : Reach (change sampleCrypto) (fun _ _ => True) sampleTable
      (sampleTable.addNode sampleCrypto (sampleInfo firstRecord) sampleNow) :=
    .single ⟨.call (.addNode (sampleInfo firstRecord) sampleNow), trivial, rfl⟩
  refine ⟨_, e, hrun, he, congrArg endpointRecordFromNodeInfo hnode,
    (no_rollback_iff_fresh (c := .call (.addNode (sampleInfo earlyRecord) sampleNow)) hrun rfl).2
      fun _ e' he' => ?_⟩
  have hsame : e' = e := Option.some.inj (he'.symm.trans he)
  rw [hsame, hnode]
  exact .inr (by decide)

/-- A peer that has moved is added with its new record, and then again with a copy of the old one that
some query held since before. Both records verify, and the table ends with the older one. -/
theorem stale_copy_rolls_back :
    verifyNodeInfo sampleCrypto (sampleInfo earlyRecord) sampleNow = .ok () ∧
      verifyNodeInfo sampleCrypto (sampleInfo firstRecord) sampleNow = .ok () ∧
      endpointRecordNewer earlyRecord firstRecord = true ∧
      endpointRecordNewer firstRecord earlyRecord = false ∧
      ∃ t t' e e', Reach (Table.step sampleCrypto) (fun _ _ => True) sampleTable t ∧
        t.step sampleCrypto (.addNode (sampleInfo firstRecord) sampleNow) = some t' ∧
        t.entry sampleNodeID = some e ∧ endpointRecordFromNodeInfo e.node = earlyRecord ∧
        t'.entry sampleNodeID = some e' ∧ endpointRecordFromNodeInfo e'.node = firstRecord := by
  have hkeyed : sampleTable.Keyed := keyed_new sampleCrypto "self"
  have hok : sampleTable.acceptable (sampleInfo earlyRecord) = true := by decide
  have hok' : (sampleTable.addNode sampleCrypto (sampleInfo earlyRecord) sampleNow).acceptable
      (sampleInfo firstRecord) = true := by decide
  obtain ⟨e, he, hnode⟩ := node_addNode sampleCrypto hkeyed hok sampleNow
  obtain ⟨e', he', hnode'⟩ :=
    node_addNode sampleCrypto (view_addNode sampleCrypto hkeyed hok sampleNow).1 hok' sampleNow
  exact ⟨verifyNodeInfo_sample early_mem,
    verifyNodeInfo_sample first_mem, by decide, by decide, _, _, e, e',
    .single ⟨.addNode (sampleInfo earlyRecord) sampleNow, trivial, rfl⟩, rfl, he,
    congrArg endpointRecordFromNodeInfo hnode, he', congrArg endpointRecordFromNodeInfo hnode'⟩

end Table

end Vx6.Dht
