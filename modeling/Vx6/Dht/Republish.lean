import Vx6.Dht.Replicate
import Vx6.Dht.TableView

/-!
# Publishing again

What `MaintainReplicas` does with a value that a peer already holds in the same version. A store
request leaves the values of the peer as they are, and the peer is reported as a replica:
`republication_idempotent`. An endpoint in an envelope is sent as an address update, which
`rejectStaleStoreValue` refuses and `HandleDHT` does not answer, so the peer is reported as a
failure: `republished_endpoint_failed`.
-/

set_option autoImplicit false

namespace Vx6.Dht

open Vx6.Go Vx6.Lib Vx6.Record

/-! ## A value that is held -/

section Again

variable {rt : Runtime} {key w : String} {d : Delivery} {m : Meeting} {s : Server} {v wv : ValidatedValue}

/-- A value of the same version does not replace the one that is held. -/
theorem not_replaces_of_same {now : Time} {previous : ValidatedValue} (hheld : Holds rt s key now v)
    (hv : v.verified = true) (hw : wv.verified = true) (hfp : v.fingerprint = wv.fingerprint) :
    ¬ Replaces rt s key w now wv previous := by
  intro hreplaces
  cases hreplaces with
  | fresh hnone => exact hnone v hheld
  | unverified _ hheld' hunverified =>
    rw [hheld'.unique hheld, hv, hw] at hunverified
    simp at hunverified
  | newer _ hheld' _ _ _ hdiffer _ =>
    rw [hheld'.unique hheld] at hdiffer
    exact hdiffer hfp.symm

/-- Storing a value that is held in the same version changes no value. -/
theorem storeValidated_values_of_same {now : Time} {putOk : Bool} (hfamily : keyFamily key ≠ .other)
    (hheld : Holds rt s key now v) (hincoming : validateLookupValue rt key w now = .ok wv)
    (hfp : v.fingerprint = wv.fingerprint) : (storeValidated rt s key w now putOk).1.values =
    s.values := by
  have hv : v.verified = true := by
    obtain ⟨raw, -, -, hval⟩ := hheld
    simp [validateLookupValue_verified hval, hfamily]
  have hw : wv.verified = true := by simp [validateLookupValue_verified hincoming, hfamily]
  have hstep : StoreStep rt s key w now putOk _ _ := storeValidated_step putOk
  generalize (storeValidated rt s key w now putOk).1 = s' at hstep ⊢
  generalize (storeValidated rt s key w now putOk).2.err = err at hstep
  cases hstep with
  | invalid e he => rfl
  | conflict _ _ _ _ _ _ _ => exact recordConflictLocked_values
  | unpersisted _ _ _ _ _ => rfl
  | replaced wv' previous hw' hreplaces =>
    rw [hincoming, Except.ok.injEq] at hw'
    subst hw'
    exact absurd hreplaces (not_replaces_of_same hheld hv hw hfp)
  | kept _ _ _ _ _ => exact recordVersionLocked_values

/-- Admission and storing of a value that is held in the same version change no value. -/
theorem admitAndStore_values_of_same (hfamily : keyFamily key ≠ .other) (halone : m.interim = id)
    (hheld : Holds rt s key m.stored v) (hincoming : validateLookupValue rt key w m.stored = .ok wv)
    (hfp : v.fingerprint = wv.fingerprint) : (admitAndStore rt s m key w).1.values = s.values := by
  have hvalues := admitStoreValue_values rt s m.remoteAddr key w m.admitted
  unfold admitAndStore
  split
  · rename_i s' e hadmitted
    rwa [hadmitted] at hvalues
  · rename_i s' hadmitted
    rw [hadmitted] at hvalues
    have hstored : (storeValidated rt (m.interim s') key w m.stored m.putOk).1.values = s'.values := by
      rw [halone]
      exact storeValidated_values_of_same hfamily (hheld.congr hvalues) hincoming hfp
    simp only
    split <;> exact hstored.trans hvalues

/-- A store request for a value that the peer holds in the same version succeeds and changes no value. -/
theorem sendStore_of_same (hlink : d.link = .connected)
    (hvalid : (storeRequest rt key w d.sent).validate = .ok ())
    (haction : (storeRequest rt key w d.sent).action = .store) (hfamily : keyFamily key ≠ .other)
    (halone : d.meeting.interim = id) (hheld : Holds rt d.peer.store key d.meeting.stored v)
    (hincoming : validateLookupValue rt key w d.meeting.stored = .ok wv)
    (hfp : v.fingerprint = wv.fingerprint) :
    (sendStore rt key w d).2 = .ok () ∧ (sendStore rt key w d).1.store.values = d.peer.store.values := by
  obtain ⟨hversion, htarget, hdata, -⟩ := storeRequest_fields rt key w d.sent
  rw [sendStore_of_valid hlink hvalid]
  rcases handleDHT_cases rt d.peer d.meeting hvalid with ⟨-, hstore, hreply⟩ | ⟨-, q', hstore, hanswer⟩
  · simp only [hreply, hstore, checkReply_ok hversion, and_self]
  · simp only [hanswer, answer_store haction, checkReply_ok hversion, htarget, hdata, hstore, true_and]
    exact admitAndStore_values_of_same hfamily halone hheld hincoming hfp

end Again

/-! ## Failure counts -/

section Failures

variable {cr : Crypto} {t : Table}

/-- The failure count of a peer. -/
def Table.failures (t : Table) (nodeID : String) : Nat :=
  ((t.view nodeID).entry.map fun e => e.failCount.toNat).getD 0

theorem failures_addNode (cr : Crypto) (h : t.Keyed) (node : NodeInfo) (now : Time) (nodeID : String) :
    (t.addNode cr node now).Keyed ∧ (t.addNode cr node now).failures nodeID ≤ t.failures nodeID := by
  obtain ⟨hkeyed, htouch⟩ := t.touches_addNode cr h node now
  refine ⟨hkeyed, ?_⟩
  have hview := htouch nodeID
  unfold Table.failures
  generalize t.view nodeID = v at hview ⊢
  generalize (t.addNode cr node now).view nodeID = v' at hview ⊢
  cases hview with
  | same => exact le_refl _
  | addNode =>
    have hzero : (Table.exchanged cr node now v.entry).failCount = 0 := by cases v.entry <;> rfl
    simp [hzero]

theorem failures_noteFailureAt (cr : Crypto) (h : t.Keyed) {nodeID nodeID' : String} (now : Time)
    (hne : nodeID' ≠ nodeID) :
    (t.noteFailureAt nodeID' now).Keyed ∧
      (t.noteFailureAt nodeID' now).failures nodeID = t.failures nodeID := by
  have htouches : Table.Touches cr t (.noteFailureAt nodeID' now) _ :=
    Table.touches_noteFailureAt h nodeID' now
  refine ⟨htouches.1, ?_⟩
  have hview := htouches.2 nodeID
  unfold Table.failures
  generalize t.view nodeID = v at hview ⊢
  generalize (t.noteFailureAt nodeID' now).view nodeID = v' at hview ⊢
  cases hview with
  | same => rfl
  | failure => exact absurd rfl hne

end Failures

/-! ## The candidates are distinct -/

section Candidates

variable {rt : Runtime} {key : String} {t : Table}

theorem map_id_peersOf (t : Table) (index : Index) : (t.peersOf index).map NodeInfo.id = t.ids index := by
  rw [Table.peersOf, Table.ids, List.map_map, List.map_flatMap]
  rfl

theorem nodup_sortClosestEntries {cr : Crypto} {all : List NodeInfo} {target : String} {count : Int}
    {byNameHash : Bool} (h : (all.map NodeInfo.id).Nodup) :
    ((sortClosestEntries cr all target count byNameHash).map NodeInfo.id).Nodup := by
  refine List.Nodup.sublist ((List.take_sublist _ _).map _) ?_
  exact ((ranked_perm _ _ all).map NodeInfo.id).nodup_iff.2 h

/-- No two candidates have the same node ID. -/
theorem nodup_replicationCandidates (h : t.Coherent rt.toCrypto) :
    ((replicationCandidates rt key t).map NodeInfo.id).Nodup := by
  refine List.Nodup.sublist ((List.take_sublist _ _).map _) ?_
  have hrep := h.representation
  rw [Table.closestForTarget]
  split_ifs
  · exact nodup_sortClosestEntries (by rw [map_id_peersOf]; exact hrep.namedOnce)
  · exact nodup_sortClosestEntries (by rw [map_id_peersOf]; exact hrep.activeOnce)

end Candidates

/-- Publishing again is idempotent for a value that is sent in a store request. If the peer `q`
holds the value in the same version, the request leaves its values as they are, `q` is never among
the failures and its failure count does not grow, and `q` is successful if it is in the first batch.
-/
theorem republication_idempotent {rt : Runtime} {sign : Bytes → Bytes → Bytes} {key value w : String}
    {env : Surroundings} {s : Replicator} {q : NodeInfo} {v wv : ValidatedValue}
    (hprepare : prepareStoreValue rt sign s.publisher key value env.prepared = .ok w)
    (hfamily : keyFamily key ≠ .other) (hlink : (env.deliver q).link = .connected)
    (hvalid : (storeRequest rt key w (env.deliver q).sent).validate = .ok ())
    (haction : (storeRequest rt key w (env.deliver q).sent).action = .store)
    (halone : (env.deliver q).meeting.interim = id)
    (hheld : Holds rt (env.deliver q).peer.store key (env.deliver q).meeting.stored v)
    (hincoming : validateLookupValue rt key w (env.deliver q).meeting.stored = .ok wv)
    (hfp : v.fingerprint = wv.fingerprint) (htable : s.table.Coherent rt.toCrypto)
    (hcandidate : q ∈ replicationCandidates rt key s.table) :
    (sendStore rt key w (env.deliver q)).1.store.values = (env.deliver q).peer.store.values ∧
    q ∉ (maintainReplicas rt sign key env s value).2.1.failed ∧
    (maintainReplicas rt sign key env s value).1.table.failures q.id ≤ s.table.failures q.id ∧
    ((maintainReplicas rt sign key env s value).2.2 = none →
      q ∈ (replicationCandidates rt key s.table).take (s.desired rt key).toNat →
        q ∈ (maintainReplicas rt sign key env s value).2.1.successful) := by
  obtain ⟨hok, hvalues⟩ := sendStore_of_same hlink hvalid haction hfamily halone hheld hincoming hfp
  have haccounts := accounted_maintainReplicas hprepare
  have hnot : q ∉ (maintainReplicas rt sign key env s value).2.1.failed := fun hfailed =>
    haccounts.failed q hfailed hok
  refine ⟨hvalues, hnot, ?_, ?_⟩
  · -- a failure of another candidate is counted under another ID
    refine (maintainReplicas_invariant
      (P := fun state => state.1.Keyed ∧ state.1.failures q.id ≤ s.table.failures q.id) hprepare
      (fun report _ _ _ _ => ⟨htable.toKeyed, le_refl _⟩) ?_).2
    rintro node hnode state ⟨hkeyed, hcount⟩
    obtain ⟨-, hnote⟩ | ⟨hout, hnote⟩ := noteResult_cases rt key w env state node
    all_goals rw [hnote]
    · obtain ⟨hkeyed', hle⟩ := failures_addNode rt.toCrypto hkeyed node (env.noted node) q.id
      exact ⟨hkeyed', hle.trans hcount⟩
    · have hne : node.id ≠ q.id := by
        intro hid
        have hsame := List.inj_on_of_nodup_map (nodup_replicationCandidates htable) hnode hcandidate hid
        subst hsame
        exact hout hok
      obtain ⟨hkeyed', heq⟩ := failures_noteFailureAt rt.toCrypto hkeyed (env.noted node) hne
      exact ⟨hkeyed', heq.trans_le hcount⟩
  · exact fun hdone hfirst => (listed_of_first hprepare hdone hfirst).1 hok

/-- A table with one peer. -/
def onePeerTable (cr : Crypto) : Table :=
  (newRoutingTable cr Table.sampleSelf).addNode cr (hashedPeer "1") sampleNow

theorem onePeer_wire :
    (onePeerTable wireSigner.toCrypto).peersOf (onePeerTable wireSigner.toCrypto).buckets =
      [hashedPeer "1"] := by
  decide +kernel

/-- The sample descriptor is published again to a peer that holds it. -/
theorem republished_descriptor_unchanged :
    (sendStore (descriptorRuntime sampleNow) forgedKey descriptorText
      ((sampleSurroundings (samplePeerWith (serverWith forgedKey descriptorText))).deliver
        (hashedPeer "1"))).1.store.values =
      ((sampleSurroundings (samplePeerWith (serverWith forgedKey descriptorText))).deliver
        (hashedPeer "1")).peer.store.values ∧
    hashedPeer "1" ∉ (maintainReplicas (descriptorRuntime sampleNow) sampleSign forgedKey
      (sampleSurroundings (samplePeerWith (serverWith forgedKey descriptorText)))
      (samplePublisher (onePeerTable wireSigner.toCrypto) wireIdentity) forgedText).2.1.failed := by
  obtain ⟨v, hv⟩ := descriptorText_valid
  have hne : descriptorText ≠ "" := jsonObject_ne_empty _
  have hheld : Holds (descriptorRuntime sampleNow) (serverWith forgedKey descriptorText) forgedKey
      sampleNow v :=
    ⟨descriptorText, AList.lookup_insert ∅, hne, hv⟩
  have hprepare : prepareStoreValue (descriptorRuntime sampleNow) sampleSign
      (samplePublisher (onePeerTable wireSigner.toCrypto) wireIdentity).publisher forgedKey forgedText
      (sampleSurroundings (samplePeerWith (serverWith forgedKey descriptorText))).prepared =
        .ok descriptorText :=
    descriptor_prepared sampleNow
  have htable : (onePeerTable wireSigner.toCrypto).Coherent wireSigner.toCrypto :=
    (Table.coherent_new wireSigner.toCrypto Table.sampleSelf).addNode _ _
  have hcandidates : (replicationCandidates (descriptorRuntime sampleNow) forgedKey
      (onePeerTable wireSigner.toCrypto)).Perm [hashedPeer "1"] :=
    onePeer_wire ▸ candidates_of_few (by decide) (by rw [onePeer_wire]; decide)
  have hcandidate : hashedPeer "1" ∈ replicationCandidates (descriptorRuntime sampleNow) forgedKey
      (samplePublisher (onePeerTable wireSigner.toCrypto) wireIdentity).table :=
    hcandidates.mem_iff.2 List.mem_cons_self
  have hresult := republication_idempotent (q := hashedPeer "1") hprepare
    (isTrustedLookupKey_family forgedKey_trusted) rfl descriptor_request.2 descriptor_request.1 rfl
    hheld hv rfl
    htable hcandidate
  exact ⟨hresult.1, hresult.2.1⟩

/-! ## Refused updates -/

section Refused

variable {rt : Runtime} {key w : String} {d : Delivery} {s : Server} {v wv : ValidatedValue}

/-- A value that is not newer than the one that is held is not admitted. -/
theorem not_admitted_of_not_newer {remoteAddr : String} {now : Time} (hk : isTrustedLookupKey key = true)
    (hheld : Holds rt s key now v) (hincoming : validateLookupValue rt key w now = .ok wv)
    (hfamily : v.family = wv.family) (hnewer : ¬ Newer wv v) :
    (admitStoreValue rt s remoteAddr key w now).2 ≠ .ok () := by
  intro hadmitted
  obtain ⟨raw, hlookup, hne, hval⟩ := hheld
  have hv := verified_of_trusted hk hval
  have hw := verified_of_trusted hk hincoming
  have hold : isNewerValue wv v = false := Bool.eq_false_iff.2 hnewer
  have hvalues := @allowStoreRequest_values s key remoteAddr true now
  simp only [admitStoreValue, hk, if_true] at hadmitted
  split at hadmitted
  · cases hadmitted
  · rename_i s' hallow
    replace hvalues : s'.values = s.values := by
      rw [hallow] at hvalues
      exact hvalues
    have hstale : rejectStaleStoreValue rt s' key w now = .error (.stale key) := by
      simp [rejectStaleStoreValue, hincoming, hvalues, hlookup, hne, hval, hv, hw, hfamily, hold]
    simp only [admitTrusted, hincoming, hstale] at hadmitted
    split_ifs at hadmitted

/-- An address update with a value that is not newer than the one that the peer holds fails. -/
theorem update_of_not_newer_fails (hk : isTrustedLookupKey key = true)
    (haction : (storeRequest rt key w d.sent).action = .updateIP)
    (hheld : Holds rt d.peer.store key d.meeting.admitted v)
    (hincoming : validateLookupValue rt key w d.meeting.admitted = .ok wv)
    (hfamily : v.family = wv.family) (hnewer : ¬ Newer wv v) : (sendStore rt key w d).2 ≠ .ok () := by
  intro h
  obtain ⟨hvalid, -, reply, hreply⟩ := handled_of_sendStore h
  obtain ⟨-, htarget, hdata, -⟩ := storeRequest_fields rt key w d.sent
  rcases handleDHT_cases rt d.peer d.meeting hvalid with ⟨hspent, -, -⟩ | ⟨-, q', hstore, hanswer⟩
  · exact not_hiddenRateSpent_update haction hspent
  · rw [hanswer] at hreply
    have hstored := (answer_update haction hreply).2
    rw [htarget, hdata, hstore, admitAndStore] at hstored
    split at hstored
    · cases hstored
    · rename_i s' hadmitted
      exact not_admitted_of_not_newer hk hheld hincoming hfamily hnewer (congrArg Prod.snd hadmitted)

end Refused

/-- The same endpoint is published again to a peer that holds it: the peer is reported as a failure. -/
theorem republished_endpoint_failed :
    Holds sampleRuntime (serverWith sampleKey firstText) sampleKey sampleNow
      (sampleValue firstRecord firstSignature) ∧
    validateLookupValue sampleRuntime sampleKey firstText sampleNow =
      .ok (sampleValue firstRecord firstSignature) ∧
    prepareStoreValue sampleRuntime firstSign sampleIdentity sampleKey
      (marshalEndpoint firstRecord) sampleNow =
      .ok firstText ∧
    hashedPeer "1" ∈ (maintainReplicas sampleRuntime firstSign sampleKey
      (sampleSurroundings (samplePeerWith (serverWith sampleKey firstText)))
      (samplePublisher (tableOf [hashedPeer "1"]) sampleIdentity)
        (marshalEndpoint firstRecord)).2.1.failed := by
  have hvalid : validateLookupValue sampleRuntime sampleKey firstText sampleNow = _ :=
    validateLookupValue_sample first_mem
  have hne : firstText ≠ "" := jsonObject_ne_empty _
  have hheld : Holds sampleRuntime (serverWith sampleKey firstText) sampleKey sampleNow
      (sampleValue firstRecord firstSignature) := ⟨firstText, AList.lookup_insert ∅, hne, hvalid⟩
  have hfails : (sendStore sampleRuntime sampleKey firstText
      (sampleDelivery (samplePeerWith (serverWith sampleKey firstText)))).2 ≠ .ok () :=
    update_of_not_newer_fails sampleKey_trusted first_request.1 hheld hvalid rfl
      (not_newer_of_same rfl rfl (.inr rfl))
  exact ⟨hheld, hvalid, first_prepared,
    (sample_listed sampleKey_not_name peersOf_tableOf_one first_prepared hvalid).2 hfails⟩

end Vx6.Dht
