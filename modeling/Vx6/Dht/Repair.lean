import Vx6.Dht.Republish

/-!
# The walk over the candidates

`MaintainReplicas` sends to as many candidates as replicas are missing, waits for all results of the
batch, which arrive in any order, and goes on with the candidates after the batch. `sentBatches` are
the batches it sends to. They cut a first part of the candidates into pieces, so that each candidate
is contacted at most once and closer ones first, and what they leave out is left out because the
number of replicas is reached: `repair_walk`.
-/

set_option autoImplicit false

namespace Vx6.Dht

open Vx6.Go Vx6.Lib

/-- `defaultAdaptiveConfig`, the only configuration of a server. -/
def defaultAdaptiveConfig : AdaptiveConfig := { replicationBase := 5, replicationMax := 8 }

section Walk

variable (rt : Runtime) (key w : String) (env : Surroundings)

/-- The batches that the loop of `MaintainReplicas` sends to. -/
def sentBatches (candidates : List NodeInfo) (s : Table × ReplicationReport) : List (List NodeInfo) :=
  if candidates ≠ [] ∧ s.2.storedRemotely < s.2.desired then
    let remaining := (s.2.desired - s.2.storedRemotely).toNat
    candidates.take remaining :: sentBatches (candidates.drop remaining)
      ((env.arrivals (candidates.take remaining)).foldl (noteResult rt key w env) s)
  else []
termination_by candidates.length
decreasing_by
  rename_i hgo
  have hpos := List.length_pos_iff.2 hgo.1
  rw [List.length_drop]
  omega

/-- What the report of a walk over the candidates says. -/
structure Balanced (candidates : List NodeInfo) (batches : List (List NodeInfo))
    (report : ReplicationReport) :
    Prop where
  /-- The batches are the first candidates, in order. -/
  inOrder : batches.flatten = candidates.take report.attempted
  /-- Each contact has one result. -/
  results : report.reached.Perm batches.flatten
  stored : report.storedRemotely = report.successful.length
  attempted : report.attempted = report.storedRemotely + report.failed.length
  disjoint : report.successful.Disjoint report.failed
  bounded : report.storedRemotely ≤ report.desired
  /-- The walk stops early only when there are enough replicas. -/
  complete : report.storedRemotely = report.desired ∨ batches.flatten = candidates

variable {rt key w env}

/-! ## A batch -/

/-- What a batch of results changes. -/
structure Batch (nodes : List NodeInfo) (before after : ReplicationReport) : Prop where
  desired : after.desired = before.desired
  reached : after.reached.Perm (before.reached ++ nodes)
  stored : after.storedRemotely ≤ before.storedRemotely + nodes.length

theorem batch_noteResult (s : Table × ReplicationReport) (node : NodeInfo) :
    Batch [node] s.2 (noteResult rt key w env s node).2 := by
  obtain ⟨-, hnote⟩ | ⟨-, hnote⟩ := noteResult_cases rt key w env s node
  all_goals rw [hnote]
  · refine ⟨rfl, ?_, le_refl _⟩
    simp only [ReplicationReport.reached, List.append_assoc]
    exact List.Perm.append_left _ List.perm_append_comm
  · refine ⟨rfl, ?_, Nat.le_succ _⟩
    simp only [ReplicationReport.reached, List.append_assoc]
    exact List.Perm.refl _

theorem Batch.trans {a b c : ReplicationReport} {nodes nodes' : List NodeInfo} (h : Batch nodes a b)
    (h' : Batch nodes' b c) : Batch (nodes ++ nodes') a c := by
  refine ⟨h'.desired.trans h.desired, ?_, ?_⟩
  · rw [← List.append_assoc]
    exact h'.reached.trans (h.reached.append_right nodes')
  · have hfirst := h.stored
    have hsecond := h'.stored
    rw [List.length_append]
    omega

theorem Batch.perm {a b : ReplicationReport} {nodes nodes' : List NodeInfo} (h : Batch nodes a b)
    (hperm : nodes.Perm nodes') : Batch nodes' a b :=
  ⟨h.desired, h.reached.trans (hperm.append_left _), hperm.length_eq ▸ h.stored⟩

theorem batch_foldl (nodes : List NodeInfo) (s : Table × ReplicationReport) :
    Batch nodes s.2 (nodes.foldl (noteResult rt key w env) s).2 := by
  induction nodes generalizing s with
  | nil => exact ⟨rfl, by rw [List.append_nil, List.foldl_nil], le_refl _⟩
  | cons node nodes ih => exact (batch_noteResult s node).trans (ih _)

/-- The results of a batch, in the order in which they arrive. -/
theorem batch_arrivals (rt : Runtime) (key w : String) (env : Surroundings) (nodes : List NodeInfo)
    (s : Table × ReplicationReport) :
    Batch nodes s.2 ((env.arrivals nodes).foldl (noteResult rt key w env) s).2 :=
  (batch_foldl (env.arrivals nodes) s).perm (env.arrivals_perm nodes)

/-! ## The loop -/

/-- The walk from a report that does not exceed the number of replicas. -/
theorem walk_repair (candidates : List NodeInfo) (s : Table × ReplicationReport)
    (hbound : s.2.storedRemotely ≤ s.2.desired) :
    (repair rt key w env candidates s).2.desired = s.2.desired ∧
    (repair rt key w env candidates s).2.reached.Perm
      (s.2.reached ++ (sentBatches rt key w env candidates s).flatten) ∧
    (repair rt key w env candidates s).2.storedRemotely ≤ s.2.desired ∧
    (sentBatches rt key w env candidates s).flatten <+: candidates ∧
    ((repair rt key w env candidates s).2.storedRemotely = s.2.desired ∨
      (sentBatches rt key w env candidates s).flatten = candidates) := by
  -- one batch after another, along the recursion of the loop
  induction candidates, s using repair.induct rt key w env with
  | case1 candidates s hgo remaining ih =>
    have hbatch := batch_arrivals rt key w env (candidates.take remaining) s
    have hroom : ((env.arrivals (candidates.take remaining)).foldl
      (noteResult rt key w env) s).2.storedRemotely ≤
        ((env.arrivals (candidates.take remaining)).foldl (noteResult rt key w env) s).2.desired := by
      have hstored := hbatch.stored
      have hlength := List.length_take_le remaining candidates
      rw [hbatch.desired]
      omega
    obtain ⟨hdesired, hreached, hstored, hinitial, hcomplete⟩ := ih hroom
    rw [repair, if_pos hgo, sentBatches, if_pos hgo, List.flatten_cons]
    rw [hbatch.desired] at hdesired hstored hcomplete
    refine ⟨hdesired, ?_, hstored, ?_, hcomplete.imp_right fun hall => ?_⟩
    · rw [← List.append_assoc]
      exact hreached.trans (hbatch.reached.append_right _)
    · conv_rhs => rw [← List.take_append_drop remaining candidates]
      exact (List.prefix_append_right_inj _).2 hinitial
    · exact (congrArg (candidates.take remaining ++ ·) hall).trans
        (List.take_append_drop remaining candidates)
  | case2 candidates s hstop =>
    rw [repair, if_neg hstop, sentBatches, if_neg hstop, List.flatten_nil, List.append_nil]
    refine ⟨rfl, .refl _, hbound, List.nil_prefix, ?_⟩
    rcases Classical.not_and_iff_not_or_not.1 hstop with hempty | hfull
    · exact .inr (not_not.1 hempty).symm
    · exact .inl (by omega)

theorem balanced_repair (candidates : List NodeInfo) (s : Table × ReplicationReport)
    (hstart : s.2.reached = []) (haccounted : Accounted rt key w env s.2) (hdesired : 0 ≤ s.2.desired) :
    Balanced candidates (sentBatches rt key w env candidates s) (repair rt key w env candidates s).2 := by
  have hempty : s.2.successful = [] := (List.append_eq_nil_iff.1 hstart).1
  have hbound : s.2.storedRemotely ≤ s.2.desired := by
    rw [haccounted.stored, hempty]
    exact hdesired
  obtain ⟨hsame, hreached, hstored, hinitial, hcomplete⟩ := walk_repair candidates s hbound
  have hdone : Accounted rt key w env (repair rt key w env candidates s).2 :=
    repair_invariant (P := fun s => Accounted rt key w env s.2) _ _
      (fun node _ s h => h.noteResult node) haccounted
  rw [hstart, List.nil_append] at hreached
  have hlength := hreached.length_eq
  rw [ReplicationReport.reached, List.length_append, ← hdone.attempted] at hlength
  refine ⟨?_, hreached, hdone.stored, ?_, fun node hok hfailed => ?_, ?_, ?_⟩
  · rw [hlength]
    exact List.prefix_iff_eq_take.1 hinitial
  · rw [hdone.attempted, hdone.stored]
  · exact hdone.failed node hfailed (hdone.successful node hok)
  · rwa [hsame]
  · rwa [hsame]

end Walk

/-! ## The candidates -/

section Candidates

variable {rt : Runtime} {key : String}

/-- The distance by which the candidates are ordered. -/
def replicaDistance (rt : Runtime) (key : String) (node : NodeInfo) : Nat :=
  if isNameTarget key then xorDistance rt.toCrypto (node.nodeNameHash rt.toCrypto)
    (trimPrefix key "node/name/")
  else xorDistance rt.toCrypto node.id key

theorem sorted_nearest (d : NodeInfo → Nat) (peers : List NodeInfo) (count : Int) :
    (nearest d peers count).Pairwise fun a b => d a ≤ d b := by
  refine List.Pairwise.sublist (List.take_sublist _ _)
    ((ranked_pairwise d NodeInfo.id peers).imp fun {a b} h => ?_)
  by_contra hlt
  exact h (.inl (Nat.lt_of_not_le hlt))

/-- Closer candidates come first. -/
theorem sorted_replicationCandidates (rt : Runtime) (key : String) (t : Table) :
    (replicationCandidates rt key t).Pairwise fun a b => replicaDistance rt key a ≤
    replicaDistance rt key b := by
  refine List.Pairwise.sublist (List.take_sublist _ _) ?_
  unfold Table.closestForTarget replicaDistance
  split_ifs
  · exact sorted_nearest _ _ _
  · exact sorted_nearest _ _ _

theorem desiredReplicas_nonneg {candidates : List NodeInfo} {target : Int} (h : 0 ≤ target) :
    0 ≤ desiredReplicas candidates target := by
  unfold desiredReplicas
  split_ifs
  · exact Int.natCast_nonneg _
  · exact h

theorem adaptiveReplicationTarget_nonneg {cfg : AdaptiveConfig} (h : 0 ≤ cfg.replicationMax)
    (failure : FailureLevel) :
    0 ≤ adaptiveReplicationTarget cfg failure := by
  simp only [adaptiveReplicationTarget]
  split_ifs
  all_goals omega

end Candidates

/-- The walk over any candidates with any number of replicas as the target, and the one of
`MaintainReplicas`, which fails before the first request or walks over the closest peers. -/
theorem repair_walk (rt : Runtime) (key : String) (env : Surroundings) :
    (∀ (w : String) (t : Table) (candidates : List NodeInfo) (target : Nat),
      let start := (t, { key := key, desired := desiredReplicas candidates target, localStored := true })
      Balanced candidates (sentBatches rt key w env candidates start)
        (repair rt key w env candidates start).2) ∧
    ∀ (sign : Bytes → Bytes → Bytes) (s : Replicator) (value : String), 0 ≤ s.adaptive.replicationMax →
      (∃ e, (maintainReplicas rt sign key env s value).2 = ({ key := key }, some e)) ∨
      ∃ w, prepareStoreValue rt sign s.publisher key value env.prepared = .ok w ∧
        (maintainReplicas rt sign key env s value).2.2 = none ∧
        let candidates := replicationCandidates rt key s.table
        let batches := sentBatches rt key w env candidates
          (s.table, { key := key, desired := s.desired rt key, localStored := true })
        Balanced candidates batches (maintainReplicas rt sign key env s value).2.1 ∧
        batches.flatten.Pairwise (fun a b => replicaDistance rt key a ≤ replicaDistance rt key b) ∧
        (s.table.Coherent rt.toCrypto → (batches.flatten.map NodeInfo.id).Nodup) := by
  have hblank : ∀ w desired,
      Accounted rt key w env { key := key, desired := desired, localStored := true } :=
    fun w desired => ⟨rfl, rfl, List.forall_mem_nil _, List.forall_mem_nil _⟩
  refine ⟨fun w t candidates target => ?_, fun sign s value hmax => ?_⟩
  · exact balanced_repair _ _ rfl (hblank w _) (desiredReplicas_nonneg (Int.natCast_nonneg target))
  · cases hprepare : prepareStoreValue rt sign s.publisher key value env.prepared with
    | error e => exact .inl ⟨.prepare e, by rw [maintainReplicas, hprepare]⟩
    | ok w =>
      obtain ⟨e, hfails, -⟩ | ⟨hdone, hloop⟩ := maintainReplicas_cases hprepare
      · exact .inl ⟨e, hfails⟩
      have hbalanced := balanced_repair (replicationCandidates rt key s.table)
        (s.table, { key := key, desired := s.desired rt key, localStored := true }) rfl (hblank w _)
        (desiredReplicas_nonneg (adaptiveReplicationTarget_nonneg hmax s.failure))
      refine .inr ⟨w, rfl, hdone, ?_, ?_, fun hcoherent => ?_⟩
      · rw [show (maintainReplicas rt sign key env s value).2.1 = _ from congrArg Prod.snd hloop]
        exact hbalanced
      · rw [hbalanced.inOrder]
        exact (sorted_replicationCandidates rt key s.table).sublist (List.take_sublist _ _)
      · rw [hbalanced.inOrder]
        exact (nodup_replicationCandidates hcoherent).sublist ((List.take_sublist _ _).map _)

/-- The peer `1` has nothing stored, the peer `2` cannot be reached, and results arrive in reverse. -/
def halfReachable : Surroundings :=
  { sampleSurroundings (samplePeerWith {}) with
    deliver := fun node =>
      { sampleDelivery (samplePeerWith {}) with
        link := if node.id = (hashedPeer "2").id then .unreachable else .connected }
    arrivals := List.reverse
    arrivals_perm := List.reverse_perm }

set_option maxRecDepth 4000 in
theorem peersOf_tableOf_two : (tableOf [hashedPeer "1", hashedPeer "2"]).peersOf
    (tableOf [hashedPeer "1", hashedPeer "2"]).buckets = [hashedPeer "1", hashedPeer "2"] := by
  decide

/-- The first publication of the sample endpoint, by a server that knows two peers of which it reaches
one. -/
theorem repair_walk_first :
    let report := (maintainReplicas sampleRuntime firstSign sampleKey halfReachable
      (samplePublisher (tableOf [hashedPeer "1", hashedPeer "2"]) sampleIdentity)
      (marshalEndpoint firstRecord)).2.1
    report.attempted = report.storedRemotely + report.failed.length ∧ report.storedRemotely ≤
      report.desired ∧
      hashedPeer "1" ∈ report.successful ∧ hashedPeer "2" ∈ report.failed := by
  have hlisted : ∀ q ∈ [hashedPeer "1", hashedPeer "2"], _ := fun q hq =>
    listed_of_few (t := tableOf [hashedPeer "1", hashedPeer "2"]) (q := q) halfReachable
      sampleKey_not_name (by rw [peersOf_tableOf_two]; decide) (by rwa [peersOf_tableOf_two])
      first_prepared (validateLookupValue_sample first_mem) rfl
  have hone : halfReachable.deliver (hashedPeer "1") = sampleDelivery (samplePeerWith {}) := by
    have hid : (hashedPeer "1").id ≠ (hashedPeer "2").id := by decide
    simp only [halfReachable, if_neg hid, sampleDelivery]
  have hreached : outcome sampleRuntime sampleKey firstText halfReachable (hashedPeer "1") = .ok () := by
    rw [outcome, hone]
    exact first_sent
  have hlost : outcome sampleRuntime sampleKey firstText halfReachable (hashedPeer "2") = .error .dial := by
    have hlink : (halfReachable.deliver (hashedPeer "2")).link = .unreachable := by
      simp only [halfReachable, if_true]
    rw [outcome, sendStore, if_pos hlink]
  have hsuccessful := (hlisted _ List.mem_cons_self).1 hreached
  have hfailed := (hlisted _ (List.mem_cons_of_mem _ List.mem_cons_self)).2
    (by rw [hlost]; exact fun h => (by cases h))
  have hmax : 0 ≤ defaultAdaptiveConfig.replicationMax := by decide
  rcases (repair_walk sampleRuntime sampleKey halfReachable).2 firstSign
    (samplePublisher (tableOf [hashedPeer "1", hashedPeer "2"]) sampleIdentity)
    (marshalEndpoint firstRecord) hmax with ⟨e, hfails⟩ | ⟨w, -, -, hbalanced, -, -⟩
  · rw [hfails] at hsuccessful
    cases hsuccessful
  · exact ⟨hbalanced.attempted, hbalanced.bounded, hsuccessful, hfailed⟩

end Vx6.Dht
