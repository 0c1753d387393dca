import Vx6.Dht.Handle
import Vx6.Dht.Prepare

/-!
# Replicas

`MaintainReplicas` of `dht.go` stores a value locally and sends it to the closest peers, batch after
batch, until enough of them have answered. `sendStore` counts a peer as a replica when a reply with
the version and the type of the request arrives. The peer runs `HandleDHT`, which answers a refused
store request like an accepted one, and ends a refused address update without a reply.

`reported_replicas_hold_iff`: a peer that is reported has taken the value if the request was an address
update, and otherwise exactly when its rates, its clock and what it holds let it take the value. Nothing
in the reply tells an ignored request from another one: `ignored_store_reported`.
-/

set_option autoImplicit false

namespace Vx6.Dht

open Vx6.Go Vx6.Lib Vx6.Record

/-! ## Sending -/

/-- How a connection to a peer ends: the reply arrives, it cannot be dialled, or the reply is lost. -/
inductive Link where
  | connected
  | unreachable
  | silent
  deriving DecidableEq

/-- What `sendStore` meets at a peer: the state of the peer, what its `HandleDHT` meets, and the
time at which the request is made. -/
structure Delivery where
  peer : Responder
  meeting : Meeting
  link : Link := .connected
  sent : Time

/-- The errors of `sendStore`. -/
inductive SendError where
  | dial
  | request (e : RequestError)
  /-- The connection ended before a reply. -/
  | closed
  /-- `DHT response version/type (%d, %q) does not match request (%d, %q)` -/
  | mismatch
  deriving DecidableEq

/-- The check of `sendStore` on the reply. -/
def checkReply (r : DHTRequest) (reply : DHTResponse) : Except SendError Unit :=
  rejectIf (reply.version ≠ r.version || reply.type ≠ r.type) .mismatch

/-- `sendStore`: the peer after the request, and the result. -/
def sendStore (rt : Runtime) (key value : String) (d : Delivery) : Responder × Except SendError Unit :=
  if d.link = .unreachable then (d.peer, .error .dial)
  else
    let r := storeRequest rt key value d.sent
    match r.validate with
    | .error e => (d.peer, .error (.request e))
    | .ok () =>
      let handled := handleDHT rt d.peer d.meeting r
      match handled.2 with
      | .error _ => (handled.1, .error .closed)
      | .ok reply => (handled.1, if d.link = .silent then .error .closed else checkReply r reply)

/-! ## Maintaining the replicas -/

/-- The fields of `AdaptiveConfig` for replicas. -/
structure AdaptiveConfig where
  replicationBase : Int
  replicationMax : Int

/-- The share of failed lookups, against `HighFailureThreshold` and half of it. -/
inductive FailureLevel where
  | low
  | raised
  | high
  deriving DecidableEq

/-- `adaptiveReplicationTarget`. -/
def adaptiveReplicationTarget (cfg : AdaptiveConfig) (failure : FailureLevel) : Int :=
  let target := match failure with
    | .high => cfg.replicationBase + 2
    | .raised => cfg.replicationBase + 1
    | .low => cfg.replicationBase
  let target := if target < 1 then 1 else target
  if cfg.replicationMax < target then cfg.replicationMax else target

/-- The fields of `Server` that `MaintainReplicas` uses. -/
structure Replicator extends Responder where
  publisher : Identity
  adaptive : AdaptiveConfig
  failure : FailureLevel := .low

/-- `K`. -/
def bucketSize : Int := 20

/-- `selectReplicationNodes`. -/
def selectReplicationNodes (nodes : List NodeInfo) (limit : Int) : List NodeInfo := nodes.take limit.toNat

/-- `ReplicationReport`. -/
structure ReplicationReport where
  key : String
  desired : Int := 0
  attempted : Nat := 0
  storedRemotely : Nat := 0
  localStored : Bool := false
  successful : List NodeInfo := []
  failed : List NodeInfo := []

/-- The errors of `MaintainReplicas`. -/
inductive ReplicateError where
  | prepare (e : ValueError)
  | store (e : StoreError)
  deriving DecidableEq

/-- What `MaintainReplicas` meets while it runs: the clock each time it is read, the outcome of a
`PutValue`, each peer, and the order in which the results of a batch arrive. -/
structure Surroundings where
  prepared : Time
  stored : Time
  putOk : Bool := true
  deliver : NodeInfo → Delivery
  noted : NodeInfo → Time
  arrivals : List NodeInfo → List NodeInfo := id
  arrivals_perm : ∀ batch, (arrivals batch).Perm batch := by intro batch; rfl

section Replicate

variable (rt : Runtime) (sign : Bytes → Bytes → Bytes) (key w : String) (env : Surroundings)

/-- The result of one peer. -/
def noteResult (s : Table × ReplicationReport) (node : NodeInfo) : Table × ReplicationReport :=
  let report := { s.2 with attempted := s.2.attempted + 1 }
  match (sendStore rt key w (env.deliver node)).2 with
  | .error _ =>
    (s.1.noteFailureAt node.id (env.noted node), { report with failed := report.failed ++ [node] })
  | .ok () =>
    (s.1.addNode rt.toCrypto node (env.noted node), { report with
      storedRemotely := report.storedRemotely + 1
      successful := report.successful ++ [node] })

/-- The loop of `MaintainReplicas` over the candidates that are left. -/
def repair (candidates : List NodeInfo) (s : Table × ReplicationReport) : Table × ReplicationReport :=
  if candidates ≠ [] ∧ s.2.storedRemotely < s.2.desired then
    let remaining := (s.2.desired - s.2.storedRemotely).toNat
    repair (candidates.drop remaining) ((env.arrivals (candidates.take remaining)).foldl
      (noteResult rt key w env) s)
  else s
termination_by candidates.length
decreasing_by
  rename_i hgo
  have hpos := List.length_pos_iff.2 hgo.1
  rw [List.length_drop]
  omega

/-- The peers that `MaintainReplicas` may send to. -/
def replicationCandidates (t : Table) : List NodeInfo :=
  selectReplicationNodes (t.closestForTarget rt key bucketSize) bucketSize

/-- The number of replicas that `MaintainReplicas` asks for. -/
def desiredReplicas (candidates : List NodeInfo) (target : Int) : Int :=
  if candidates.length < target then candidates.length else target

/-- `MaintainReplicas`: the server after the call, the report and the error. -/
def maintainReplicas (s : Replicator) (value : String) :
    Replicator × ReplicationReport × Option ReplicateError :=
  match prepareStoreValue rt sign s.publisher key value env.prepared with
  | .error e => (s, { key := key }, some (.prepare e))
  | .ok w =>
    let stored := storeValidated rt s.store key w env.stored env.putOk
    let s := { s with store := stored.1 }
    match stored.2.err with
    | some e => (s, { key := key }, some (.store e))
    | none =>
      let candidates := replicationCandidates rt key s.table
      let desired := desiredReplicas candidates (adaptiveReplicationTarget s.adaptive s.failure)
      let done := repair rt key w env candidates
        (s.table, { key := key, desired := desired, localStored := true })
      ({ s with table := done.1 }, done.2, none)

end Replicate

/-! ## What a request does at the peer -/

section Peer

variable {rt : Runtime} {key w : String} {d : Delivery} {q : Responder} {m : Meeting} {r : DHTRequest}

/-- The key is the one of a hidden descriptor and the peer has no more of its rate for it. -/
def HiddenRateSpent (q : Responder) (m : Meeting) (r : DHTRequest) : Prop :=
  hasPrefix r.target "hidden-desc/v1/" = true ∧
    (allowHiddenDescriptorRequest q.hiddenRates m.remoteAddr r.action m.arrived).2 = false

/-- A valid request is answered in one of two ways: without any effect on the store, because the rate of
hidden descriptors is spent, or by `answer`, which sees the same store. -/
theorem handleDHT_cases (rt : Runtime) (q : Responder) (m : Meeting) (hvalid : r.validate = .ok ()) :
    (HiddenRateSpent q m r ∧ (handleDHT rt q m r).1.store = q.store ∧
      (handleDHT rt q m r).2 = .ok { type := r.type }) ∨
    (¬ HiddenRateSpent q m r ∧ ∃ q' : Responder, q'.store = q.store ∧
      handleDHT rt q m r = answer rt q' m r) := by
  by_cases hinitial : hasPrefix r.target "hidden-desc/v1/" = true
  · rcases hallow : allowHiddenDescriptorRequest q.hiddenRates m.remoteAddr r.action
      m.arrived with ⟨rates, ok⟩
    have hhandle : handleDHT rt q m r =
        if ok then answer rt { q with hiddenRates := rates } m r
        else ({ q with hiddenRates := rates }, .ok { type := r.type }) := by
      simp only [handleDHT, hvalid, if_pos hinitial, hallow]
      cases ok <;> rfl
    cases ok with
    | false =>
      rw [if_neg Bool.false_ne_true] at hhandle
      rw [hhandle]
      exact .inl ⟨⟨hinitial, by rw [hallow]⟩, rfl, rfl⟩
    | true =>
      rw [if_pos rfl] at hhandle
      refine .inr ⟨?_, { q with hiddenRates := rates }, rfl, hhandle⟩
      rintro ⟨-, hspent⟩
      rw [hallow] at hspent
      cases hspent
  · refine .inr ⟨fun h => hinitial h.1, q, rfl, ?_⟩
    simp only [handleDHT, hvalid, if_neg hinitial]

/-- A store request is answered whether or not the value was stored. -/
theorem answer_store (haction : r.action = .store) :
    answer rt q m r =
      ({ q with store := (admitAndStore rt q.store m r.target r.data).1 }, .ok { type := r.type }) := by
  simp only [answer, haction]

/-- An address update is answered only after the value was stored. -/
theorem answer_update {reply : DHTResponse} (haction : r.action = .updateIP)
    (hreply : (answer rt q m r).2 = .ok reply) :
    (answer rt q m r).1.store = (admitAndStore rt q.store m r.target r.data).1 ∧
      (admitAndStore rt q.store m r.target r.data).2 = .ok () := by
  simp only [answer, haction] at hreply ⊢
  cases hcheck : checkUpdate rt m r with
  | error e =>
    rw [hcheck] at hreply
    cases hreply
  | ok u =>
    simp only [hcheck] at hreply ⊢
    cases hadmitted : (admitAndStore rt q.store m r.target r.data).2 with
    | error e =>
      rw [hadmitted] at hreply
      cases hreply
    | ok u => exact ⟨trivial, rfl⟩

/-- Address updates are not counted against the rate of hidden descriptors. -/
theorem not_hiddenRateSpent_update (haction : r.action = .updateIP) : ¬ HiddenRateSpent q m r := by
  rintro ⟨-, hspent⟩
  simp only [allowHiddenDescriptorRequest, haction, hiddenRate] at hspent
  cases hspent

theorem storeRequest_fields (rt : Runtime) (key w : String) (now : Time) :
    (storeRequest rt key w now).version = dhtWireVersion ∧ (storeRequest rt key w now).target = key ∧
      (storeRequest rt key w now).data = w ∧
      ((storeRequest rt key w now).action = .updateIP ∨ (storeRequest rt key w now).action = .store) := by
  rw [storeRequest]
  split_ifs
  · exact ⟨rfl, rfl, rfl, .inl rfl⟩
  · exact ⟨rfl, rfl, rfl, .inr rfl⟩

/-- A reply of `HandleDHT` passes the check of `sendStore`. -/
theorem checkReply_ok (hversion : r.version = dhtWireVersion) :
    checkReply r { type := r.type } = .ok () := by
  simp [checkReply, hversion, rejectIf]

/-- A request that is sent and accepted by `Validate` gets as far as `HandleDHT`. -/
theorem sendStore_of_valid (hlink : d.link = .connected)
    (hvalid : (storeRequest rt key w d.sent).validate = .ok ()) :
    sendStore rt key w d =
      let handled := handleDHT rt d.peer d.meeting (storeRequest rt key w d.sent)
      (handled.1, match handled.2 with
        | .error _ => .error .closed
        | .ok reply => checkReply (storeRequest rt key w d.sent) reply) := by
  simp only [sendStore, hlink, hvalid]
  rcases (handleDHT rt d.peer d.meeting (storeRequest rt key w d.sent)).2 with e | reply <;> rfl

/-- A request that succeeds was valid and `HandleDHT` answered it. -/
theorem handled_of_sendStore (h : (sendStore rt key w d).2 = .ok ()) :
    (storeRequest rt key w d.sent).validate = .ok () ∧
      (sendStore rt key w d).1 = (handleDHT rt d.peer d.meeting (storeRequest rt key w d.sent)).1 ∧
      ∃ reply, (handleDHT rt d.peer d.meeting (storeRequest rt key w d.sent)).2 = .ok reply := by
  have hlink : d.link ≠ .unreachable := by
    intro hlink
    rw [sendStore, if_pos hlink] at h
    cases h
  cases hvalid : (storeRequest rt key w d.sent).validate with
  | error e =>
    simp only [sendStore, if_neg hlink, hvalid] at h
    cases h
  | ok u =>
    simp only [sendStore, if_neg hlink, hvalid] at h ⊢
    cases hreply : (handleDHT rt d.peer d.meeting (storeRequest rt key w d.sent)).2 with
    | error e =>
      rw [hreply] at h
      cases h
    | ok reply => exact ⟨trivial, rfl, reply, rfl⟩

/-- Admission changes nothing but the rates. -/
theorem admitStoreValue_server (rt : Runtime) (s : Server) (remoteAddr key value : String) (now : Time) :
    ∃ rates, (admitStoreValue rt s remoteAddr key value now).1 = { s with storeRates := rates } := by
  have hallow : ∀ trusted, ∃ rates, (allowStoreRequest s remoteAddr key trusted now).1 =
      { s with storeRates := rates } := by
    intro trusted
    simp only [allowStoreRequest]
    split
    · exact ⟨_, rfl⟩
    · split <;> exact ⟨_, rfl⟩
  obtain ⟨rates, hrates⟩ := hallow (isTrustedLookupKey key)
  refine ⟨rates, ?_⟩
  rw [← hrates]
  simp only [admitStoreValue]
  split
  · rename_i hresult
    rw [hresult]
  · rename_i hresult
    rw [hresult]
    split_ifs <;> rfl

theorem admitStoreValue_values (rt : Runtime) (s : Server) (remoteAddr key value : String) (now : Time) :
    (admitStoreValue rt s remoteAddr key value now).1.values = s.values := by
  obtain ⟨rates, hserver⟩ := admitStoreValue_server rt s remoteAddr key value now
  rw [hserver]

/-- What the peer holds after storing without an error: the value that was sent, or one of the same family
that has the same fingerprint or is newer. -/
def Replicated (rt : Runtime) (s : Server) (key w : String) (now : Time) : Prop :=
  s.values.lookup key = some w ∨
    ∃ v wv, Holds rt s key now v ∧ validateLookupValue rt key w now = .ok wv ∧ v.family = wv.family ∧
      (v.fingerprint = wv.fingerprint ∨ Newer v wv)

theorem Holds.congr {s s' : Server} {now : Time} {v : ValidatedValue} (h : Holds rt s key now v)
    (hvalues : s'.values = s.values) : Holds rt s' key now v := by
  obtain ⟨raw, hlookup, hne, hval⟩ := h
  exact ⟨raw, by rw [hvalues]; exact hlookup, hne, hval⟩

/-- Storing without an error makes a replica. -/
theorem StoreStep.replicated {s s' : Server} {now : Time} {putOk : Bool}
    (h : StoreStep rt s key w now putOk s' none) : Replicated rt s' key w now := by
  generalize herr : (none : Option StoreError) = err at h
  cases h with
  | invalid e he => cases herr
  | conflict v wv hv hw _ _ _ => cases herr
  | unpersisted wv previous hw _ _ => cases herr
  | replaced wv previous hw _ =>
    refine .inl ?_
    rw [recordVersionLocked_values, writeValue_values, if_pos rfl]
  | kept v wv hv hw hkeeps =>
    cases hkeeps with
    | repeated hlookup _ =>
      refine .inl ?_
      rw [recordVersionLocked_values]
      exact hlookup
    | older hwv hvv hfamily holder =>
      refine .inr ⟨v, wv, hv.congr recordVersionLocked_values, hw, hfamily, ?_⟩
      by_cases hfp : v.fingerprint = wv.fingerprint
      · exact .inl hfp
      · rcases holder with hsame | hnot
        · exact absurd hsame.symm hfp
        · exact .inr ((newer_total hfp).resolve_right hnot)

/-- Admission and storing without an error make a replica. -/
theorem replicated_of_admitAndStore {s : Server} (h : (admitAndStore rt s m key w).2 = .ok ()) :
    Replicated rt (admitAndStore rt s m key w).1 key w m.stored := by
  unfold admitAndStore at h ⊢
  split at h
  · cases h
  · rename_i s₁ hadmitted
    have hstep : StoreStep rt (m.interim s₁) key w m.stored m.putOk _ _ := storeValidated_step m.putOk
    simp only at h ⊢
    cases herr : (storeValidated rt (m.interim s₁) key w m.stored m.putOk).2.err with
    | some e =>
      rw [herr] at h
      cases h
    | none =>
      rw [herr] at hstep
      exact hstep.replicated

/-! ### What a peer takes -/

/-- The value passes the checks of `admitStoreValue` on a peer: the rates of the sender are not spent, and
under a trusted key the value validates, comes from its publisher and is newer than a verified one of its
family. -/
structure PeerAdmits (rt : Runtime) (s : Server) (m : Meeting) (key w : String) : Prop where
  rate : (allowStoreRequest s m.remoteAddr key (isTrustedLookupKey key) m.admitted).2 = .ok ()
  trusted : isTrustedLookupKey key = true → ∃ v, validateLookupValue rt key w m.admitted = .ok v ∧
    (v.verified = true → v.enveloped = true → v.authoritativePublisher = true) ∧
    ∀ c, Holds rt s key m.admitted c → c.verified = true → v.verified = true → c.family = v.family →
      Newer v c

/-- The value can be stored on a peer: it validates, a verified value of another family is not in its
place, and it can be persisted unless the peer keeps the value it has. -/
def PeerStores (rt : Runtime) (s : Server) (m : Meeting) (key w : String) : Prop :=
  ∃ v, validateLookupValue rt key w m.stored = .ok v ∧
    (∀ c, Holds rt s key m.stored c → c.verified = true → v.verified = true → c.family = v.family) ∧
    (persists s key v = true → m.putOk = false → ∃ c, Holds rt s key m.stored c ∧ c.verified = true ∧
      (v.fingerprint = c.fingerprint ∨ ¬ Newer v c))

/-- The store as `storeValidated` finds it, after what other requests did since admission. -/
def Meeting.found (rt : Runtime) (s : Server) (m : Meeting) (key w : String) : Server :=
  m.interim (admitStoreValue rt s m.remoteAddr key w m.admitted).1

theorem rejectStaleStoreValue_eq_ok {s : Server} {now : Time} {v : ValidatedValue}
    (hv : validateLookupValue rt key w now = .ok v) : rejectStaleStoreValue rt s key w now = .ok () ↔
      ∀ c, Holds rt s key now c → c.verified = true → v.verified = true → c.family = v.family →
        Newer v c := by
  simp only [rejectStaleStoreValue, hv]
  rcases @current_eq_empty_or_holds rt s key now with ⟨hempty, hnone⟩ | ⟨hsome, hne⟩
  · rw [if_pos hempty]
    exact iff_of_true rfl fun c hc => absurd hc (hnone c)
  · rw [if_neg hne]
    cases hval : validateLookupValue rt key ((s.values.lookup key).getD "") now with
    | error e =>
      refine iff_of_true rfl ?_
      rintro c ⟨raw, hraw, -, hc⟩
      rw [hraw, Option.getD_some, hc] at hval
      cases hval
    | ok current =>
      have hholds : Holds rt s key now current := ⟨_, hsome, hne, hval⟩
      have honly : (∀ c, Holds rt s key now c → c.verified = true → v.verified = true →
          c.family = v.family → Newer v c) ↔ (current.verified = true → v.verified = true →
            current.family = v.family → Newer v current) :=
        ⟨fun h => h current hholds, fun h c hc => hholds.unique hc ▸ h⟩
      rw [honly]
      simp only [Newer]
      split_ifs with hverified hfamily hnewer
      · simp only [Bool.or_eq_true, Bool.not_eq_true'] at hverified
        refine iff_of_true rfl fun hc hv => ?_
        exfalso
        rcases hverified with h | h
        · rw [h] at hc
          cases hc
        · rw [h] at hv
          cases hv
      · exact iff_of_true rfl fun _ _ h => absurd h hfamily
      · simp only [Bool.or_eq_true, Bool.not_eq_true', not_or, Bool.not_eq_false] at hverified
        refine iff_of_false (by simp) fun h => ?_
        rw [h hverified.1 hverified.2 (not_not.1 hfamily)] at hnewer
        cases hnewer
      · exact iff_of_true rfl fun _ _ _ => by simpa using hnewer

theorem admitStoreValue_eq_ok {s : Server} :
    (admitStoreValue rt s m.remoteAddr key w m.admitted).2 = .ok () ↔ PeerAdmits rt s m key w := by
  have hvalues : (allowStoreRequest s m.remoteAddr key (isTrustedLookupKey key) m.admitted).1.values =
      s.values := allowStoreRequest_values
  simp only [admitStoreValue]
  split
  · rename_i s' e hrate
    exact iff_of_false (by simp) fun h => by simpa [hrate] using h.rate
  · rename_i s' hrate
    rw [hrate] at hvalues
    have hsame : ∀ c, Holds rt s' key m.admitted c ↔ Holds rt s key m.admitted c := fun c =>
      ⟨fun h => h.congr hvalues.symm, fun h => h.congr hvalues⟩
    have hallowed : (allowStoreRequest s m.remoteAddr key (isTrustedLookupKey key) m.admitted).2 = .ok () := by
      rw [hrate]
    split_ifs with htrusted
    · cases hv : validateLookupValue rt key w m.admitted with
      | error e =>
        refine iff_of_false (by simp [admitTrusted, hv]) fun h => ?_
        obtain ⟨v, hv', -⟩ := h.trusted htrusted
        rw [hv] at hv'
        cases hv'
      | ok v =>
        simp only [admitTrusted, hv]
        split_ifs with hforeign
        · refine iff_of_false (by simp) fun h => ?_
          obtain ⟨v', hv', hpublisher, -⟩ := h.trusted htrusted
          rw [hv] at hv'
          cases hv'
          simp_all
        · rw [rejectStaleStoreValue_eq_ok hv]
          simp only [hsame]
          refine ⟨fun h => ⟨hallowed, fun _ => ⟨v, hv, ?_, h⟩⟩, fun h => ?_⟩
          · simpa using hforeign
          · obtain ⟨v', hv', -, hnewer⟩ := h.trusted htrusted
            rw [hv] at hv'
            cases hv'
            exact hnewer
    · exact iff_of_true rfl ⟨hallowed, fun h => absurd h htrusted⟩

theorem storeValidated_err_eq_none {s : Server} :
    (storeValidated rt s key w m.stored m.putOk).2.err = none ↔ PeerStores rt s m key w := by
  cases hw : validateLookupValue rt key w m.stored with
  | error e =>
    refine iff_of_false (by simp [storeValidated, chooseStoredValue, hw]) ?_
    rintro ⟨v, hv, -⟩
    rw [hw] at hv
    cases hv
  | ok v =>
    have hsame : PeerStores rt s m key w ↔
        (∀ c, Holds rt s key m.stored c → c.verified = true → v.verified = true → c.family = v.family) ∧
        (persists s key v = true → m.putOk = false → ∃ c, Holds rt s key m.stored c ∧
          c.verified = true ∧ (v.fingerprint = c.fingerprint ∨ ¬ Newer v c)) := by
      refine ⟨?_, fun h => ⟨v, hw, h⟩⟩
      rintro ⟨v', hv', h⟩
      rw [hw] at hv'
      cases hv'
      exact h
    have hpersists : persists s key v = true → v.verified = true := fun h => by
      simp only [persists, Bool.and_eq_true] at h
      exact h.1.2
    rw [hsame]
    rcases chooseStoredValue_cases (s := s) hw with
      ⟨previous, hrep, hc⟩ | ⟨c, hholds, hcv, hvv, hfamily, hc⟩ | ⟨c, hholds, hkeeps, hc⟩
    · -- the value replaces what is there, if it can be persisted
      have hfamily : ∀ c, Holds rt s key m.stored c → c.verified = true → v.verified = true →
          c.family = v.family ∧ v.fingerprint ≠ c.fingerprint ∧ Newer v c := by
        intro c hholds hcv hvv
        cases hrep with
        | fresh hnone => exact absurd hholds (hnone c)
        | unverified _ hprevious hnot =>
          rw [hprevious.unique hholds] at hnot
          simp_all
        | newer _ hprevious _ _ hsame hfp hnewer =>
          rw [hprevious.unique hholds] at hsame hfp hnewer
          exact ⟨hsame, hfp, hnewer⟩
      simp only [storeValidated, hc, if_true]
      split_ifs with hput
      · rw [Bool.and_eq_true, Bool.not_eq_true'] at hput
        refine iff_of_false (by simp) ?_
        rintro ⟨-, hkept⟩
        obtain ⟨c, hholds, hcv, hold⟩ := hkept hput.1 hput.2
        obtain ⟨-, hfp, hnewer⟩ := hfamily c hholds hcv (hpersists hput.1)
        exact hold.elim hfp fun h => h hnewer
      · refine iff_of_true rfl ⟨fun c hc hcv hvv => (hfamily c hc hcv hvv).1, fun hp hno => ?_⟩
        simp [hp, hno] at hput
    · simp only [storeValidated, hc]
      exact iff_of_false (by simp) fun h => hfamily (h.1 c hholds hcv hvv)
    · simp only [storeValidated, hc]
      refine iff_of_true rfl ⟨fun c' hc' hcv hvv => ?_, fun hp _ => ?_⟩
      · rw [← hholds.unique hc']
        cases hkeeps with
        | repeated _ hnot => rw [hvv] at hnot; cases hnot
        | older _ _ hfamily _ => exact hfamily
      · cases hkeeps with
        | repeated _ hnot => rw [hpersists hp] at hnot; cases hnot
        | older _ hcv _ hold => exact ⟨c, hholds, hcv, hold⟩

/-- Admission and storing succeed exactly for what can be admitted and stored. -/
theorem admitAndStore_eq_ok {s : Server} :
    (admitAndStore rt s m key w).2 = .ok () ↔
      PeerAdmits rt s m key w ∧ PeerStores rt (m.found rt s key w) m key w := by
  rw [← admitStoreValue_eq_ok, ← storeValidated_err_eq_none]
  simp only [admitAndStore, Meeting.found]
  rcases admitStoreValue rt s m.remoteAddr key w m.admitted with ⟨s', e | u⟩
  · simp
  · simp only [true_and]
    split <;> simp_all

end Peer

/-! ## The accounts of the publisher -/

section Accounts

variable {rt : Runtime} {key w : String} {env : Surroundings}

/-- The result of the request to a peer. -/
def outcome (rt : Runtime) (key w : String) (env : Surroundings) (node : NodeInfo) :
    Except SendError Unit :=
  (sendStore rt key w (env.deliver node)).2

/-- The report counts what it lists, and lists each peer by the result of its request. -/
structure Accounted (rt : Runtime) (key w : String) (env : Surroundings) (report : ReplicationReport) :
    Prop where
  stored : report.storedRemotely = report.successful.length
  attempted : report.attempted = report.successful.length + report.failed.length
  successful : ∀ node ∈ report.successful, outcome rt key w env node = .ok ()
  failed : ∀ node ∈ report.failed, outcome rt key w env node ≠ .ok ()

/-- The peers of which the report has a result. -/
def ReplicationReport.reached (report : ReplicationReport) :
    List NodeInfo := report.successful ++ report.failed

/-- What one result does. -/
theorem noteResult_cases (rt : Runtime) (key w : String) (env : Surroundings)
    (s : Table × ReplicationReport)
    (node : NodeInfo) :
    (outcome rt key w env node = .ok () ∧ noteResult rt key w env s node =
      (s.1.addNode rt.toCrypto node (env.noted node), { s.2 with
        attempted := s.2.attempted + 1
        storedRemotely := s.2.storedRemotely + 1
        successful := s.2.successful ++ [node] })) ∨
    (outcome rt key w env node ≠ .ok () ∧ noteResult rt key w env s node =
      (s.1.noteFailureAt node.id (env.noted node), { s.2 with
        attempted := s.2.attempted + 1
        failed := s.2.failed ++ [node] })) := by
  unfold noteResult outcome
  cases hout : (sendStore rt key w (env.deliver node)).2 with
  | ok u => exact .inl ⟨rfl, rfl⟩
  | error e => exact .inr ⟨nofun, rfl⟩

theorem Accounted.noteResult {s : Table × ReplicationReport} (h : Accounted rt key w env s.2)
    (node : NodeInfo) : Accounted rt key w env (noteResult rt key w env s node).2 := by
  obtain ⟨hout, hnote⟩ | ⟨hout, hnote⟩ := noteResult_cases rt key w env s node
  all_goals rw [hnote]
  · refine ⟨?_, ?_, ?_, h.failed⟩
    · simp [h.stored]
    · simp only [h.attempted, List.length_append, List.length_singleton]
      omega
    · simpa [or_imp, forall_and, hout] using h.successful
  · refine ⟨h.stored, ?_, h.successful, ?_⟩
    · simp only [h.attempted, List.length_append, List.length_singleton]
      omega
    · simpa [or_imp, forall_and, hout] using h.failed

section Loop

variable {P : Table × ReplicationReport → Prop} {nodes : List NodeInfo}

theorem foldl_noteResult_invariant (hstep : ∀ node ∈ nodes, ∀ s,
    P s → P (noteResult rt key w env s node)) :
    ∀ s, P s → P (nodes.foldl (noteResult rt key w env) s) := by
  induction nodes with
  | nil => exact fun s hs => hs
  | cons node nodes ih =>
    intro s hs
    exact ih (fun node' hmem => hstep node' (List.mem_cons_of_mem _ hmem)) _
      (hstep node List.mem_cons_self s hs)

/-- What the result of each candidate keeps holds at the end of the loop. -/
theorem repair_invariant (candidates : List NodeInfo) (s : Table × ReplicationReport)
    (hstep : ∀ node ∈ candidates, ∀ s, P s → P (noteResult rt key w env s node)) (h : P s) :
    P (repair rt key w env candidates s) := by
  -- one batch after another, along the recursion of the loop
  induction candidates, s using repair.induct rt key w env with
  | case1 candidates s hgo remaining ih =>
    rw [repair, if_pos hgo]
    refine ih (fun node hmem => hstep node (List.mem_of_mem_drop hmem)) ?_
    refine foldl_noteResult_invariant (fun node hmem => hstep node ?_) s h
    exact List.mem_of_mem_take ((env.arrivals_perm _).mem_iff.1 hmem)
  | case2 candidates s hstop =>
    rw [repair, if_neg hstop]
    exact h

end Loop

/-- The report has a result of the peer. -/
def Reached (node : NodeInfo) (report : ReplicationReport) : Prop :=
  node ∈ report.successful ∨ node ∈ report.failed

theorem Reached.noteResult {node : NodeInfo} {s : Table × ReplicationReport} (h : Reached node s.2)
    (node' : NodeInfo) : Reached node (noteResult rt key w env s node').2 := by
  obtain ⟨-, hnote⟩ | ⟨-, hnote⟩ := noteResult_cases rt key w env s node'
  all_goals rw [hnote]
  · exact h.imp_left (List.mem_append_left _)
  · exact h.imp_right (List.mem_append_left _)

theorem reached_noteResult (s : Table × ReplicationReport) (node : NodeInfo) :
    Reached node (noteResult rt key w env s node).2 := by
  obtain ⟨-, hnote⟩ | ⟨-, hnote⟩ := noteResult_cases rt key w env s node
  all_goals rw [hnote]
  · exact .inl (List.mem_append_right _ List.mem_cons_self)
  · exact .inr (List.mem_append_right _ List.mem_cons_self)

theorem reached_foldl {node : NodeInfo} {nodes : List NodeInfo} (hmem : node ∈ nodes)
    (s : Table × ReplicationReport) : Reached node (nodes.foldl (noteResult rt key w env) s).2 := by
  obtain ⟨before, after, rfl⟩ := List.append_of_mem hmem
  rw [List.foldl_append, List.foldl_cons]
  exact foldl_noteResult_invariant (P := fun s => Reached node s.2)
    (fun node' _ s h => h.noteResult node') _ (reached_noteResult _ node)

/-- The peers of the first batch all get a result. -/
theorem reached_repair {candidates : List NodeInfo} {s : Table × ReplicationReport} {node : NodeInfo}
    (hmem : node ∈ candidates.take (s.2.desired - s.2.storedRemotely).toNat) :
    Reached node (repair rt key w env candidates s).2 := by
  have hgo : candidates ≠ [] ∧ s.2.storedRemotely < s.2.desired := by
    refine ⟨List.ne_nil_of_mem (List.mem_of_mem_take hmem), ?_⟩
    by_contra hstop
    rw [Int.toNat_eq_zero.2 (by omega), List.take_zero] at hmem
    cases hmem
  rw [repair, if_pos hgo]
  exact repair_invariant (P := fun s => Reached node s.2) _ _ (fun node' _ s h => h.noteResult node')
    (reached_foldl ((env.arrivals_perm _).mem_iff.2 hmem) s)

section Maintain

variable {sign : Bytes → Bytes → Bytes} {s : Replicator} {value : String}

/-- The number of replicas that the server asks for. -/
def Replicator.desired (rt : Runtime) (key : String) (s : Replicator) : Int :=
  desiredReplicas (replicationCandidates rt key s.table) (adaptiveReplicationTarget s.adaptive s.failure)

/-- `MaintainReplicas` ends before the first request, with an empty report, or runs the loop. -/
theorem maintainReplicas_cases
    (hprepare : prepareStoreValue rt sign s.publisher key value env.prepared = .ok w) :
    (∃ e, (maintainReplicas rt sign key env s value).2 = ({ key := key }, some e) ∧
      (maintainReplicas rt sign key env s value).1.table = s.table) ∨
    (maintainReplicas rt sign key env s value).2.2 = none ∧
      ((maintainReplicas rt sign key env s value).1.table,
        (maintainReplicas rt sign key env s value).2.1) =
        repair rt key w env (replicationCandidates rt key s.table)
          (s.table, { key := key, desired := s.desired rt key, localStored := true }) := by
  simp only [maintainReplicas, hprepare]
  cases (storeValidated rt s.store key w env.stored env.putOk).2.err with
  | some e => exact .inl ⟨_, rfl, rfl⟩
  | none => exact .inr ⟨rfl, rfl⟩

/-- What holds at the start and is kept by the result of each candidate holds after `MaintainReplicas`. -/
theorem maintainReplicas_invariant {P : Table × ReplicationReport → Prop}
    (hprepare : prepareStoreValue rt sign s.publisher key value env.prepared = .ok w)
    (hstart : ∀ report : ReplicationReport, report.storedRemotely = 0 → report.attempted = 0 →
      report.successful = [] → report.failed = [] → P (s.table, report))
    (hstep : ∀ node ∈ replicationCandidates rt key s.table, ∀ s,
      P s → P (noteResult rt key w env s node)) :
    P ((maintainReplicas rt sign key env s value).1.table,
      (maintainReplicas rt sign key env s value).2.1) := by
  obtain ⟨e, hreport, htable⟩ | ⟨-, hloop⟩ := maintainReplicas_cases hprepare
  · rw [htable, hreport]
    exact hstart _ rfl rfl rfl rfl
  · rw [hloop]
    exact repair_invariant _ _ hstep (hstart _ rfl rfl rfl rfl)

theorem accounted_maintainReplicas
    (hprepare : prepareStoreValue rt sign s.publisher key value env.prepared = .ok w) :
    Accounted rt key w env (maintainReplicas rt sign key env s value).2.1 := by
  refine maintainReplicas_invariant (P := fun s => Accounted rt key w env s.2) hprepare ?_
    fun node _ s h => h.noteResult node
  intro report hstored hattempted hsuccessful hfailed
  refine ⟨?_, ?_, ?_, ?_⟩
  all_goals simp [*]

/-- A peer of the first batch is listed by the result of its request. -/
theorem listed_of_first {q : NodeInfo}
    (hprepare : prepareStoreValue rt sign s.publisher key value env.prepared = .ok w)
    (hdone : (maintainReplicas rt sign key env s value).2.2 = none)
    (hfirst : q ∈ (replicationCandidates rt key s.table).take (s.desired rt key).toNat) :
    (outcome rt key w env q = .ok () → q ∈ (maintainReplicas rt sign key env s value).2.1.successful) ∧
    (outcome rt key w env q ≠ .ok () → q ∈ (maintainReplicas rt sign key env s value).2.1.failed) := by
  have haccounts := accounted_maintainReplicas hprepare
  have hreached : Reached q (maintainReplicas rt sign key env s value).2.1 := by
    obtain ⟨e, hreport, -⟩ | ⟨-, hloop⟩ := maintainReplicas_cases hprepare
    · rw [hreport] at hdone
      cases hdone
    · rw [show (maintainReplicas rt sign key env s value).2.1 = _ from congrArg Prod.snd hloop]
      refine reached_repair ?_
      simpa using hfirst
  refine ⟨fun hok => hreached.resolve_right fun hfailed => ?_,
    fun hout => hreached.resolve_left fun hlisted => ?_⟩
  · exact haccounts.failed q hfailed hok
  · exact hout (haccounts.successful q hlisted)

end Maintain

end Accounts

/-! ## The reported replicas -/

section Reported

variable {rt : Runtime} {key w : String} {d : Delivery}

/-- The peer ignores or rejects the write: the rate of hidden descriptors is spent, or admission or
storing ends with an error. -/
def Refused (rt : Runtime) (key w : String) (d : Delivery) : Prop :=
  HiddenRateSpent d.peer d.meeting (storeRequest rt key w d.sent) ∨
    (admitAndStore rt d.peer.store d.meeting key w).2 ≠ .ok ()

/-- The value is an address update, or the peer has the rate for it and can admit and store it. -/
def Takes (rt : Runtime) (key w : String) (d : Delivery) : Prop :=
  (storeRequest rt key w d.sent).action = .updateIP ∨
    ¬ HiddenRateSpent d.peer d.meeting (storeRequest rt key w d.sent) ∧
      PeerAdmits rt d.peer.store d.meeting key w ∧
      PeerStores rt (d.meeting.found rt d.peer.store key w) d.meeting key w

/-- A request that was answered and not refused made a replica. An address update that is refused is not
answered. -/
theorem sendStore_cases (h : (sendStore rt key w d).2 = .ok ()) :
    ((storeRequest rt key w d.sent).action = .updateIP → ¬ Refused rt key w d) ∧
    (¬ Refused rt key w d →
      Replicated rt (sendStore rt key w d).1.store key w d.meeting.stored) := by
  obtain ⟨hvalid, hpeer, reply, hreply⟩ := handled_of_sendStore h
  obtain ⟨-, htarget, hdata, haction⟩ := storeRequest_fields rt key w d.sent
  rw [hpeer]
  rcases handleDHT_cases rt d.peer d.meeting hvalid with ⟨hspent, -, -⟩ | ⟨hlive, q', hstore, hanswer⟩
  · exact ⟨fun hupdate => absurd hspent (not_hiddenRateSpent_update hupdate),
      fun hnot => absurd (.inl hspent) hnot⟩
  · rw [hanswer] at hreply ⊢
    have hstored : (answer rt q' d.meeting (storeRequest rt key w d.sent)).1.store =
        (admitAndStore rt d.peer.store d.meeting key w).1 := by
      rcases haction with haction | haction
      · rw [(answer_update haction hreply).1, htarget, hdata, hstore]
      · rw [answer_store haction, htarget, hdata, hstore]
    refine ⟨fun hupdate => ?_, fun hnot => ?_⟩
    · have hok := (answer_update hupdate hreply).2
      rw [htarget, hdata, hstore] at hok
      exact fun hrefused => hrefused.elim hlive fun hnot => hnot hok
    · rw [hstored]
      exact replicated_of_admitAndStore (not_not.1 fun hbad => hnot (.inr hbad))

/-- An answered request is not refused exactly when the peer takes the value. -/
theorem not_refused_iff (h : (sendStore rt key w d).2 = .ok ()) :
    ¬ Refused rt key w d ↔ Takes rt key w d := by
  rw [Refused, not_or, not_not, admitAndStore_eq_ok, Takes]
  refine ⟨.inr, fun htakes => htakes.elim (fun hupdate => ?_) id⟩
  have hnot := (sendStore_cases h).1 hupdate
  rw [Refused, not_or, not_not, admitAndStore_eq_ok] at hnot
  exact hnot

end Reported

/-- `StoredRemotely` counts the peers that the report calls successful. Such a peer holds the value that
was published, or one that is newer, right after the request, and has not refused it, exactly when it
takes the value. -/
theorem reported_replicas_hold_iff {rt : Runtime} {sign : Bytes → Bytes → Bytes} {key value w : String}
    {env : Surroundings} {s : Replicator}
    (hprepare : prepareStoreValue rt sign s.publisher key value env.prepared = .ok w) :
    (maintainReplicas rt sign key env s value).2.1.storedRemotely =
      (maintainReplicas rt sign key env s value).2.1.successful.length ∧
    ∀ q ∈ (maintainReplicas rt sign key env s value).2.1.successful,
      (Replicated rt (sendStore rt key w (env.deliver q)).1.store key w (env.deliver q).meeting.stored ∧
        ¬ Refused rt key w (env.deliver q)) ↔ Takes rt key w (env.deliver q) := by
  have haccounts := accounted_maintainReplicas hprepare
  refine ⟨haccounts.stored, fun q hq => ?_⟩
  have hok := haccounts.successful q hq
  rw [← not_refused_iff hok]
  exact ⟨fun h => h.2, fun hnot => ⟨(sendStore_cases hok).2 hnot, hnot⟩⟩

/-! ## Samples -/

section Samples

/-- A meeting with the sample publisher. -/
def sampleMeeting : Meeting where
  remoteAddr := "[2001:db8::2]:4242"
  arrived := sampleNow
  referred := sampleNow
  validated := sampleNow
  verified := sampleNow
  admitted := sampleNow
  stored := sampleNow

/-- A peer in the given state. -/
def sampleDelivery (peer : Responder) :
    Delivery := { peer := peer, meeting := sampleMeeting, sent := sampleNow }

/-- All peers are in the given state. -/
def sampleSurroundings (peer : Responder) : Surroundings where
  prepared := sampleNow
  stored := sampleNow
  deliver _ := sampleDelivery peer
  noted _ := sampleNow
  arrivals_perm := List.Perm.refl

/-- A server with nothing stored. -/
def samplePublisher (table : Table) (id : Identity) : Replicator where
  table := table
  publisher := id
  adaptive := ⟨5, 8⟩

/-- A peer that holds the given values. -/
def samplePeerWith (store : Server) : Responder := { store := store, table := tableOf [] }

/-- The identity of the sample records. -/
def sampleIdentity : Identity where
  nodeID := sampleNodeID
  publicKey := (stdEncoding.decodeString samplePublicKey).getD []
  privateKey := List.replicate 32 0 ++ (stdEncoding.decodeString samplePublicKey).getD []

/-- The signature of the first envelope, for every message. -/
def firstSign (_ _ : Bytes) : Bytes := (stdEncoding.decodeString firstSignature).getD []

/-- The text that is published for the first record. -/
def firstText : String := marshalEnvelope (sampleEnvelope firstRecord firstSignature)

theorem sampleIdentity_valid : sampleIdentity.validate sampleCrypto = .ok () :=
  ok_of_toOption (by decide +kernel)

theorem first_prepared :
    prepareStoreValue sampleRuntime firstSign sampleIdentity sampleKey
      (marshalEndpoint firstRecord) sampleNow =
      .ok firstText := by
  have hid : sampleIdentity.validate sampleRuntime.toCrypto = .ok () := sampleIdentity_valid
  have hsignature : ∀ key message, stdEncoding.encodeToString (firstSign key message) =
      firstSignature := by
    intro key message
    rw [firstSign]
    decide
  have henvelope : signedEnvelopeFor (publisherOf firstSign sampleIdentity) sampleKey
    (marshalEndpoint firstRecord)
      (sampleInner sampleCrypto firstRecord) sampleNow = sampleEnvelope firstRecord firstSignature := by
    simp only [signedEnvelopeFor, signEnvelope, publisherOf, hsignature, sampleEnvelope]
    rfl
  rw [prepareStoreValue_eq hid (validateInnerLookupValue_sample first_mem) rfl,
    wrapSignedEnvelope, henvelope,
    firstText]

/-- A server that knows few peers sends to all of them. -/
theorem candidates_of_few {rt : Runtime} {key : String} {t : Table} (hkey : isNameTarget key = false)
    (hfew : (t.peersOf t.buckets).length ≤ 5) :
    (replicationCandidates rt key t).Perm (t.peersOf t.buckets) := by
  have hall : replicationCandidates rt key t =
      ranked (fun node => xorDistance rt.toCrypto (coordinate rt.toCrypto false node) key) NodeInfo.id
        (t.peersOf t.buckets) := by
    rw [replicationCandidates, Table.closestForTarget, hkey, if_neg Bool.false_ne_true, Table.closestNodes,
      sortClosestEntries, nearest, selectReplicationNodes, List.take_take, List.take_of_length_le]
    rw [(ranked_perm _ _ _).length_eq]
    exact hfew.trans (by decide)
  rw [hall]
  exact ranked_perm _ _ _

set_option maxRecDepth 4000 in
theorem peersOf_tableOf_one :
    (tableOf [hashedPeer "1"]).peersOf (tableOf [hashedPeer "1"]).buckets = [hashedPeer "1"] := by
  decide

theorem storeValidated_err_of_absent {rt : Runtime} {s : Server} {key value : String} {now : Time}
    {wv : ValidatedValue} (hnone : s.values.lookup key = none) (hrows : s.rows = none)
    (hw : validateLookupValue rt key value now = .ok wv) (putOk : Bool) :
    (storeValidated rt s key value now putOk).2.err = none := by
  simp [storeValidated, chooseStoredValue, hw, hnone, persists, hrows]

/-- Few peers are all in the first batch, and their requests are made. -/
theorem listed_of_few {rt : Runtime} {sign : Bytes → Bytes → Bytes} {id : Identity} {key value w : String}
    {wv : ValidatedValue} {t : Table} {q : NodeInfo} (env : Surroundings) (hkey : isNameTarget key = false)
    (hfew : (t.peersOf t.buckets).length ≤ 5) (hq : q ∈ t.peersOf t.buckets)
    (hprepare : prepareStoreValue rt sign id key value env.prepared = .ok w)
    (hvalid : validateLookupValue rt key w env.stored = .ok wv) (hput : env.putOk = true) :
    (outcome rt key w env q = .ok () →
      q ∈ (maintainReplicas rt sign key env (samplePublisher t id) value).2.1.successful) ∧
    (outcome rt key w env q ≠ .ok () →
      q ∈ (maintainReplicas rt sign key env (samplePublisher t id) value).2.1.failed) := by
  have hprepare' : prepareStoreValue rt sign (samplePublisher t id).publisher key value env.prepared =
      .ok w := hprepare
  have hcandidates : (replicationCandidates rt key (samplePublisher t id).table).Perm
      (t.peersOf t.buckets) := candidates_of_few hkey hfew
  have htarget : adaptiveReplicationTarget (samplePublisher t id).adaptive
      (samplePublisher t id).failure = 5 := rfl
  have hdesired : ((samplePublisher t id).desired rt key).toNat =
      (replicationCandidates rt key (samplePublisher t id).table).length := by
    have hlength := hcandidates.length_eq
    rw [Replicator.desired, desiredReplicas, htarget]
    split_ifs <;> omega
  have hdone : (maintainReplicas rt sign key env (samplePublisher t id) value).2.2 = none := by
    have hnone : (samplePublisher t id).store.values.lookup key = none := Dict.lookup_empty_eq _
    have herr := storeValidated_err_of_absent hnone rfl hvalid true
    simp only [maintainReplicas, hprepare', hput, herr]
  refine listed_of_first hprepare' hdone ?_
  rw [hdesired, List.take_length]
  exact hcandidates.mem_iff.2 hq

/-- The one peer is in the first batch, and its request is made. -/
theorem sample_listed {rt : Runtime} {sign : Bytes → Bytes → Bytes} {id : Identity} {key value w : String}
    {wv : ValidatedValue} {t : Table} {peer : Responder} (hkey : isNameTarget key = false)
    (hpeers : t.peersOf t.buckets = [hashedPeer "1"])
    (hprepare : prepareStoreValue rt sign id key value sampleNow = .ok w)
    (hvalid : validateLookupValue rt key w sampleNow = .ok wv) :
    ((sendStore rt key w (sampleDelivery peer)).2 = .ok () →
      hashedPeer "1" ∈ (maintainReplicas rt sign key (sampleSurroundings peer) (samplePublisher t id)
        value).2.1.successful) ∧
    ((sendStore rt key w (sampleDelivery peer)).2 ≠ .ok () →
      hashedPeer "1" ∈ (maintainReplicas rt sign key (sampleSurroundings peer) (samplePublisher t id)
        value).2.1.failed) :=
  listed_of_few (sampleSurroundings peer) hkey (by rw [hpeers]; decide)
    (by rw [hpeers]; exact List.mem_singleton_self _) hprepare hvalid rfl

/-- The bytes of an envelope, from the bytes of its fields. -/
theorem len_marshalEnvelope_le (env : SignedEnvelope) :
    len (marshalEnvelope env) ≤ 24 * (len env.key + len env.value + len env.originNodeID +
      len env.publisherNodeID + len env.publisherPublicKey + len env.issuedAt + len env.expiresAt +
      len env.observedAt + len env.signature) + len (formatInt env.version.toNat) + 6000 := by
  have hnames : ∀ name ∈ ["key", "value", "origin_node_id", "publisher_node_id", "publisher_public_key",
      "version", "issued_at", "expires_at", "observed_at", "signature"], len name ≤ 20 := by decide
  simp only [List.forall_mem_cons, List.not_mem_nil, IsEmpty.forall_iff, implies_true, and_true] at hnames
  have hkey := len_jsonString_le env.key
  have hvalue := len_jsonString_le env.value
  have horigin := len_jsonString_le env.originNodeID
  have hpublisher := len_jsonString_le env.publisherNodeID
  have hpublic := len_jsonString_le env.publisherPublicKey
  have hissued := len_jsonString_le env.issuedAt
  have hexpires := len_jsonString_le env.expiresAt
  have hobserved := len_jsonString_le env.observedAt
  have hsignature := len_jsonString_le env.signature
  refine (len_jsonObject_le _).trans ?_
  split_ifs
  · simp only [List.append_nil, List.cons_append, List.nil_append, List.map_cons, List.map_nil,
      List.sum_cons,
      List.sum_nil, memberBound]
    omega
  · simp only [List.cons_append, List.nil_append, List.map_cons, List.map_nil, List.sum_cons, List.sum_nil,
      memberBound]
    omega

/-! ### Endpoints -/

theorem firstRecord_fits : len (marshalEndpoint firstRecord) ≤ 20000 :=
  (len_jsonObject_le _).trans (by decide +kernel)

theorem firstText_fits : len firstText ≤ 1024 * 1024 := by
  have hrecord : len (sampleEnvelope firstRecord firstSignature).value ≤ 20000 := firstRecord_fits
  have hsmall : 24 * (len (sampleEnvelope firstRecord firstSignature).key +
      len (sampleEnvelope firstRecord firstSignature).originNodeID +
      len (sampleEnvelope firstRecord firstSignature).publisherNodeID +
      len (sampleEnvelope firstRecord firstSignature).publisherPublicKey +
      len (sampleEnvelope firstRecord firstSignature).issuedAt +
      len (sampleEnvelope firstRecord firstSignature).expiresAt +
      len (sampleEnvelope firstRecord firstSignature).observedAt +
      len (sampleEnvelope firstRecord firstSignature).signature) +
      len (formatInt (sampleEnvelope firstRecord firstSignature).version.toNat) ≤ 20000 := by
    decide +kernel
  have hbound := len_marshalEnvelope_le (sampleEnvelope firstRecord firstSignature)
  rw [firstText]
  omega

theorem first_verified : verifyEndpointRecord sampleRuntime.toCrypto firstRecord sampleNow = .ok () :=
  ok_of_toOption (samples_checks _ first_mem).1

/-- An envelope around an endpoint record that verifies. -/
theorem wrapsEndpoint_of {rt : Runtime} {value inner : String} {env : SignedEnvelope}
    {rec : EndpointRecord}
    {now : Time} (henv : maybeDecodeEnvelope rt value = .ok (some env)) (hvalue : env.value = inner)
    (hrec : rt.decodeEndpoint inner = some rec)
    (hver : verifyEndpointRecord rt.toCrypto rec now = .ok ()) :
    wrapsEndpoint rt value now = true := by
  simp only [wrapsEndpoint, henv, hvalue, hrec, hver]
  rfl

theorem sampleKey_valid : validDHTValueKey sampleKey = true := validDHTValueKey_nodeID (by decide +kernel)

theorem sampleKey_not_name : isNameTarget sampleKey = false := hasPrefix_of_differ (by decide) _

/-- The sample endpoint is sent as an address update. -/
theorem first_request :
    (storeRequest sampleRuntime sampleKey firstText sampleNow).action = .updateIP ∧
    (storeRequest sampleRuntime sampleKey firstText sampleNow).validate = .ok () := by
  have hwraps : wrapsEndpoint sampleRuntime firstText sampleNow = true :=
    wrapsEndpoint_of (maybeDecodeEnvelope_sample first_mem) rfl (decodeEndpoint_sample first_mem)
      first_verified
  have hid : hasPrefix sampleKey "node/id/" = true := hasPrefix_append _ _
  have hne : firstText ≠ "" := jsonObject_ne_empty _
  refine ⟨?_, (validate_storeRequest _ _ sampleKey_valid hne firstText_fits).1⟩
  rw [storeRequest, hid, hwraps]
  rfl

/-- The checks on an address update with an envelope. -/
theorem checkUpdate_of_envelope {rt : Runtime} {m : Meeting} {r : DHTRequest} {v : ValidatedValue}
    {rec : EndpointRecord} (hvalid : validateLookupValue rt r.target r.data m.validated = .ok v)
    (hverified : v.verified = true) (hrec : rt.decodeEndpoint v.raw = some rec)
    (hver : verifyEndpointRecord rt.toCrypto rec m.verified = .ok ())
    (htarget : r.target = nodeIDKey rec.nodeID) :
    checkUpdate rt m r = .ok () := by
  simp only [checkUpdate, hvalid, hverified, hrec, hver, Except.mapError, orReject, bind, Except.bind]
  simp [rejectIf, htarget]

/-- Admission and storing of a value of its own publisher under a key that holds nothing. -/
theorem admitAndStore_of_absent {rt : Runtime} {s : Server} {m : Meeting} {key w : String}
    {wv : ValidatedValue}
    (hk : isTrustedLookupKey key = true)
    (hallow : (allowStoreRequest s m.remoteAddr key true m.admitted).2 = .ok ())
    (hnone : s.values.lookup key = none) (hrows : s.rows = none) (halone : m.interim = id)
    (hadmitted : validateLookupValue rt key w m.admitted = .ok wv)
    (hstored : validateLookupValue rt key w m.stored = .ok wv) (hauth : wv.authoritativePublisher = true) :
    (admitAndStore rt s m key w).2 = .ok () := by
  have hadmitted := admitStoreValue_of_absent hk hallow hnone hadmitted hauth
  obtain ⟨rates, hserver⟩ := admitStoreValue_server rt s m.remoteAddr key w m.admitted
  unfold admitAndStore
  split
  · rename_i s' e hresult
    rw [hresult] at hadmitted
    cases hadmitted
  · rename_i s' hresult
    rw [hresult] at hserver
    have herr : (storeValidated rt (m.interim s') key w m.stored m.putOk).2.err = none := by
      rw [halone]
      have hnone' : s'.values.lookup key = none := by rw [show s' = _ from hserver]; exact hnone
      have hrows' : s'.rows = none := by rw [show s' = _ from hserver]; exact hrows
      exact storeValidated_err_of_absent hnone' hrows' hstored _
    simp only [herr]

/-- An address update that passes all checks succeeds. -/
theorem sendStore_of_update {rt : Runtime} {key w : String} {d : Delivery} (hlink : d.link = .connected)
    (hvalid : (storeRequest rt key w d.sent).validate = .ok ())
    (haction : (storeRequest rt key w d.sent).action = .updateIP)
    (hcheck : checkUpdate rt d.meeting (storeRequest rt key w d.sent) = .ok ())
    (hstored : (admitAndStore rt d.peer.store d.meeting key w).2 = .ok ()) :
    (sendStore rt key w d).2 = .ok () := by
  obtain ⟨hversion, htarget, hdata, -⟩ := storeRequest_fields rt key w d.sent
  rw [sendStore_of_valid hlink hvalid]
  rcases handleDHT_cases rt d.peer d.meeting hvalid with ⟨hspent, -, -⟩ | ⟨-, q', hstore, hanswer⟩
  · exact absurd hspent (not_hiddenRateSpent_update haction)
  · simp only [hanswer, answer, haction, hcheck, htarget, hdata, hstore, hstored, Except.map]
    exact checkReply_ok hversion

theorem first_authoritative : (sampleValue firstRecord firstSignature).authoritativePublisher = true := by
  decide

/-- A peer with nothing stored takes the sample endpoint. -/
theorem first_sent :
    (sendStore sampleRuntime sampleKey firstText (sampleDelivery (samplePeerWith {}))).2 = .ok () := by
  have hvalid : validateLookupValue sampleRuntime sampleKey firstText sampleNow = _ :=
    validateLookupValue_sample first_mem
  obtain ⟨-, htarget, hdata, -⟩ := storeRequest_fields sampleRuntime sampleKey firstText sampleNow
  refine sendStore_of_update rfl first_request.2 first_request.1 ?_ ?_
  · refine checkUpdate_of_envelope (v := sampleValue firstRecord firstSignature) ?_ rfl
      (decodeEndpoint_sample first_mem) first_verified ?_
    · rw [show (sampleDelivery (samplePeerWith {})).sent = sampleNow from rfl, htarget, hdata]
      exact hvalid
    · exact htarget
  · have hallow : (allowStoreRequest {} sampleMeeting.remoteAddr sampleKey true sampleMeeting.admitted).2 =
        .ok () := sample_allowed
    exact admitAndStore_of_absent sampleKey_trusted hallow (Dict.lookup_empty_eq _) rfl rfl hvalid hvalid
      first_authoritative

/-- The sample endpoint is published for the first time: the peer is reported, and holds it. -/
theorem first_publication_holds :
    hashedPeer "1" ∈ (maintainReplicas sampleRuntime firstSign sampleKey
      (sampleSurroundings (samplePeerWith {}))
      (samplePublisher (tableOf [hashedPeer "1"]) sampleIdentity)
        (marshalEndpoint firstRecord)).2.1.successful ∧
    Replicated sampleRuntime (sendStore sampleRuntime sampleKey firstText
      ((sampleSurroundings (samplePeerWith {})).deliver (hashedPeer "1"))).1.store sampleKey firstText
      ((sampleSurroundings (samplePeerWith {})).deliver (hashedPeer "1")).meeting.stored := by
  have hlisted := (sample_listed sampleKey_not_name peersOf_tableOf_one first_prepared
    (validateLookupValue_sample first_mem)).1 first_sent
  have hprepare : prepareStoreValue sampleRuntime firstSign
      (samplePublisher (tableOf [hashedPeer "1"]) sampleIdentity).publisher sampleKey
        (marshalEndpoint firstRecord)
      (sampleSurroundings (samplePeerWith {})).prepared = .ok firstText := first_prepared
  have htakes : Takes sampleRuntime sampleKey firstText
      ((sampleSurroundings (samplePeerWith {})).deliver (hashedPeer "1")) := .inl first_request.1
  exact ⟨hlisted, (((reported_replicas_hold_iff hprepare).2 _ hlisted).2 htakes).1⟩

/-! ### Descriptors -/

/-- The text that is published for the sample descriptor. -/
def descriptorText : String := marshalEnvelope (descriptorEnvelope sampleNow)

theorem descriptorText_valid :
    ∃ v, validateLookupValue (descriptorRuntime sampleNow) forgedKey descriptorText
    sampleNow = .ok v := by
  have hid : wireIdentity.validate (descriptorRuntime sampleNow).toCrypto = .ok () := wireIdentity_valid
  have hsign : Honest (descriptorRuntime sampleNow).toCrypto sampleSign wireIdentity := sampleSign_honest
  have hwrap : Wrappable descriptorInfo sampleNow :=
    ⟨by decide, by decide, by decide, by decide, by decide, by decide⟩
  have hvalue : forgedText ≠ "" := jsonObject_ne_empty _
  exact ⟨_, validateLookupValue_envelopeFor rfl
    (maybeDecodeEnvelope_wrapped hid hsign (by decide) hvalue hwrap.version (descriptor_json sampleNow))
    (verifyEnvelope_wrapped hid hsign hwrap) (descriptor_inner sampleNow sampleNow)⟩

theorem descriptorText_fits : len descriptorText ≤ 1024 * 1024 := by
  have hrecord : len (descriptorEnvelope sampleNow).value ≤ 20000 :=
    (len_jsonObject_le _).trans (by decide +kernel)
  have hsmall : 24 * (len (descriptorEnvelope sampleNow).key +
    len (descriptorEnvelope sampleNow).originNodeID +
      len (descriptorEnvelope sampleNow).publisherNodeID +
      len (descriptorEnvelope sampleNow).publisherPublicKey + len (descriptorEnvelope sampleNow).issuedAt +
      len (descriptorEnvelope sampleNow).expiresAt + len (descriptorEnvelope sampleNow).observedAt +
      len (descriptorEnvelope sampleNow).signature) +
      len (formatInt (descriptorEnvelope sampleNow).version.toNat) ≤ 20000 := by
    decide +kernel
  have hbound := len_marshalEnvelope_le (descriptorEnvelope sampleNow)
  rw [descriptorText]
  omega

/-- The sample descriptor is sent in a store request. -/
theorem descriptor_request :
    (storeRequest (descriptorRuntime sampleNow) forgedKey descriptorText sampleNow).action = .store ∧
    (storeRequest (descriptorRuntime sampleNow) forgedKey descriptorText sampleNow).validate = .ok () := by
  have hkey : validDHTValueKey forgedKey = true := by decide +kernel
  have hne : descriptorText ≠ "" := jsonObject_ne_empty _
  refine ⟨?_, (validate_storeRequest _ _ hkey hne descriptorText_fits).1⟩
  rw [storeRequest_of_not_node (by decide)]

/-- A peer whose rate for hidden descriptors is spent. -/
def spentPeer : Responder :=
  { samplePeerWith {} with
    hiddenRates := (∅ : Dict String RateWindow).insert "store\n2001:db8::2" ⟨sampleNow, 24⟩ }

/-- A request beyond the rate of hidden descriptors succeeds and stores nothing. -/
theorem sendStore_of_spent {rt : Runtime} {key w : String} {d : Delivery} (hlink : d.link = .connected)
    (hvalid : (storeRequest rt key w d.sent).validate = .ok ())
    (hspent : HiddenRateSpent d.peer d.meeting (storeRequest rt key w d.sent)) :
    (sendStore rt key w d).2 = .ok () ∧ (sendStore rt key w d).1.store = d.peer.store := by
  obtain ⟨hversion, -⟩ := storeRequest_fields rt key w d.sent
  rw [sendStore_of_valid hlink hvalid]
  rcases handleDHT_cases rt d.peer d.meeting hvalid with ⟨-, hstore, hreply⟩ | ⟨hnot, -⟩
  · simp only [hreply, hstore, checkReply_ok hversion, and_self]
  · exact absurd hspent hnot

/-- The peer ignores the sample descriptor, and is reported as a replica. -/
theorem ignored_store_reported :
    hashedPeer "1" ∈ (maintainReplicas (descriptorRuntime sampleNow) sampleSign forgedKey
      (sampleSurroundings spentPeer) (samplePublisher (tableOf [hashedPeer "1"]) wireIdentity)
      forgedText).2.1.successful ∧
    ¬ Replicated (descriptorRuntime sampleNow)
      (sendStore (descriptorRuntime sampleNow) forgedKey descriptorText
      (sampleDelivery spentPeer)).1.store forgedKey descriptorText sampleNow := by
  have hrequest : storeRequest (descriptorRuntime sampleNow) forgedKey descriptorText sampleNow =
      { type := .update, action := .store, target := forgedKey, data := descriptorText } :=
    storeRequest_of_not_node (by decide)
  have hsent : (sampleDelivery spentPeer).sent = sampleNow := rfl
  have hspent : HiddenRateSpent (sampleDelivery spentPeer).peer (sampleDelivery spentPeer).meeting
      (storeRequest (descriptorRuntime sampleNow) forgedKey descriptorText
        (sampleDelivery spentPeer).sent) := by
    rw [hsent, hrequest]
    exact ⟨by decide, by decide⟩
  have hvalid : (storeRequest (descriptorRuntime sampleNow) forgedKey descriptorText
      (sampleDelivery spentPeer).sent).validate = .ok () := by
    rw [hsent]
    exact descriptor_request.2
  obtain ⟨v, hv⟩ := descriptorText_valid
  obtain ⟨hok, hstore⟩ := sendStore_of_spent rfl hvalid hspent
  have hnone : (sampleDelivery spentPeer).peer.store.values.lookup forgedKey = none :=
    Dict.lookup_empty_eq _
  refine ⟨(sample_listed (by decide) peersOf_tableOf_one (descriptor_prepared sampleNow) hv).1 hok, ?_⟩
  rw [hstore]
  rintro (hlookup | ⟨v', wv, ⟨raw, hlookup, -⟩, -⟩)
  · rw [hnone] at hlookup
    cases hlookup
  · rw [hnone] at hlookup
    cases hlookup

end Samples

end Vx6.Dht
