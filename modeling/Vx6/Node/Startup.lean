import Vx6.Dht.Distance
import Vx6.Ipsec.Service

/-!
# Preparing the known peers at startup

Before it serves anything, `node.Run` asks the IPsec service to prepare every peer whose record the
registry or the routing table holds. `registryRecords` collects these records, and the loop stops at the
first request that fails.

`startup_unstoppable_iff` says for which records no refusal stops the loop; `revoked_record_stops_startup`
is a start that fails because a peer, whose record is as valid as ever, has been revoked. The loop of
`maintainIPsecPeers`, which does the same every ten seconds, goes on after an error.
-/

set_option autoImplicit false

namespace Vx6.Node

open Vx6.Go Vx6.Lib Vx6.Record Vx6.Dht Vx6.Ipsec

/-! ## The records -/

/-- `preferEndpointRecord`. -/
def preferEndpointRecord (records : Dict String EndpointRecord) (candidate : EndpointRecord) :
    Dict String EndpointRecord :=
  match records.lookup candidate.nodeID with
  | none => records.insert candidate.nodeID candidate
  | some current =>
      if endpointRecordNewer candidate current then records.insert candidate.nodeID candidate
      else records

/-- The map of `registryRecords`: the verified records of the registry, then those of the routing
table. -/
def recordsByID (cr : Crypto) (registry : List EndpointRecord) (nodes : List NodeInfo) (now : Time) :
    Dict String EndpointRecord :=
  let fromRegistry := registry.filter fun rec => (verifyEndpointRecord cr rec now).isOk
  let fromTable := nodes.filter fun info => (verifyNodeInfo cr info now).isOk
  (fromRegistry ++ fromTable.map endpointRecordFromNodeInfo).foldl preferEndpointRecord ∅

/-- `registryRecords`, in the order in which the map is iterated over. -/
def registryRecords (cr : Crypto) (registry : List EndpointRecord) (nodes : List NodeInfo) (now : Time)
    (order : MapOrder) : List EndpointRecord :=
  let byID := recordsByID cr registry nodes now
  (order.order byID.keys).filterMap byID.lookup

/-- The records of `registryRecords` have distinct node IDs and were verified. -/
structure Registered (cr : Crypto) (now : Time) (records : List EndpointRecord) : Prop where
  distinct : (records.map EndpointRecord.nodeID).Nodup
  verified : ∀ rec ∈ records, verifyEndpointRecord cr rec now = .ok ()

/-- Every entry stands under its node ID, and was verified. -/
def Filed (cr : Crypto) (now : Time) (records : Dict String EndpointRecord) : Prop :=
  ∀ nodeID rec, records.lookup nodeID = some rec →
    rec.nodeID = nodeID ∧ verifyEndpointRecord cr rec now = .ok ()

theorem Filed.prefer {cr : Crypto} {now : Time} {records : Dict String EndpointRecord}
    (h : Filed cr now records) {candidate : EndpointRecord}
    (hverified : verifyEndpointRecord cr candidate now = .ok ()) :
    Filed cr now (preferEndpointRecord records candidate) := by
  have hinsert : Filed cr now (records.insert candidate.nodeID candidate) := by
    intro nodeID rec hlookup
    rw [Dict.lookup_insert_eq] at hlookup
    split at hlookup
    · rename_i heq
      cases hlookup
      exact ⟨heq.symm, hverified⟩
    · exact h nodeID rec hlookup
  rw [preferEndpointRecord]
  split
  · exact hinsert
  · split
    · exact hinsert
    · exact h

theorem Filed.foldl {cr : Crypto} {now : Time} {l : List EndpointRecord}
    (hl : ∀ rec ∈ l, verifyEndpointRecord cr rec now = .ok ()) {records : Dict String EndpointRecord}
    (h : Filed cr now records) : Filed cr now (l.foldl preferEndpointRecord records) := by
  induction l generalizing records with
  | nil => exact h
  | cons rec l ih => exact ih (fun r hr => hl r (.tail _ hr)) (h.prefer (hl rec (.head _)))

theorem filed_recordsByID (cr : Crypto) (registry : List EndpointRecord) (nodes : List NodeInfo)
    (now : Time) : Filed cr now (recordsByID cr registry nodes now) := by
  refine Filed.foldl (fun rec hrec => ?_) fun nodeID rec h => by
    rw [Dict.lookup_empty_eq] at h
    cases h
  rcases List.mem_append.1 hrec with hrec | hrec
  · obtain ⟨-, hok⟩ := List.mem_filter.1 hrec
    exact ok_of_isOk hok
  · obtain ⟨info, hinfo, rfl⟩ := List.mem_map.1 hrec
    obtain ⟨-, hok⟩ := List.mem_filter.1 hinfo
    have hverified := ok_of_isOk hok
    simp only [verifyNodeInfo, bind_eq_ok, rejectIf_eq_ok, mapError_eq_ok, exists_const] at hverified
    exact hverified.2.2

theorem registered_registryRecords (cr : Crypto) (registry : List EndpointRecord)
    (nodes : List NodeInfo) (now : Time) (order : MapOrder) :
    Registered cr now (registryRecords cr registry nodes now order) := by
  have hfiled := filed_recordsByID cr registry nodes now
  have hsublist : ∀ keys : List String,
      ((keys.filterMap (recordsByID cr registry nodes now).lookup).map EndpointRecord.nodeID).Sublist
        keys := by
    intro keys
    induction keys with
    | nil => exact .slnil
    | cons key keys ih =>
      rw [List.filterMap_cons]
      split
      · exact ih.cons _
      · rename_i rec hlookup
        rw [List.map_cons, (hfiled key rec hlookup).1]
        exact ih.cons_cons _
  constructor
  · have hkeys : (order.order (recordsByID cr registry nodes now).keys).Nodup :=
      (order.perm _).nodup_iff.2 (recordsByID cr registry nodes now).keys_nodup
    exact hkeys.sublist (hsublist _)
  · intro rec hrec
    obtain ⟨key, -, hlookup⟩ := List.mem_filterMap.1 hrec
    exact (hfiled key rec hlookup).2

/-! ## The loop -/

/-- When the service checks a record, and the outcomes of what it runs for it. -/
structure PrepareAttempt where
  now : Time
  commands : PrepareCommands := {}

/-- The error of the preparation loop: the node ID of the peer, and what the service answered. -/
structure StartupError where
  nodeID : String
  cause : ServeError

/-- The loop of `Run` over the records; the requests go to one manager of the service. -/
def preparePeers (cr : Crypto) (ownID : String) (attempt : String → PrepareAttempt) :
    List EndpointRecord → Manager → Manager × Except StartupError Unit
  | [], m => (m, .ok ())
  | peer :: rest, m =>
      if peer.nodeID = ownID then preparePeers cr ownID attempt rest m
      else
        let a := attempt peer.nodeID
        let p := perform cr m {} a.now (.prepare peer a.commands)
        match p.response with
        | .ok _ => preparePeers cr ownID attempt rest p.manager
        | .error e => (p.manager, .error ⟨peer.nodeID, e⟩)

/-- The peer was refused; the other errors are failures of writes and commands. -/
def isRefusal : ServeError → Bool
  | .peer (.unverified _) => true
  | .peer .unsafeNodeID => true
  | .peer .self => true
  | .peer (.revoked _) => true
  | .peer .notIPv6 => true
  | .peer .localAddress => true
  | _ => false

/-- No record stops the node: whatever the commands do, no refusal ends the loop, and if they succeed,
every record that the service accepts is installed. -/
structure Unstoppable (cr : Crypto) (ownID : String) (times : String → Time)
    (records : List EndpointRecord) (m : Manager) : Prop where
  noRefusal : ∀ (commands : String → PrepareCommands) (e : StartupError),
    (preparePeers cr ownID (fun id => ⟨times id, commands id⟩) records m).2 = .error e →
      isRefusal e.cause = false
  prepared : ∀ rec ∈ records, rec.nodeID ≠ ownID →
    checkPeer cr m.node (m.isRevoked rec.nodeID) rec (times rec.nodeID) = .ok () →
      (preparePeers cr ownID (fun id => ⟨times id, {}⟩) records m).1.hasInstalled rec = true

/-! ## One request -/

section Requests

variable {cr : Crypto} {m : Manager} {peer : EndpointRecord} {now : Time}

/-- What a request to prepare a peer leaves alone. -/
theorem preparePeer_frame (cr : Crypto) (m : Manager) (peer : EndpointRecord) (now : Time)
    (c : PrepareCommands) :
    (m.preparePeer cr peer now c).manager.node = m.node ∧
      (m.preparePeer cr peer now c).manager.revoked = m.revoked ∧
      ∀ id, id ≠ peer.nodeID →
        (m.preparePeer cr peer now c).manager.peers.lookup id = m.peers.lookup id := by
  have hinstall : ∀ id, id ≠ peer.nodeID →
      ((m.writeConnection cr peer).install peer).peers.lookup id = m.peers.lookup id := by
    intro id hid
    rw [Manager.install, Dict.lookup_insert_eq, if_neg hid]
    rfl
  rw [Manager.preparePeer]
  split
  · exact ⟨rfl, rfl, fun _ _ => rfl⟩
  · split
    · exact ⟨rfl, rfl, fun _ _ => rfl⟩
    · split
      · exact ⟨rfl, rfl, fun _ _ => rfl⟩
      · exact ⟨rfl, rfl, fun _ _ => rfl⟩
      · dsimp only
        split_ifs
        · exact ⟨rfl, rfl, fun _ _ => rfl⟩
        · exact ⟨rfl, rfl, fun _ _ => rfl⟩
        · exact ⟨rfl, rfl, hinstall⟩

/-- What the checks object to is a refusal. -/
theorem isRefusal_of_check {isRevoked : Bool} {e : PeerError}
    (h : checkPeer cr m.node isRevoked peer now = .error e) : isRefusal (.peer e) = true := by
  simp only [checkPeer, bind_eq_error, mapError_eq_error, rejectIf_eq_error, mapError_eq_ok,
    rejectIf_eq_ok] at h
  rcases h with ⟨_, -, rfl⟩ | ⟨_, -, ⟨-, rfl⟩ | ⟨_, -, ⟨-, rfl⟩ | ⟨_, -, ⟨-, rfl⟩ | ⟨_, -, ⟨-, rfl⟩ |
    ⟨_, -, -, rfl⟩⟩⟩⟩⟩
  all_goals rfl

/-- A request that the checks object to is refused and changes nothing. -/
theorem preparePeer_refused {e : PeerError} (c : PrepareCommands)
    (h : checkPeer cr m.node (m.isRevoked peer.nodeID) peer now = .error e) :
    m.preparePeer cr peer now c = { manager := m, result := .error e } := by
  rw [Manager.preparePeer, h]

/-- A request that passes the checks fails only through a write or a command. -/
theorem not_refusal_of_accepted (c : PrepareCommands)
    (h : checkPeer cr m.node (m.isRevoked peer.nodeID) peer now = .ok ()) {e : PeerError}
    (he : (m.preparePeer cr peer now c).result = .error e) : isRefusal (.peer e) = false := by
  rw [Manager.preparePeer, h] at he
  dsimp only at he
  split at he
  · cases he
  · split at he
    · cases he
      rfl
    · cases he
      rfl
    · split_ifs at he <;> cases he <;> rfl

/-- A request that passes the checks installs the record, if nothing fails. -/
theorem preparePeer_installs
    (h : checkPeer cr m.node (m.isRevoked peer.nodeID) peer now = .ok ()) :
    (m.preparePeer cr peer now {}).result = .ok () ∧
      (m.preparePeer cr peer now {}).manager.hasInstalled peer = true := by
  rw [Manager.preparePeer, h]
  dsimp only
  split
  · rename_i hinstalled
    exact ⟨rfl, hinstalled⟩
  · refine ⟨rfl, ?_⟩
    simp [Manager.hasInstalled, Manager.install]

end Requests

/-! ## The whole loop -/

section Loop

variable {cr : Crypto} {ownID : String} {m : Manager}

/-- The service takes a record. -/
def Accepts (cr : Crypto) (m : Manager) (times : String → Time) (rec : EndpointRecord) : Prop :=
  checkPeer cr m.node (m.isRevoked rec.nodeID) rec (times rec.nodeID) = .ok ()

/-- Requests for other peers do not change what the service takes. -/
theorem accepts_preparePeer {times : String → Time} {rec : EndpointRecord} (peer : EndpointRecord)
    (now : Time) (c : PrepareCommands) :
    Accepts cr (m.preparePeer cr peer now c).manager times rec ↔ Accepts cr m times rec := by
  obtain ⟨hnode, hrevoked, -⟩ := preparePeer_frame cr m peer now c
  rw [Accepts, Accepts, Manager.isRevoked, hnode, hrevoked]
  rfl

/-- One round of the loop. -/
theorem preparePeers_cons {attempt : String → PrepareAttempt} {peer : EndpointRecord}
    {rest : List EndpointRecord} (hother : peer.nodeID ≠ ownID) :
    preparePeers cr ownID attempt (peer :: rest) m =
      match (m.preparePeer cr peer (attempt peer.nodeID).now (attempt peer.nodeID).commands).result with
      | .ok () => preparePeers cr ownID attempt rest
          (m.preparePeer cr peer (attempt peer.nodeID).now (attempt peer.nodeID).commands).manager
      | .error e =>
          ((m.preparePeer cr peer (attempt peer.nodeID).now (attempt peer.nodeID).commands).manager,
            .error ⟨peer.nodeID, .peer e⟩) := by
  rw [preparePeers, if_neg hother]
  simp only [perform]
  cases (m.preparePeer cr peer (attempt peer.nodeID).now (attempt peer.nodeID).commands).result <;> rfl

/-- The loop leaves the peers alone that are not among the records. -/
theorem peers_preparePeers {attempt : String → PrepareAttempt} {records : List EndpointRecord}
    {id : String}
    (hid : id ∉ records.map EndpointRecord.nodeID) :
    (preparePeers cr ownID attempt records m).1.peers.lookup id = m.peers.lookup id := by
  induction records generalizing m with
  | nil => rfl
  | cons peer rest ih =>
    rw [List.map_cons, List.mem_cons, not_or] at hid
    by_cases hself : peer.nodeID = ownID
    · rw [preparePeers, if_pos hself]
      exact ih hid.2
    · have hframe := (preparePeer_frame cr m peer (attempt peer.nodeID).now
        (attempt peer.nodeID).commands).2.2 id hid.1
      rw [preparePeers_cons hself]
      split
      · rw [ih hid.2, hframe]
      · exact hframe

/-- If the service takes every record, the loop is ended by a failure only. -/
theorem not_refusal_of_preparePeers {times : String → Time} {commands : String → PrepareCommands}
    {records : List EndpointRecord}
    (hall : ∀ rec ∈ records, rec.nodeID ≠ ownID → Accepts cr m times rec) {e : StartupError}
    (h : (preparePeers cr ownID (fun id => ⟨times id, commands id⟩) records m).2 = .error e) :
    isRefusal e.cause = false := by
  induction records generalizing m with
  | nil => cases h
  | cons peer rest ih =>
    by_cases hself : peer.nodeID = ownID
    · rw [preparePeers, if_pos hself] at h
      exact ih (fun rec hrec => hall rec (.tail _ hrec)) h
    · rw [preparePeers_cons hself] at h
      split at h
      · exact ih (fun rec hrec hother => (accepts_preparePeer ..).2 (hall rec (.tail _ hrec) hother)) h
      · rename_i cause hresult
        cases h
        exact not_refusal_of_accepted _ (hall peer (.head _) hself) hresult

/-- If the service takes every record and nothing fails, all of them are installed. -/
theorem installed_of_preparePeers {times : String → Time} {records : List EndpointRecord}
    (hdistinct : (records.map EndpointRecord.nodeID).Nodup)
    (hall : ∀ rec ∈ records, rec.nodeID ≠ ownID → Accepts cr m times rec) {rec : EndpointRecord}
    (hrec : rec ∈ records) (hother : rec.nodeID ≠ ownID) :
    (preparePeers cr ownID (fun id => ⟨times id, {}⟩) records m).1.hasInstalled rec = true := by
  induction records generalizing m with
  | nil => exact absurd hrec List.not_mem_nil
  | cons peer rest ih =>
    rw [List.map_cons, List.nodup_cons] at hdistinct
    by_cases hself : peer.nodeID = ownID
    · have hrest : rec ∈ rest := by
        rcases List.mem_cons.1 hrec with rfl | hrest
        · exact absurd hself hother
        · exact hrest
      rw [preparePeers, if_pos hself]
      exact ih hdistinct.2 (fun r hr => hall r (.tail _ hr)) hrest
    · obtain ⟨hresult, hinstalled⟩ := preparePeer_installs (hall peer (.head _) hself)
      rw [preparePeers_cons hself]
      simp only [hresult]
      rcases List.mem_cons.1 hrec with rfl | hrest
      · -- the rest of the loop is about other peers
        rw [Manager.hasInstalled, peers_preparePeers hdistinct.1]
        exact hinstalled
      · exact ih hdistinct.2
          (fun r hr hr' => (accepts_preparePeer ..).2 (hall r (.tail _ hr) hr')) hrest

/-- If the service refuses a record and nothing fails, the loop ends with a refusal. -/
theorem refused_of_preparePeers {times : String → Time} {records : List EndpointRecord}
    {rec : EndpointRecord} (hrec : rec ∈ records) (hother : rec.nodeID ≠ ownID)
    (hrefused : ¬ Accepts cr m times rec) :
    ∃ e, (preparePeers cr ownID (fun id => ⟨times id, {}⟩) records m).2 = .error e ∧
      isRefusal e.cause = true := by
  induction records generalizing m with
  | nil => exact absurd hrec List.not_mem_nil
  | cons peer rest ih =>
    by_cases hself : peer.nodeID = ownID
    · rcases List.mem_cons.1 hrec with rfl | hrest
      · exact absurd hself hother
      · rw [preparePeers, if_pos hself]
        exact ih hrest hrefused
    · rw [preparePeers_cons hself]
      cases hcheck : checkPeer cr m.node (m.isRevoked peer.nodeID) peer (times peer.nodeID) with
      | error e =>
        simp only [preparePeer_refused {} hcheck]
        exact ⟨_, rfl, isRefusal_of_check hcheck⟩
      | ok u =>
        simp only [(preparePeer_installs hcheck).1]
        rcases List.mem_cons.1 hrec with rfl | hrest
        · exact absurd hcheck hrefused
        · exact ih hrest fun h => hrefused ((accepts_preparePeer ..).1 h)

end Loop

/-- No record in the registry or the routing table stops the node from starting exactly if every record
of another node is still in force when the service checks it, its node has not been revoked, and its
host is not written as the local address. -/
theorem startup_unstoppable_iff (cr : Crypto) (m : Manager) (registry : List EndpointRecord)
    (nodes : List NodeInfo) (now : Time) (order : MapOrder) (times : String → Time) :
    Unstoppable cr m.node.nodeID times (registryRecords cr registry nodes now order) m ↔
      ∀ rec ∈ registryRecords cr registry nodes now order, rec.nodeID ≠ m.node.nodeID →
        verifyEndpointRecord cr rec (times rec.nodeID) = .ok () ∧
          m.isRevoked rec.nodeID = false ∧
          peerRawAddress rec.address ≠ IP.string m.node.localIP := by
  have hregistered := registered_registryRecords cr registry nodes now order
  constructor
  · intro h rec hrec hother
    rw [← checkPeer_verified_iff hother]
    by_contra hrefused
    obtain ⟨e, hresult, hrefusal⟩ := refused_of_preparePeers hrec hother hrefused
    rw [h.noRefusal _ e hresult] at hrefusal
    cases hrefusal
  · intro h
    have hall : ∀ rec ∈ registryRecords cr registry nodes now order, rec.nodeID ≠ m.node.nodeID →
        Accepts cr m times rec :=
      fun rec hrec hother => (checkPeer_verified_iff hother).2 (h rec hrec hother)
    exact ⟨fun commands e he => not_refusal_of_preparePeers hall he,
      fun rec hrec hother _ => installed_of_preparePeers hregistered.distinct hall hrec hother⟩

/-- A record that would be accepted is refused once its node has been revoked. -/
theorem checkPeer_revoked {cr : Crypto} {node : LocalNode} {peer : EndpointRecord} {now : Time}
    (h : AcceptedPeer cr node peer now) :
    checkPeer cr node true peer now = .error (.revoked peer.nodeID) := by
  simp [checkPeer, h.verified, h.safe, h.other, rejectIf, Except.mapError, bind, Except.bind]

/-- A manager that has revoked the first sample. -/
def revokingManager : Manager :=
  { node := sampleNode
    revoked := (∅ : Dict String RevokedPeer).insert bravoRecord.nodeID
      ⟨bravoRecord.address, peerNow⟩ }

/-- The registry holds valid records of two nodes, and the first of them has been revoked: the node does
not start, and the second peer is not prepared. -/
theorem revoked_record_stops_startup :
    ∃ order : MapOrder,
      registryRecords peerCrypto [bravoRecord, charlieRecord] [] peerNow order =
        [bravoRecord, charlieRecord] ∧
      (preparePeers peerCrypto sampleNode.nodeID (fun _ => ⟨peerNow, {}⟩)
        [bravoRecord, charlieRecord] revokingManager).2 =
          .error ⟨bravoRecord.nodeID, .peer (.revoked bravoRecord.nodeID)⟩ ∧
      (preparePeers peerCrypto sampleNode.nodeID (fun _ => ⟨peerNow, {}⟩)
        [bravoRecord, charlieRecord] revokingManager).1.hasInstalled charlieRecord = false := by
  have hbravo := acceptedPeer_sample (by simp [peerSamples] : bravoRecord ∈ peerSamples)
  have hcharlie := acceptedPeer_sample (by simp [peerSamples] : charlieRecord ∈ peerSamples)
  have hrecords : recordsByID peerCrypto [bravoRecord, charlieRecord] [] peerNow =
      ((∅ : Dict String EndpointRecord).insert bravoRecord.nodeID bravoRecord).insert
        charlieRecord.nodeID charlieRecord := by
    simp only [recordsByID, List.filter_cons, hbravo.verified, hcharlie.verified, Except.isOk,
      Except.toBool, ↓reduceIte, List.filter_nil, List.map_nil, List.append_nil, List.foldl_cons,
      List.foldl_nil]
    rfl
  have hrefused : revokingManager.preparePeer peerCrypto bravoRecord peerNow {} =
      { manager := revokingManager, result := .error (.revoked bravoRecord.nodeID) } :=
    preparePeer_refused {} (checkPeer_revoked hbravo)
  refine ⟨⟨List.reverse, List.reverse_perm⟩, ?_, ?_, ?_⟩
  · simp only [registryRecords, hrecords]
    rfl
  · rw [preparePeers_cons hbravo.other]
    simp only [hrefused]
  · rw [preparePeers_cons hbravo.other]
    simp only [hrefused]
    rfl

end Vx6.Node
