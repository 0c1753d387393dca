import Vx6.Ipsec.Service
import Vx6.Lib.Replace

/-!
# What a failed revocation leaves behind

`RevokePeer` of `internal/ipsec/manager.go` with the file it writes: the map of revoked peers is
encoded and put in place of `revoked-peers.json` by `writeAtomic`, and `newManager` reads the file
when the service starts again. A `Host` is a manager with the files of its directory.

`failed_revocation`: a call that cannot persist the revocation leaves the file as it was, and the map
as well exactly if the peer was not in it before; a call that fails after that leaves the peer revoked,
in the map, in the file, and in every later state of the host. `repeated_revocation_lost` revokes a peer
that is revoked already: the entry is deleted when the file cannot be written, and the next revocation
of another peer writes the file without it.
-/

set_option autoImplicit false

namespace Vx6.Ipsec

open Vx6.Go Vx6.Lib Vx6.Lib.Replace Vx6.Record

/-! ## The file -/

/-- A file of the directory as `json.Unmarshal` reads it, nothing where that fails. -/
abbrev StateFile := Option (Dict String RevokedPeer)

/-- The name of the file. -/
def revokedPeers : String := "revoked-peers.json"

/-- What happens while a map is written: whether it can be encoded, the random part of the temporary
name, the stage of `writeAtomic` that fails, what a failed write leaves, and whether the temporary file
is removed. -/
structure Persisting where
  encoded : Bool := true
  random : String := "0"
  failed : Option Stage := none
  torn : StateFile := none
  removed : Bool := true

namespace Persisting

/-- The outcome of `writeAtomic`. -/
def attempt (p : Persisting) : Attempt String StateFile :=
  { temp := ".vx6-ipsec-" ++ p.random
    failed := p.failed
    torn := p.torn
    removed := p.removed }

/-- Nothing fails. -/
def succeeds (p : Persisting) : Bool := p.encoded && p.failed.isNone

end Persisting

/-- `writeAtomic`. An empty file cannot be decoded. -/
def writeAtomic (p : Persisting) (files : Dict String StateFile) (path : String) (data : StateFile) :
    Dict String StateFile × Except Stage Unit :=
  replace p.attempt none files path data

/-- Encode the map and write it. -/
def persist (p : Persisting) (files : Dict String StateFile) (revoked : Dict String RevokedPeer) :
    Dict String StateFile × Bool :=
  if p.encoded then
    let written := writeAtomic p files revokedPeers (some revoked)
    (written.1, written.2.isOk)
  else (files, false)

theorem persist_succeeds (p : Persisting) (files : Dict String StateFile)
    (revoked : Dict String RevokedPeer) : (persist p files revoked).2 = p.succeeds := by
  rw [persist, Persisting.succeeds]
  cases p.encoded with
  | true => exact isOk_replace
  | false => rfl

theorem revokedPeers_ne_temp (p : Persisting) : revokedPeers ≠ p.attempt.temp := by
  intro h
  have hfirst := congrArg (fun s : String => s.toList.head?) h
  simp [revokedPeers, Persisting.attempt] at hfirst

/-- The file after a map was written, or not. -/
theorem lookup_persist (p : Persisting) (files : Dict String StateFile)
    (revoked : Dict String RevokedPeer) :
    (persist p files revoked).1.lookup revokedPeers =
      if p.succeeds then some (some revoked) else files.lookup revokedPeers := by
  rw [persist, Persisting.succeeds]
  cases p.encoded with
  | false => rfl
  | true =>
    have hfile : (writeAtomic p files revokedPeers (some revoked)).1.lookup revokedPeers =
        if p.failed = none ∧ revokedPeers = revokedPeers then some (some revoked)
        else files.lookup revokedPeers := lookup_replace (revokedPeers_ne_temp p)
    simpa using hfile

/-! ## The host -/

/-- A manager with the files of its directory. -/
structure Host where
  manager : Manager
  files : Dict String StateFile := ∅

namespace Host

/-- `RevokePeer` with the file it writes. -/
def revokePeer (cr : Crypto) (h : Host) (peer : EndpointRecord) (now : Time) (p : Persisting)
    (c : Manager.RevokeCommands) : Host × Except Manager.RevokeError Unit :=
  let written := persist p h.files (h.manager.revoked.insert peer.nodeID ⟨peer.address, now⟩)
  let r := h.manager.revokePeer cr peer now { c with persisted := written.2 }
  match Manager.checkRevoke cr h.manager.node peer now with
  | .error _ => ({ h with manager := r.1 }, r.2)
  | .ok () => ({ manager := r.1, files := written.1 }, r.2)

/-- What `newManager` reads from the file: nothing is revoked where there is none. -/
def load (h : Host) : StateFile := (h.files.lookup revokedPeers).getD (some ∅)

/-- A new manager is made from the files; `readable` tells whether the file could be read. -/
def restart (cr : Crypto) (h : Host) (localAddress : String) (id : Identity) (readable : Bool) :
    Option Host := do
  let revoked ← h.load
  let m ← newManager cr h.manager.node.root localAddress id
    { revoked := revoked, confd := h.manager.confd } readable
  return { h with manager := m }

/-- The peer is revoked in the file. -/
def isRevokedOnDisk (h : Host) (nodeID : String) : Bool :=
  (h.load.bind fun revoked => revoked.lookup nodeID).isSome

/-- What a host does. -/
inductive Action where
  | revoke (peer : EndpointRecord) (now : Time) (p : Persisting) (c : Manager.RevokeCommands)
  | restart (localAddress : String) (id : Identity) (readable : Bool)

/-- One action; a restart fails where no manager can be made. -/
def step (cr : Crypto) (h : Host) : Action → Option Host
  | .revoke peer now p c => some (h.revokePeer cr peer now p c).1
  | .restart localAddress id readable => h.restart cr localAddress id readable

/-- A revocation that passes the checks and cannot be persisted is not a repeated one. -/
def FirstTime (cr : Crypto) (h : Host) : Action → Prop
  | .revoke peer now p _ => Manager.checkRevoke cr h.manager.node peer now = .ok () →
      p.succeeds = false → h.manager.isRevoked peer.nodeID = false
  | .restart _ _ _ => True

/-- The peer is revoked in the map and in the file. -/
structure Revoked (h : Host) (nodeID : String) : Prop where
  memory : h.manager.isRevoked nodeID = true
  disk : h.isRevokedOnDisk nodeID = true

/-! ## What one call does -/

/-- The ways in which `RevokePeer` ends, with the map and the file it leaves. -/
inductive Ends (cr : Crypto) (h : Host) (peer : EndpointRecord) (now : Time) (p : Persisting)
    (c : Manager.RevokeCommands) : Host → Except Manager.RevokeError Unit → Prop
  | rejected {e : Manager.RevokeError}
      (hcheck : Manager.checkRevoke cr h.manager.node peer now = .error e) :
      Ends cr h peer now p c h (.error e)
  | unsaved {t : Host} (hcheck : Manager.checkRevoke cr h.manager.node peer now = .ok ())
      (hfail : p.succeeds = false)
      (hmap : t.manager.revoked = h.manager.revoked.erase peer.nodeID)
      (hfile : t.files.lookup revokedPeers = h.files.lookup revokedPeers) :
      Ends cr h peer now p c t (.error .notPersisted)
  | saved {t : Host} (hsaved : p.succeeds = true)
      (hmap : t.manager.revoked = h.manager.revoked.insert peer.nodeID ⟨peer.address, now⟩)
      (hfile : t.files.lookup revokedPeers =
        some (some (h.manager.revoked.insert peer.nodeID ⟨peer.address, now⟩))) :
      Ends cr h peer now p c t (if c.succeeded cr peer.nodeID then .ok () else .error .incomplete)

variable {cr : Crypto} {h t : Host} {peer : EndpointRecord} {now : Time} {p : Persisting}
  {c : Manager.RevokeCommands} {nodeID : String}

/-- A call that passes the checks and cannot write the file. -/
theorem revokePeer_unsaved (c : Manager.RevokeCommands)
    (hcheck : Manager.checkRevoke cr h.manager.node peer now = .ok ()) (hfail : p.succeeds = false) :
    ∃ t : Host, h.revokePeer cr peer now p c = (t, .error .notPersisted) ∧
      t.manager.node = h.manager.node ∧
      t.manager.revoked = h.manager.revoked.erase peer.nodeID ∧
      t.files.lookup revokedPeers = h.files.lookup revokedPeers := by
  have hfile := lookup_persist p h.files (h.manager.revoked.insert peer.nodeID ⟨peer.address, now⟩)
  rw [hfail] at hfile
  simp only [revokePeer, Manager.revokePeer, persist_succeeds, hcheck, hfail]
  exact ⟨_, rfl, rfl, rfl, hfile⟩

/-- A call that passes the checks and writes the file. -/
theorem revokePeer_saved (c : Manager.RevokeCommands)
    (hcheck : Manager.checkRevoke cr h.manager.node peer now = .ok ()) (hsaved : p.succeeds = true) :
    ∃ t : Host, h.revokePeer cr peer now p c =
        (t, if c.succeeded cr peer.nodeID then .ok () else .error .incomplete) ∧
      t.manager.revoked = h.manager.revoked.insert peer.nodeID ⟨peer.address, now⟩ ∧
      t.files.lookup revokedPeers =
        some (some (h.manager.revoked.insert peer.nodeID ⟨peer.address, now⟩)) := by
  have hfile := lookup_persist p h.files (h.manager.revoked.insert peer.nodeID ⟨peer.address, now⟩)
  rw [hsaved] at hfile
  simp only [revokePeer, Manager.revokePeer, persist_succeeds, hcheck, hsaved]
  exact ⟨_, rfl, rfl, hfile⟩

theorem revokePeer_ends (cr : Crypto) (h : Host) (peer : EndpointRecord) (now : Time) (p : Persisting)
    (c : Manager.RevokeCommands) :
    Ends cr h peer now p c (h.revokePeer cr peer now p c).1 (h.revokePeer cr peer now p c).2 := by
  cases hcheck : Manager.checkRevoke cr h.manager.node peer now with
  | error e =>
    simp only [revokePeer, Manager.revokePeer, hcheck]
    exact .rejected hcheck
  | ok u =>
    cases hp : p.succeeds with
    | true =>
      obtain ⟨t, hcall, hmap, hfile⟩ := revokePeer_saved c hcheck hp
      rw [hcall]
      exact .saved hp hmap hfile
    | false =>
      obtain ⟨t, hcall, -, hmap, hfile⟩ := revokePeer_unsaved c hcheck hp
      rw [hcall]
      exact .unsaved hcheck hp hmap hfile

/-- The checks of `RevokePeer` do not report what comes after them. -/
theorem checkRevoke_ne_incomplete (cr : Crypto) (node : LocalNode) (peer : EndpointRecord)
    (now : Time) : Manager.checkRevoke cr node peer now ≠ .error .incomplete := by
  simp only [Manager.checkRevoke, rejectIf]
  cases verifyEndpointRecord cr peer now with
  | error e => simp [Except.mapError, bind, Except.bind]
  | ok u =>
    simp only [Except.mapError, bind, Except.bind]
    split_ifs <;> simp

theorem load_of_file {file : StateFile} (hfile : h.files.lookup revokedPeers = some file) :
    h.load = file := by
  rw [load, hfile, Option.getD_some]

theorem isRevokedOnDisk_of_load {revoked : Dict String RevokedPeer} (hload : h.load = some revoked) :
    h.isRevokedOnDisk nodeID = (revoked.lookup nodeID).isSome := by
  rw [isRevokedOnDisk, hload, Option.bind_some]

/-- A peer that a call has written is revoked in the map and in the file. -/
theorem revoked_of_saved
    (hmap : t.manager.revoked = h.manager.revoked.insert peer.nodeID ⟨peer.address, now⟩)
    (hfile : t.files.lookup revokedPeers =
      some (some (h.manager.revoked.insert peer.nodeID ⟨peer.address, now⟩)))
    (hid : nodeID = peer.nodeID ∨ h.manager.isRevoked nodeID = true) : t.Revoked nodeID := by
  have hlookup : ((h.manager.revoked.insert peer.nodeID
      (⟨peer.address, now⟩ : RevokedPeer)).lookup nodeID).isSome = true := by
    rw [Dict.lookup_insert_eq]
    split_ifs with hne
    · rfl
    · exact hid.resolve_left hne
  refine ⟨?_, ?_⟩
  · rw [Manager.isRevoked, hmap, hlookup]
  · rw [isRevokedOnDisk_of_load (load_of_file hfile), hlookup]

/-- The rollback changes nothing where there was no entry. -/
theorem erase_of_not_revoked (m : Manager) (hnot : m.isRevoked nodeID = false) :
    m.revoked.erase nodeID = m.revoked := by
  have hkeys : nodeID ∉ m.revoked.entries.keys := by
    intro hmem
    have hsome := (Dict.mem_keys_iff m.revoked nodeID).1 hmem
    rw [Manager.isRevoked, hsome] at hnot
    cases hnot
  exact AList.ext (List.kerase_of_notMem_keys hkeys)

/-! ## Runs -/

/-- A new manager has the map of the file. -/
theorem restart_revoked {localAddress : String} {id : Identity} {readable : Bool}
    (hstep : h.restart cr localAddress id readable = some t) :
    t.files = h.files ∧ h.load = some t.manager.revoked := by
  simp only [restart, Option.bind_eq_bind, Option.bind_eq_some_iff] at hstep
  obtain ⟨revoked, hload, m, hm, ht⟩ := hstep
  cases ht
  exact ⟨rfl, by rw [hload, newManager_revoked hm]⟩

/-- One action keeps a revoked peer revoked, unless it is a repeated revocation that fails. -/
theorem Revoked.step {a : Action} (hrev : h.Revoked nodeID) (hfirst : h.FirstTime cr a)
    (hstep : h.step cr a = some t) : t.Revoked nodeID := by
  cases a with
  | revoke peer now p c =>
    cases hstep
    have hends := revokePeer_ends cr h peer now p c
    generalize (h.revokePeer cr peer now p c).1 = t, (h.revokePeer cr peer now p c).2 = r at hends ⊢
    cases hends with
    | rejected hcheck => exact hrev
    | unsaved hcheck hfail hmap hfile =>
      rw [erase_of_not_revoked h.manager (hfirst hcheck hfail)] at hmap
      refine ⟨?_, ?_⟩
      · rw [Manager.isRevoked, hmap]
        exact hrev.memory
      · rw [isRevokedOnDisk, load, hfile]
        exact hrev.disk
    | saved hsaved hmap hfile => exact revoked_of_saved hmap hfile (.inr hrev.memory)
  | restart localAddress id readable =>
    obtain ⟨hfiles, hload⟩ := restart_revoked hstep
    have hdisk := hrev.disk
    refine ⟨?_, ?_⟩
    · rwa [isRevokedOnDisk_of_load hload] at hdisk
    · rwa [isRevokedOnDisk, load, hfiles]

/-- A revoked peer stays revoked, across restarts. -/
theorem Revoked.reach (hrev : h.Revoked nodeID) (hrun : Reach (Host.step cr) (FirstTime cr) h t) :
    t.Revoked nodeID := by
  have hkeeps : ∀ (s : Host) (a : Action) (u : Host), s.Revoked nodeID → s.FirstTime cr a →
      s.step cr a = some u → u.Revoked nodeID := fun _ _ _ hinv hfirst hstep => hinv.step hfirst hstep
  exact Reach.invariant hkeeps hrun hrev

end Host

/-! ## A failed revocation -/

/-- A revocation that cannot be persisted leaves the file as it was, and the map exactly when it is not a
repeated one that passes the checks. One that fails later leaves the peer revoked in the map and in the
file, now and in every later state of the host, restarts included. -/
theorem failed_revocation (cr : Crypto) (h : Host) (peer : EndpointRecord) (now : Time)
    (p : Persisting) (c : Manager.RevokeCommands) :
    (((h.revokePeer cr peer now p c).2 = .error .notPersisted →
      (h.revokePeer cr peer now p c).1.manager.revoked = h.manager.revoked ∧
        (h.revokePeer cr peer now p c).1.files.lookup revokedPeers = h.files.lookup revokedPeers) ↔
      h.FirstTime cr (.revoke peer now p c)) ∧
    ((h.revokePeer cr peer now p c).2 = .error .incomplete →
      (h.revokePeer cr peer now p c).1.Revoked peer.nodeID ∧
        ∀ t, Reach (Host.step cr) (Host.FirstTime cr) (h.revokePeer cr peer now p c).1 t →
          t.Revoked peer.nodeID) := by
  have hends := Host.revokePeer_ends cr h peer now p c
  generalize (h.revokePeer cr peer now p c).1 = t, (h.revokePeer cr peer now p c).2 = r at hends ⊢
  cases hends with
  | rejected hcheck =>
    refine ⟨iff_of_true (fun _ => ⟨rfl, rfl⟩) fun hok => ?_, fun he => ?_⟩
    · rw [hcheck] at hok
      cases hok
    · exact absurd (hcheck.trans he) (Host.checkRevoke_ne_incomplete cr _ peer now)
  | unsaved hcheck hfail hmap hfile =>
    refine ⟨⟨fun hkept _ _ => ?_, fun hfirst _ => ⟨?_, hfile⟩⟩, fun he => by cases he⟩
    · -- the entry of the peer is deleted, so there was none if the map is as before
      rw [Manager.isRevoked, ← (hkept rfl).1, hmap, Dict.lookup_erase_eq, if_pos rfl, Option.isSome_none]
    · rw [hmap, Host.erase_of_not_revoked h.manager (hfirst hcheck hfail)]
  | saved hsaved hmap hfile =>
    have hrev : t.Revoked peer.nodeID := Host.revoked_of_saved hmap hfile (.inl rfl)
    refine ⟨iff_of_true (fun he => ?_) fun _ hfail => ?_, fun _ => ⟨hrev, fun _ hrun => hrev.reach hrun⟩⟩
    · split_ifs at he
      cases he
    · rw [hsaved] at hfail
      cases hfail

/-- A host that has revoked one peer, in the map and in the file. -/
def Host.afterRevoking (node : LocalNode) (peer : EndpointRecord) (now : Time) : Host :=
  let revoked : Dict String RevokedPeer :=
    (∅ : Dict String RevokedPeer).insert peer.nodeID ⟨peer.address, now⟩
  { manager := { node := node, revoked := revoked }
    files := (∅ : Dict String StateFile).insert revokedPeers (some revoked) }

section AfterRevoking

variable {cr : Crypto} {node : LocalNode} {peer other : EndpointRecord} {now : Time} {p : Persisting}

theorem Host.afterRevoking_revoked : (Host.afterRevoking node peer now).Revoked peer.nodeID :=
  Host.revoked_of_saved (h := { manager := { node := node } }) rfl
    (by rw [Host.afterRevoking, Dict.lookup_insert_eq, if_pos rfl]) (.inl rfl)

/-- What a repeated revocation that fails costs: the entry in the map, and in the file as soon as
another peer is revoked. -/
theorem Host.repeated_lost (hpeer : Manager.checkRevoke cr node peer now = .ok ())
    (hother : Manager.checkRevoke cr node other now = .ok ()) (hne : peer.nodeID ≠ other.nodeID)
    (hfail : p.succeeds = false) :
    ∃ t, (Host.afterRevoking node peer now).revokePeer cr peer now p {} = (t, .error .notPersisted) ∧
      t.manager.isRevoked peer.nodeID = false ∧
      ∃ u, t.revokePeer cr other now {} {} = (u, .ok ()) ∧ u.manager.isRevoked peer.nodeID = false ∧
        u.isRevokedOnDisk peer.nodeID = false := by
  obtain ⟨t, hcall, hnode, hmap, -⟩ := Host.revokePeer_unsaved (h := .afterRevoking node peer now) {}
    hpeer hfail
  have hlost : t.manager.revoked.lookup peer.nodeID = none := by
    rw [hmap, Dict.lookup_erase_eq, if_pos rfl]
  have hother' : Manager.checkRevoke cr t.manager.node other now = .ok () := by
    rw [hnode]
    exact hother
  obtain ⟨u, hnext, hmap', hfile⟩ := Host.revokePeer_saved (p := {}) {} hother' rfl
  have hgone : (t.manager.revoked.insert other.nodeID
      (⟨other.address, now⟩ : RevokedPeer)).lookup peer.nodeID = none := by
    rw [Dict.lookup_insert_eq, if_neg hne, hlost]
  rw [succeeded_default, if_pos rfl] at hnext
  refine ⟨t, hcall, ?_, u, hnext, ?_, ?_⟩
  · rw [Manager.isRevoked, hlost, Option.isSome_none]
  · rw [Manager.isRevoked, hmap', hgone, Option.isSome_none]
  · rw [Host.isRevokedOnDisk_of_load (Host.load_of_file hfile), hgone, Option.isSome_none]

end AfterRevoking

theorem checkRevoke_sample {peer : EndpointRecord} (hpeer : peer ∈ peerSamples) :
    Manager.checkRevoke peerCrypto sampleNode peer peerNow = .ok () :=
  checkRevoke_of_accepted (acceptedPeer_sample hpeer)

theorem bravo_ne_charlie : bravoRecord.nodeID ≠ charlieRecord.nodeID := by decide

/-- A revoked peer is revoked again and the file cannot be renamed. -/
theorem repeated_revocation_lost :
    ∃ h t u : Host, h.Revoked bravoRecord.nodeID ∧
      h.revokePeer peerCrypto bravoRecord peerNow { failed := some .rename } {} =
        (t, .error .notPersisted) ∧ t.manager.isRevoked bravoRecord.nodeID = false ∧
      t.revokePeer peerCrypto charlieRecord peerNow {} {} = (u, .ok ()) ∧
        u.manager.isRevoked bravoRecord.nodeID = false ∧
        u.isRevokedOnDisk bravoRecord.nodeID = false := by
  obtain ⟨t, hcall, hmemory, u, hnext, hafter, hdisk⟩ :=
    Host.repeated_lost (p := { failed := some .rename })
      (checkRevoke_sample (by simp [peerSamples] : bravoRecord ∈ peerSamples))
      (checkRevoke_sample (by simp [peerSamples] : charlieRecord ∈ peerSamples)) bravo_ne_charlie rfl
  exact ⟨_, t, u, Host.afterRevoking_revoked, hcall, hmemory, hnext, hafter, hdisk⟩

end Vx6.Ipsec
