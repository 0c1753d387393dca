import Vx6.Ipsec.Firewall
import Vx6.Ipsec.Runs

/-!
# The IPsec service

The requests of `serveIPCConn` in `internal/ipsec/ipc.go`, with the manager that is made from the files
under its directory and the packet filter that all managers share.
-/

set_option autoImplicit false

namespace Vx6.Ipsec

open Vx6.Go Vx6.Lib Vx6.Record

/-! ## State -/

/-- What stands under a manager's directory: `revoked-peers.json` and `conf.d`. -/
structure StateDir where
  revoked : Dict String RevokedPeer := ∅
  confd : Dict String EndpointRecord := ∅

/-- The order in which a map is iterated over. -/
structure MapOrder where
  order : List String → List String
  perm : ∀ keys, (order keys).Perm keys

/-- The requests, with the outcomes of what is run for them. -/
inductive Operation where
  | check
  | registerProbePort (port : String) (applied : Bool)
  | prepare (peer : EndpointRecord) (c : PrepareCommands)
  | ensure (peer : EndpointRecord) (c : Manager.EnsureCommands)
  | revoke (peer : EndpointRecord) (c : Manager.RevokeCommands) (applied : Bool)
  | authenticate (remote : String) (order : MapOrder) (listing : String → Option String)
  | unsupported

/-- The errors of a request. -/
inductive ServeError where
  | unauthorized
  | invalidIdentity
  | invalidLocalAddress
  | notInitialized
  | notRestored
  | notRegistered
  | unsupported
  | firewall (e : FirewallError)
  | peer (e : PeerError)
  | revoke (e : Manager.RevokeError)

/-- `ipcResponse`: the record of an authenticated peer, if there is one. -/
abbrev Response := Except ServeError (Option EndpointRecord)

/-! ## Requests -/

/-- `newManager`. -/
def newManager (cr : Crypto) (root localAddress : String) (id : Identity) (dir : StateDir)
    (readable : Bool) : Option Manager := do
  guard ((id.validate cr).isOk && safeNodeID id.nodeID)
  let (host, port) ← splitHostPort localAddress
  let ip ← parseIP host
  guard ((IP.to4 ip).isNone && root ≠ "" && readable)
  return {
    node := { nodeID := id.nodeID, localIP := ip, localPort := port, root := root }
    revoked := dir.revoked
    confd := dir.confd }

/-- What an operation left behind, with whether it wrote `revoked-peers.json`. -/
structure Performed where
  manager : Manager
  firewall : FirewallState
  saved : Bool := false
  response : Response

/-- The switch over the operations. -/
def perform (cr : Crypto) (m : Manager) (fw : FirewallState) (now : Time) : Operation → Performed
  | .check => { manager := m, firewall := fw, response := .ok none }
  | .registerProbePort port applied =>
      let r := fw.registerProbePort port applied
      { manager := m, firewall := r.1, response := (r.2.mapError .firewall).map fun _ => none }
  | .prepare peer c =>
      let p := m.preparePeer cr peer now c
      { manager := p.manager, firewall := fw,
        response := (p.result.mapError .peer).map fun _ => none }
  | .ensure peer c =>
      let r := m.ensurePeer cr peer now c
      { manager := r.1, firewall := fw, response := (r.2.mapError .peer).map fun _ => none }
  | .revoke peer c applied =>
      let saved := (Manager.checkRevoke cr m.node peer now).isOk && c.persisted
      let blocked := fw.revoke peer.nodeID peer.address applied
      let r := m.revokePeer cr peer now { c with firewalled := blocked.2.isOk }
      { manager := r.1, firewall := if saved then blocked.1 else fw, saved := saved,
        response := (r.2.mapError .revoke).map fun _ => none }
  | .authenticate remote order listing =>
      let r := m.authenticatePeer cr remote now (order.order m.peers.keys) listing
      { manager := r.1, firewall := fw, response := .ok r.2 }
  | .unsupported => { manager := m, firewall := fw, response := .error .unsupported }

theorem newManager_revoked {cr : Crypto} {root localAddress : String} {id : Identity} {dir : StateDir}
    {readable : Bool} {m : Manager} (h : newManager cr root localAddress id dir readable = some m) :
    m.revoked = dir.revoked := by
  simp only [newManager, Option.bind_eq_bind, Option.bind_eq_some_iff] at h
  obtain ⟨-, -, ⟨host, port⟩, -, ip, -, -, -, hm⟩ := h
  rw [← Option.some.inj hm]

end Vx6.Ipsec
