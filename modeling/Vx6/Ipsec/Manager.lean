import Vx6.Ipsec.Peer
import Vx6.Lib.Run

/-!
# The tunnel manager

`PreparePeer`, `EnsurePeer`, `AuthenticatePeer` and `RevokePeer` of `internal/ipsec/manager.go`. The
outcomes of file writes and of `swanctl` are inputs, and each call is one function of the manager
before it. Calls that run beside one another are in `Vx6.Ipsec.Runs`.
-/

set_option autoImplicit false

namespace Vx6.Ipsec

open Vx6.Go Vx6.Lib Vx6.Record

/-! ## State -/

/-- `revokedPeer`. -/
structure RevokedPeer where
  address : String
  revokedAt : Time
  deriving DecidableEq, Repr

/-- `Manager`: the local node, the three maps, and the connection files under `conf.d`, each with the
record it was written for. -/
structure Manager where
  node : LocalNode
  peers : Dict String EndpointRecord := ∅
  verified : Dict String Time := ∅
  revoked : Dict String RevokedPeer := ∅
  confd : Dict String EndpointRecord := ∅

/-- `saVerificationCache`. -/
def saVerificationCache : Duration := 3 * second

/-- `childSAInstalled`: the listing has a line with exactly this label that says `INSTALLED`. -/
def childSAInstalled (output child : String) : Bool :=
  (split output '\n').any fun line =>
    match cut (trimSpace line) ':' with
    | some (label, rest) => label = child && contains rest "INSTALLED"
    | none => false

/-! ## PreparePeer -/

/-- What `writeFiles` did. When it fails, the connection file may have been replaced already. -/
inductive WriteOutcome where
  | all
  | failed (connectionWritten : Bool)
  deriving DecidableEq, Repr

/-- The outcomes of the writes and commands of `preparePeer`. -/
structure PrepareCommands where
  writes : WriteOutcome := .all
  loadCreds : Bool := true
  loadConns : Bool := true

/-- What `preparePeer` left behind: the manager, the result, the connection files that
`swanctl --load-conns` read if it was run, and whether the record was installed. -/
structure Prepared where
  manager : Manager
  result : Except PeerError Unit
  loaded : Option (List EndpointRecord) := none
  installed : Bool := false

namespace Manager

/-- The record that is installed for the peer has the same signature and address. -/
def hasInstalled (m : Manager) (peer : EndpointRecord) : Bool :=
  match m.peers.lookup peer.nodeID with
  | some existing => existing.signature = peer.signature && existing.address = peer.address
  | none => false

/-- The peer has been revoked. -/
def isRevoked (m : Manager) (nodeID : String) : Bool := (m.revoked.lookup nodeID).isSome

/-- The part of `writeFiles` that concerns the connection file. -/
def writeConnection (cr : Crypto) (m : Manager) (peer : EndpointRecord) : Manager :=
  { m with confd := m.confd.insert (connectionName cr peer.nodeID) peer }

/-- The records whose connection files stand in `conf.d`. -/
def connectionFiles (m : Manager) : List EndpointRecord := m.confd.entries.map fun e => e.2

/-- The manager with the peer's record installed. -/
def install (m : Manager) (peer : EndpointRecord) : Manager :=
  { m with
    peers := m.peers.insert peer.nodeID peer
    verified := m.verified.erase peer.nodeID }

/-- `preparePeer`. -/
def preparePeer (cr : Crypto) (m : Manager) (peer : EndpointRecord) (now : Time)
    (c : PrepareCommands) : Prepared :=
  match checkPeer cr m.node (m.isRevoked peer.nodeID) peer now with
  | .error e => { manager := m, result := .error e }
  | .ok () =>
      if m.hasInstalled peer then { manager := m, result := .ok () }
      else
        match c.writes with
        | .failed true => { manager := m.writeConnection cr peer, result := .error .notWritten }
        | .failed false => { manager := m, result := .error .notWritten }
        | .all =>
            let written := m.writeConnection cr peer
            if !c.loadCreds then { manager := written, result := .error .credentialsNotLoaded }
            else if !c.loadConns then
              -- the command may have loaded some of the files before it failed
              { manager := written, result := .error .connectionNotLoaded,
                loaded := some written.connectionFiles }
            else
              { manager := written.install peer, result := .ok (),
                loaded := some written.connectionFiles, installed := true }

/-! ## EnsurePeer -/

/-- `saRecentlyVerified`. -/
def saRecentlyVerified (m : Manager) (nodeID : String) (now : Time) : Bool :=
  match m.verified.lookup nodeID with
  | some verifiedAt => now - verifiedAt < saVerificationCache
  | none => false

/-- The update `m.verified[nodeID] = time.Now()`. -/
def markVerified (m : Manager) (nodeID : String) (now : Time) : Manager :=
  { m with verified := m.verified.insert nodeID now }

/-- `childInstalled`: `output` is the listing, `none` where the command failed. -/
def childInstalled (m : Manager) (nodeID child : String) (output : Option String) (now : Time) :
    Manager × Bool :=
  match output with
  | some out => if childSAInstalled out child then (m.markVerified nodeID now, true) else (m, false)
  | none => (m, false)

/-- The outcomes of the commands of `EnsurePeer`. -/
structure EnsureCommands where
  prepare : PrepareCommands := {}
  listing : Option String := none
  initiated : Bool := true
  confirmation : Option String := none

/-- `EnsurePeer` after `preparePeer`. -/
def ensureTunnel (cr : Crypto) (m : Manager) (nodeID : String) (now : Time) (c : EnsureCommands) :
    Manager × Except PeerError Unit :=
  let child := outboundChild (connectionName cr nodeID)
  if m.isRevoked nodeID then (m, .error (.revoked nodeID))
  else if m.saRecentlyVerified nodeID now then (m, .ok ())
  else
    let first := m.childInstalled nodeID child c.listing now
    if first.2 then (first.1, .ok ())
    else if !c.initiated then (first.1, .error .negotiationFailed)
    else if c.confirmation.isNone then (first.1, .error .queryFailed)
    else
      let second := first.1.childInstalled nodeID child c.confirmation now
      if second.2 then (second.1, .ok ()) else (second.1, .error .notInstalled)

/-- `EnsurePeer`. -/
def ensurePeer (cr : Crypto) (m : Manager) (peer : EndpointRecord) (now : Time)
    (c : EnsureCommands) : Manager × Except PeerError Unit :=
  let prepared := m.preparePeer cr peer now c.prepare
  match prepared.result with
  | .error e => (prepared.manager, .error e)
  | .ok () => prepared.manager.ensureTunnel cr peer.nodeID now c

/-! ## RevokePeer -/

/-- The errors of `RevokePeer`; `incomplete` joins the failures after the revocation was persisted. -/
inductive RevokeError where
  | unverified (e : RecordError)
  | invalidNodeID
  | notIPv6
  | notPersisted
  | incomplete
  deriving DecidableEq, Repr

/-- The outcomes of the writes and commands of `RevokePeer`. -/
structure RevokeCommands where
  persisted : Bool := true
  listing : Option String := some ""
  terminated : Bool := true
  firewalled : Bool := true
  uninstalledOutbound : Bool := true
  uninstalledInbound : Bool := true

/-- The checks of `RevokePeer`. -/
def checkRevoke (cr : Crypto) (node : LocalNode) (peer : EndpointRecord) (now : Time) :
    Except RevokeError Unit := do
  (verifyEndpointRecord cr peer now).mapError .unverified
  rejectIf (!safeNodeID peer.nodeID || peer.nodeID = node.nodeID) .invalidNodeID
  rejectIf (!isIPv6Endpoint peer.address) .notIPv6

/-- No command after the revocation was persisted failed. -/
def RevokeCommands.succeeded (cr : Crypto) (nodeID : String) (c : RevokeCommands) : Bool :=
  let name := connectionName cr nodeID
  (match c.listing with
    | none => false
    | some out =>
        !(contains out name && (contains out "ESTABLISHED" || contains out "INSTALLED")) ||
          c.terminated) &&
    c.firewalled && c.uninstalledOutbound && c.uninstalledInbound

/-- `RevokePeer`. When the state cannot be persisted the entry is deleted, also one that stood there
before. -/
def revokePeer (cr : Crypto) (m : Manager) (peer : EndpointRecord) (now : Time)
    (c : RevokeCommands) : Manager × Except RevokeError Unit :=
  match checkRevoke cr m.node peer now with
  | .error e => (m, .error e)
  | .ok () =>
      let dropped := { m with verified := m.verified.erase peer.nodeID }
      if c.persisted then
        ({ dropped with revoked := m.revoked.insert peer.nodeID ⟨peer.address, now⟩ },
          if c.succeeded cr peer.nodeID then .ok () else .error .incomplete)
      else ({ dropped with revoked := m.revoked.erase peer.nodeID }, .error .notPersisted)

/-! ## AuthenticatePeer -/

/-- The address of the remote side of a connection. -/
def remoteIP (remoteAddress : String) : Option IP :=
  match splitHostPort remoteAddress with
  | some (host, _) =>
      match parseIP host with
      | some ip => if (IP.to4 ip).isSome then none else some ip
      | none => none
  | none => none

/-- A configured peer that can be the remote side. -/
def isCandidate (cr : Crypto) (m : Manager) (ip : IP) (now : Time) (candidate : EndpointRecord) :
    Bool :=
  (match splitHostPort candidate.address with
    | some (host, _) => parseIP host = some ip
    | none => false) &&
    (verifyEndpointRecord cr candidate now).isOk && !m.isRevoked candidate.nodeID

/-- The candidates `AuthenticatePeer` collects, in the order in which it iterates over the map. -/
def candidates (cr : Crypto) (m : Manager) (remoteAddress : String) (now : Time)
    (order : List String) : List EndpointRecord :=
  match remoteIP remoteAddress with
  | some ip => (order.filterMap fun id => m.peers.lookup id).filter (m.isCandidate cr ip now)
  | none => []

/-- The loop of `AuthenticatePeer` over its candidates; `listing` is the output for a connection
name. -/
def firstInstalled (cr : Crypto) (now : Time) (listing : String → Option String) :
    Manager → List EndpointRecord → Manager × Option EndpointRecord
  | m, [] => (m, none)
  | m, peer :: rest =>
      let name := connectionName cr peer.nodeID
      let checked := m.childInstalled peer.nodeID (inboundChild name) (listing name) now
      if checked.2 then (checked.1, some peer) else firstInstalled cr now listing checked.1 rest

/-- `AuthenticatePeer`. -/
def authenticatePeer (cr : Crypto) (m : Manager) (remoteAddress : String) (now : Time)
    (order : List String) (listing : String → Option String) : Manager × Option EndpointRecord :=
  firstInstalled cr now listing m (m.candidates cr remoteAddress now order)

end Manager

end Vx6.Ipsec
