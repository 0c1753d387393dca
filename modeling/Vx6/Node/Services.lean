import Vx6.Go.Sha256
import Vx6.Lib.Dict
import Vx6.Record.Endpoint

/-!
# Access to local services

A node offers local TCP targets to its peers under service names. Two request paths end in a dial
of such a target: a direct service connection (`serviceproxy.HandleInboundWithPolicy`), and the
owner side of a rendezvous (`hidden.handleIntroNotify`, which ends in `serviceproxy.HandleInbound`).
The first is given the policies of the configuration, the second only its name-to-target map, which
has the same names in it.

The model covers `internal/serviceproxy/proxy.go`, the dispatch of `internal/node/node.go`, the
owner side of `internal/hidden/hidden.go` and the service entries of `internal/config/config.go`.
What the network does (handshakes, circuits, decoded requests) is part of a `Connection`.
`direct_authorised` is the access rule of the direct path; `private_mediated_iff` says for which
nodes the rule holds on every path.
-/

set_option autoImplicit false

namespace Vx6.Node

open Vx6.Go Vx6.Lib Vx6.Record

/-! ## Service entries of the configuration -/

/-- `config.ServiceEntry`, the fields that decide who may reach the target. -/
structure ServiceEntry where
  target : String := ""
  aliasName : String := ""
  isHidden : Bool := false
  isPrivate : Bool := false
  allowedNodeIDs : List String := []
  deriving DecidableEq, Repr

/-- The errors of `validateServicePolicies`. -/
inductive ConfigError where
  | hiddenWithAllowedIDs (name : String)
  | invalidAllowedNodeID (name nodeID : String)
  deriving DecidableEq, Repr

/-- `uniqueSortedStrings`. -/
def uniqueSortedStrings (values : List String) : List String :=
  (((values.map trimSpace).filter (· ≠ "")).dedup).insertionSort (· ≤ ·)

/-- The shape of an allowed NodeID: `vx6_` and 64 lower-case hexadecimal digits. -/
def validAllowedNodeID (nodeID : String) : Bool :=
  len nodeID = 68 && hasPrefix nodeID "vx6_" && toLower nodeID = nodeID &&
    (hexDecode (trimPrefix nodeID "vx6_")).isSome

/-- The checks of `validateServicePolicies` on one entry. -/
def validateServicePolicy (name : String) (service : ServiceEntry) : Except ConfigError Unit := do
  rejectIf (service.isHidden && !service.allowedNodeIDs.isEmpty) (.hiddenWithAllowedIDs name)
  service.allowedNodeIDs.forM fun nodeID =>
    rejectIf (!validAllowedNodeID nodeID) (.invalidAllowedNodeID name nodeID)

/-- `validateServicePolicies`. -/
def validateServicePolicies (services : Dict String ServiceEntry) : Except ConfigError Unit :=
  services.entries.forM fun e => validateServicePolicy e.1 e.2

/-- `normalize` on one entry: hidden wins over private, and a private entry has no alias. -/
def ServiceEntry.normalize (svc : ServiceEntry) : ServiceEntry :=
  let isPrivate := svc.isPrivate && !svc.isHidden
  { svc with
    allowedNodeIDs := uniqueSortedStrings svc.allowedNodeIDs
    isPrivate := isPrivate
    aliasName := if isPrivate then "" else svc.aliasName }

/-- The services that `Store.Load` returns for the services of the file. -/
def loadServices (services : Dict String ServiceEntry) :
    Except ConfigError (Dict String ServiceEntry) := do
  validateServicePolicies services
  return services.mapVal fun _ svc => svc.normalize

/-- `serviceproxy.ServicePolicy`. -/
structure ServicePolicy where
  target : String
  isPrivate : Bool
  allowedNodeIDs : List String
  deriving DecidableEq, Repr

/-- `ServicePolicy.Allows`. -/
def ServicePolicy.allows (p : ServicePolicy) (nodeID : String) : Bool :=
  !p.isPrivate || (nodeID ≠ "" && p.allowedNodeIDs.contains nodeID)

/-- The policy map that `RefreshServicePolicies` builds. -/
def servicePolicies (entries : Dict String ServiceEntry) : Dict String ServicePolicy :=
  entries.mapVal fun _ svc => ⟨svc.target, svc.isPrivate, svc.allowedNodeIDs⟩

/-- `serviceTargets`: the name-to-target map of the rendezvous path. -/
def serviceTargets (entries : Dict String ServiceEntry) : Dict String String :=
  entries.mapVal fun _ svc => svc.target

/-- `hiddenAliasMap`. -/
def hiddenAliasMap (entries : Dict String ServiceEntry) : Dict String String :=
  entries.entries.foldl (fun out e =>
    if e.2.isHidden && e.2.aliasName ≠ "" then out.insert e.2.aliasName e.1 else out) ∅

/-! ## The two proxy handlers -/

/-- `serviceproxy.ConnectRequest`. -/
structure ConnectRequest where
  version : Int := 1
  action : String := "open"
  serviceName : String
  deriving DecidableEq, Repr

/-- The errors of `ConnectRequest.Validate`. -/
inductive RequestError where
  | versionOrAction
  | nameEmpty
  | nameDots (name : String)
  deriving DecidableEq, Repr

/-- The errors of the two handlers before the dial. -/
inductive ServiceError where
  | handshake
  | decodeRequest
  | invalidRequest (e : RequestError)
  | unavailable
  | notFound (name : String)
  | dialTarget
  deriving DecidableEq, Repr

/-- `record.ValidateServiceName`. -/
def validateServiceName (name : String) : Except RequestError Unit := do
  rejectIf (name = "") .nameEmpty
  rejectIf (contains name ".") (.nameDots name)

/-- `ConnectRequest.Validate`. -/
def ConnectRequest.validate (r : ConnectRequest) : Except RequestError Unit := do
  rejectIf (r.version ≠ 1 || r.action ≠ "open") .versionOrAction
  validateServiceName r.serviceName

/-- The far end of an application session: `readHello` has bound its NodeID to this key. -/
abbrev SessionPeer := {key : Bytes // key.length = publicKeySize}

/-- The authenticated NodeID of a session. -/
def SessionPeer.nodeID (cr : Crypto) (peer : SessionPeer) : String :=
  nodeIDFromPublicKey cr peer.1

/-- A dial of a local target: who asked, for which service, and the target. -/
structure Dial where
  requester : String
  service : String
  target : String
  deriving DecidableEq, Repr

/-- `net.Dial("tcp", target)` fails on an empty target without opening a connection. -/
def dialTarget (requester service target : String) : Except ServiceError Dial := do
  rejectIf (target = "") .dialTarget
  return ⟨requester, service, target⟩

section Handlers

variable (cr : Crypto)

/-- The test of `HandleInboundWithPolicy` on a private service: the record of the IKE peer verifies
and its NodeID is allowed. -/
def checkPrivate (policy : ServicePolicy) (ikePeer : EndpointRecord) (now : Time) :
    Except ServiceError Unit :=
  if policy.isPrivate then do
    let verifiedPeer ← (verifyEndpoint cr ikePeer now).mapError fun _ => .unavailable
    rejectIf (!policy.allows verifiedPeer.record.nodeID) .unavailable
  else .ok ()

/-- `HandleInboundWithPolicy`, from the request that `strictjson.Decode` returns. -/
def handleInboundWithPolicy (services : Dict String ServicePolicy) (ikePeer : EndpointRecord)
    (request : Option ConnectRequest) (now : Time) : Except ServiceError Dial := do
  let req ← orReject request .decodeRequest
  req.validate.mapError .invalidRequest
  let policy ← orReject (services.lookup req.serviceName) .unavailable
  rejectIf (policy.target = "") .unavailable
  checkPrivate cr policy ikePeer now
  dialTarget ikePeer.nodeID req.serviceName policy.target

/-- `HandleInbound`: the request that `json.Unmarshal` returns is not validated, and no policy is
consulted. The peer is absent when the secure handshake fails. -/
def handleInbound (services : Dict String String) (peer : Option SessionPeer)
    (request : Option ConnectRequest) : Except ServiceError Dial := do
  let peer ← orReject peer .handshake
  let req ← orReject request .decodeRequest
  let target ← orReject (services.lookup req.serviceName) (.notFound req.serviceName)
  dialTarget (peer.nodeID cr) req.serviceName target

end Handlers

/-! ## The owner side of a rendezvous -/

/-- `proto.KindServiceConn`. -/
def kindServiceConn : UInt8 := 4

/-- The actions of a hidden control message. -/
inductive Action where
  | introRegister | guardRegister | introRequest | guardNotify | introNotify | rvJoin | rvRegister
  | unknown (name : String)
  deriving DecidableEq, Repr

/-- `hidden.Message`, the fields that the owner side reads before it plans a circuit. -/
structure Message where
  action : Action
  service : String
  rendezvousCandidates : List String
  deriving DecidableEq, Repr

/-- `hidden.HandlerConfig`. -/
structure HandlerConfig where
  services : Dict String String
  hiddenAliases : Dict String String
  hasRegistry : Bool

/-- What the attempt at one rendezvous candidate comes to. -/
inductive Attempt where
  /-- The circuit, the control session, the registration or the readiness message failed. -/
  | failed
  /-- The joined stream ended before a header. -/
  | noHeader
  /-- The joined stream carries a request of some kind. -/
  | followUp (kind : UInt8) (peer : Option SessionPeer) (request : Option ConnectRequest)

/-- The errors of the hidden control path. -/
inductive HiddenError where
  | control
  | noRegistry
  | notHosted (service : String)
  | noRendezvous
  | header
  | followUpKind (kind : UInt8)
  | proxy (e : ServiceError)
  | unknownAction (name : String)
  deriving DecidableEq, Repr

/-- `resolveHostedService`. -/
def resolveHostedService (lookup : String) (cfg : HandlerConfig) : String :=
  let name := (cfg.hiddenAliases.lookup lookup).getD ""
  if name ≠ "" then name
  else if (cfg.services.lookup lookup).isSome then lookup
  else if contains lookup "." then
    let last := (split lookup '.').getLastD ""
    if (cfg.services.lookup last).isSome then last else ""
  else ""

/-- `sanitizeAddressList`. -/
def sanitizeAddressList (addrs : List String) : List String :=
  (addrs.filter (· ≠ "")).eraseDups

section Owner

variable (cr : Crypto) (attempt : String → Attempt)

/-- The loop of `handleIntroNotify` over the rendezvous candidates. -/
def joinCandidates (services : Dict String String) : List String → Except HiddenError Dial
  | [] => .error .noRendezvous
  | candidate :: rest =>
    match attempt candidate with
    | .failed => joinCandidates services rest
    | .noHeader => .error .header
    | .followUp kind peer request =>
      if kind = kindServiceConn then (handleInbound cr services peer request).mapError .proxy
      else .error (.followUpKind kind)

/-- `handleIntroNotify`: the service that the notification names has to be hosted here, but it is
the later request that names the service that is dialled. -/
def handleIntroNotify (msg : Message) (cfg : HandlerConfig) : Except HiddenError Dial := do
  rejectIf (!cfg.hasRegistry) .noRegistry
  rejectIf (resolveHostedService msg.service cfg = "") (.notHosted msg.service)
  joinCandidates cr attempt cfg.services (sanitizeAddressList msg.rendezvousCandidates)

/-- `HandleConn`, from the validated control message. The registrations, the forwarded
notifications and the rendezvous itself dial no local target. -/
def handleConn (guardServices : List String) (control : Option Message) (cfg : HandlerConfig) :
    Except HiddenError (Option Dial) := do
  let msg ← orReject control .control
  match msg.action with
  | .introRegister | .guardRegister | .introRequest | .rvJoin | .rvRegister => return none
  | .guardNotify =>
    if msg.service ∈ guardServices then return none
    else return some (← handleIntroNotify cr attempt msg cfg)
  | .introNotify => return some (← handleIntroNotify cr attempt msg cfg)
  | .unknown name => .error (.unknownAction name)

end Owner

/-! ## The node -/

/-- The state of a node that a connection finds. -/
structure Host where
  /-- The entries loaded when the node was started. -/
  startup : Dict String ServiceEntry
  /-- The services of the configuration file, absent when the file cannot be read. -/
  file : Option (Dict String ServiceEntry)
  hasRegistry : Bool
  relayOn : Bool
  relayActive : Nat
  relayBudget : Nat
  /-- The services for which this node is a guard. -/
  guardServices : List String
  /-- The node holds a registration with a guard for a hidden service of its own. -/
  guardRegistered : Bool

/-- A connection to the node, with what the network makes of it. -/
inductive Connection where
  /-- A direct service connection from an authenticated IKE peer. -/
  | service (ikePeer : EndpointRecord) (request : Option ConnectRequest)
  /-- A hidden control connection; the message is absent when the handshake or its checks fail. -/
  | rendezvous (control : Option Message) (attempt : String → Attempt)
  /-- A message on the control connection that the node keeps to its own guard. -/
  | guardCallback (msg : Message) (attempt : String → Attempt)
  /-- Any other kind; none of them asks for a service. -/
  | other (kind : UInt8)

namespace Host

/-- The entries that the file yields now. -/
def loaded (host : Host) : Option (Dict String ServiceEntry) :=
  host.file.bind fun services => (loadServices services).toOption

/-- The entries in force: those of the file, or those of the start if the file does not load. -/
def entries (host : Host) : Dict String ServiceEntry := host.loaded.getD host.startup

/-- The handler configuration that `node.go` builds for a hidden control connection. -/
def handlerConfig (host : Host) : HandlerConfig where
  services := serviceTargets host.entries
  hiddenAliases := (host.loaded.map hiddenAliasMap).getD ∅
  hasRegistry := host.hasRegistry

/-- `relayGovernor.Acquire` for a relay kind. -/
def admitsRelay (host : Host) : Bool := host.relayOn && host.relayActive < host.relayBudget

/-- The dial of a local target that a connection leads to. -/
def serve (cr : Crypto) (host : Host) (now : Time) : Connection → Option Dial
  | .service ikePeer request =>
    (handleInboundWithPolicy cr (servicePolicies host.entries) ikePeer request now).toOption
  | .rendezvous control attempt =>
    if host.admitsRelay then
      (handleConn cr attempt host.guardServices control host.handlerConfig).toOption.join
    else none
  | .guardCallback msg attempt =>
    if host.guardRegistered && msg.action = .introNotify then
      (handleIntroNotify cr attempt msg host.handlerConfig).toOption
    else none
  | .other _ => none

end Host

/-- A peer that meets the owner at the rendezvous and asks for `name`. -/
def meeting (name : String) (peer : SessionPeer) : String → Attempt :=
  fun _ => .followUp kindServiceConn (some peer) (some { serviceName := name })

end Vx6.Node
