import Vx6.Dht.Store
import Vx6.Dht.Walk
import Vx6.Dht.Wire

/-!
# Answering requests

`HandleDHT` of `dht.go`: the responder checks a request, counts it against the rate limit of hidden
descriptors, and then refers, looks up or stores. An address update that is refused ends the connection
without a reply. A refused store request is answered like an accepted one.
-/

set_option autoImplicit false

namespace Vx6.Dht

open Vx6.Go Vx6.Lib Vx6.Record

/-! ## The responder -/

/-- The fields of `Server` that requests use. -/
structure Responder where
  store : Server := {}
  table : Table
  limits : LookupLimits := defaultLookupLimits
  hiddenRates : Dict String RateWindow := ∅

/-- `DHTResponse`. -/
structure DHTResponse where
  version : UInt8 := dhtWireVersion
  type : DHTRequestType
  nodes : List NodeInfo := []
  value : String := ""
  deriving DecidableEq

/-- The errors with which `HandleDHT` ends without a reply. -/
inductive HandleError where
  | request (e : RequestError)
  /-- `reject invalid signed endpoint update: %w` -/
  | invalid (e : ValueError)
  /-- `endpoint update is not verified` -/
  | unverified
  /-- `decode signed endpoint update: %w` -/
  | decode
  /-- `reject invalid signed endpoint update: %w` for the record itself -/
  | endpoint (e : RecordError)
  /-- `endpoint update target does not match signed identity` -/
  | target
  | refused (e : AdmitError)
  | store (e : StoreError)
  deriving DecidableEq

/-- What `HandleDHT` meets while it runs: the address of the peer, the clock each time it is read, the
outcome of a `PutValue`, and what other requests do to the store between admission and storing. -/
structure Meeting where
  remoteAddr : String
  arrived : Time
  referred : Time
  validated : Time
  verified : Time
  admitted : Time
  stored : Time
  putOk : Bool := true
  interim : Server → Server := id

/-! ## Rates of hidden descriptors -/

/-- `hiddenDescriptorLookupRateWindow`. -/
def hiddenDescriptorLookupRateWindow : Duration := 30 * second

/-- `hiddenDescriptorLookupRateLimit`. -/
def hiddenDescriptorLookupRateLimit : Int := 48

/-- The window and the limit of an action, and its name in the key of the counter. -/
def hiddenRate : DHTAction → Option (Duration × Int × String)
  | .findValue => some (hiddenDescriptorLookupRateWindow, hiddenDescriptorLookupRateLimit, "find_value")
  | .store => some (hiddenDescriptorStoreRateWindow, hiddenDescriptorStoreRateLimit, "store")
  | _ => none

/-- `allowHiddenDescriptorRequest`: the counters after the request, and whether it is allowed. -/
def allowHiddenDescriptorRequest (rates : Dict String RateWindow) (remoteAddr : String)
    (action : DHTAction) (now : Time) : Dict String RateWindow × Bool :=
  match hiddenRate action with
  | none => (rates, true)
  | some (window, limit, name) =>
    let host := match splitHostPort remoteAddr with
      | some (host, _) => host
      | none => remoteAddr
    let rates := rates.filter fun _ counter => !decide (window * 2 < sub now counter.windowStart)
    allowRateWindowLocked rates (name ++ "\n" ++ host) now window limit

/-! ## Referrals -/

/-- The peers that `HandleDHT` refers to. -/
def referrals (rt : Runtime) (q : Responder) (r : DHTRequest) (now : Time) : List NodeInfo :=
  let count := (lookupLimits q.limits).maxReferrals
  match r.action, r.type with
  | .findNode, .bootstrap =>
    q.table.closestNodesForBootstrap rt r.target count (!hasPrefix r.target "vx6_") now
  | .findNode, .lookupName => q.table.closestNodesByNameHash rt.toCrypto r.target count
  | .findNode, _ => q.table.closestNodes rt.toCrypto (trimPrefix r.target "node/id/") count
  | _, .lookupName => q.table.closestNodesByNameHash rt.toCrypto r.target count
  | _, _ => q.table.closestNodes rt.toCrypto r.target count

/-! ## Storing -/

/-- The checks on an address update: the value, the record in it, and the key it is for. -/
def checkUpdate (rt : Runtime) (m : Meeting) (r : DHTRequest) : Except HandleError Unit := do
  let validated ← (validateLookupValue rt r.target r.data m.validated).mapError .invalid
  rejectIf (!validated.verified) .unverified
  let endpoint ← orReject (rt.decodeEndpoint validated.raw) .decode
  (verifyEndpointRecord rt.toCrypto endpoint m.verified).mapError .endpoint
  rejectIf (!(r.target = nodeIDKey endpoint.nodeID ||
    r.target = nodeNameKey rt.toCrypto endpoint.nodeName)) .target

/-- Admission and storing, with what happens in between. -/
def admitAndStore (rt : Runtime) (s : Server) (m : Meeting) (key value : String) :
    Server × Except HandleError Unit :=
  match admitStoreValue rt s m.remoteAddr key value m.admitted with
  | (s, .error e) => (s, .error (.refused e))
  | (s, .ok ()) =>
    let result := storeValidated rt (m.interim s) key value m.stored m.putOk
    match result.2.err with
    | some e => (result.1, .error (.store e))
    | none => (result.1, .ok ())

/-- `HandleDHT` for a request that is valid and within the rate of hidden descriptors. -/
def answer (rt : Runtime) (q : Responder) (m : Meeting) (r : DHTRequest) :
    Responder × Except HandleError DHTResponse :=
  let reply : DHTResponse := { type := r.type }
  match r.action with
  | .updateIP =>
    match checkUpdate rt m r with
    | .error e => (q, .error e)
    | .ok () =>
      let stored := admitAndStore rt q.store m r.target r.data
      ({ q with store := stored.1 }, stored.2.map fun _ => reply)
  | .findNode => (q, .ok { reply with nodes := referrals rt q r m.referred })
  | .findValue =>
    (q, .ok { reply with
      nodes := referrals rt q r m.referred
      value := (q.store.values.lookup r.storageKey).getD "" })
  -- invalid and conflicting writes are ignored
  | .store => ({ q with store := (admitAndStore rt q.store m r.target r.data).1 }, .ok reply)
  | .other _ => (q, .ok reply)

/-- `HandleDHT`. -/
def handleDHT (rt : Runtime) (q : Responder) (m : Meeting) (r : DHTRequest) :
    Responder × Except HandleError DHTResponse :=
  match r.validate with
  | .error e => (q, .error (.request e))
  | .ok () =>
    if hasPrefix r.target "hidden-desc/v1/" then
      match allowHiddenDescriptorRequest q.hiddenRates m.remoteAddr r.action m.arrived with
      | (rates, false) => ({ q with hiddenRates := rates }, .ok { type := r.type })
      | (rates, true) => answer rt { q with hiddenRates := rates } m r
    else answer rt q m r

end Vx6.Dht
