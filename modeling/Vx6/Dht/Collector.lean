import Vx6.Dht.Value
import Vx6.Lib.Dict
import Mathlib.Data.Finset.Basic
import Mathlib.Data.String.Basic

/-!
# The lookup collector

`internal/dht/value.go`: `lookupCollector` gathers the values that peers return during a lookup,
groups the verified ones by family and the others by fingerprint, and decides whether the lookup is
confirmed (`isConfirmed`) and what it returns (`resolve`).
-/

set_option autoImplicit false

namespace Vx6.Dht

open Vx6.Go Vx6.Lib

/-- `LookupOutcome`. -/
inductive LookupOutcome where
  | found
  | notFound
  | incomplete
  | conflict
  deriving DecidableEq, Repr

def minTrustedSupportingSources : Nat := 2

def minTrustedConfirmationScore : Int := 4

def minTrustedLookupBranches : Nat := 2

/-- `LookupResult`. A lookup that was given up before it was resolved leaves the outcome unset. -/
structure LookupResult where
  outcome : Option LookupOutcome := none
  value : String := ""
  verified : Bool := false
  sourceCount : Nat := 0
  exactMatchCount : Nat := 0
  queriedNodes : Nat := 0
  rejectedValues : Nat := 0
  conflictCount : Nat := 0
  conflictValues : List String := []
  publisherCount : Nat := 0
  networkDiversity : Nat := 0
  providerDiversity : Nat := 0
  asnDiversity : Nat := 0
  branchDiversity : Nat := 0
  trustWeight : Int := 0
  version : UInt64 := 0
  deriving DecidableEq, Repr

/-- The errors that a lookup returns with its result. -/
inductive LookupError where
  | conflictingFamilies (families : String)
  | conflictingUnverified (key : String)
  | insufficientConfirmation (exact branches asns providers networks : Nat) (weight : Int)
  | notFound
  deriving DecidableEq, Repr

/-! ## Sources -/

/-- `sourceObservation`. The lookup passes trust 1 for a peer and 3 for itself, so the sums of
weights stay far below the range of an `int`. -/
structure SourceObservation where
  nodeID : String := ""
  addr : String := ""
  trust : Int := 0
  branch : Int := 0
  deriving DecidableEq, Repr

namespace SourceObservation

/-- The source as `Observe` records it. -/
def recorded (s : SourceObservation) : SourceObservation :=
  { s with
    nodeID := if s.nodeID = "" then "unknown" else s.nodeID
    trust := if s.trust ≤ 0 then 1 else s.trust }

/-- The address of a source, if its host is one. -/
def ip (s : SourceObservation) : Option IP :=
  let host :=
    match splitHostPort s.addr with
    | some (parsedHost, _) => parsedHost
    | none => s.addr
  parseIP (trim host "[]")

/-- The loopback address itself, or the network of the given prefix length that holds the address;
empty where the host is no address. -/
def networkOf (s : SourceObservation) (tag4 : String) (ones4 : Nat) (tag6 : String) (ones6 : Nat) :
    String :=
  match s.ip with
  | none => ""
  | some ip =>
      if ip.isLoopback then "loopback:" ++ ip.string
      else
        match ip.to4 with
        | some v4 => tag4 ++ IP.string4 (IP.mask4 v4 ones4)
        | none => tag6 ++ (ip.mask ones6).string

/-- `providerKey`. -/
def providerKey (s : SourceObservation) : String := s.networkOf "provider4:" 16 "provider6:" 32

/-- `networkKey`. -/
def networkKey (s : SourceObservation) : String := s.networkOf "ipv4:" 24 "ipv6:" 64

/-- `asnKey`. -/
def asnKey (rt : Runtime) (s : SourceObservation) : String :=
  match s.ip.bind rt.resolveASN with
  | none => ""
  | some asn => "asn:" ++ asn

/-- `weightFor`. -/
def weightFor (s : SourceObservation) (value : ValidatedValue) : Int :=
  s.trust + (if value.enveloped then 1 else 0) + (if value.authoritativePublisher then 1 else 0)

end SourceObservation

/-- Add a key to a set, unless it is empty. -/
def addKey (key : String) (s : Finset String) : Finset String := if key = "" then s else insert key s

/-- Add a branch to a set, unless it is negative. -/
def addBranch (branch : Int) (s : Finset Int) : Finset Int :=
  if 0 ≤ branch then insert branch s else s

/-! ## Candidates -/

/-- `candidateObservation`. -/
structure CandidateObservation where
  value : ValidatedValue
  sources : Dict String SourceObservation := ∅
  exactSources : Dict String SourceObservation := ∅
  providers : Finset String := ∅
  exactProviders : Finset String := ∅
  asns : Finset String := ∅
  exactASNs : Finset String := ∅
  networks : Finset String := ∅
  exactNetworks : Finset String := ∅
  branches : Finset Int := ∅
  exactBranches : Finset Int := ∅
  publishers : Finset String := ∅
  exactWeight : Int := 0

/-- `newCandidateObservation`. -/
def newCandidateObservation (value : ValidatedValue) : CandidateObservation := { value }

namespace CandidateObservation

/-- `addSource`. -/
def addSource (rt : Runtime) (c : CandidateObservation) (source : SourceObservation) :
    CandidateObservation :=
  { c with
    sources :=
      if c.sources.lookup source.nodeID = none then c.sources.insert source.nodeID source
      else c.sources
    providers := addKey source.providerKey c.providers
    asns := addKey (source.asnKey rt) c.asns
    networks := addKey source.networkKey c.networks
    branches := addBranch source.branch c.branches }

/-- `addExactSource`. -/
def addExactSource (rt : Runtime) (c : CandidateObservation) (source : SourceObservation)
    (value : ValidatedValue) : CandidateObservation :=
  let fresh := c.exactSources.lookup source.nodeID = none
  { c with
    exactSources := if fresh then c.exactSources.insert source.nodeID source else c.exactSources
    exactWeight := if fresh then c.exactWeight + source.weightFor value else c.exactWeight
    exactProviders := addKey source.providerKey c.exactProviders
    exactASNs := addKey (source.asnKey rt) c.exactASNs
    exactNetworks := addKey source.networkKey c.exactNetworks
    exactBranches := addBranch source.branch c.exactBranches
    publishers := addKey value.publisherNodeID c.publishers }

/-- `Observe` takes up a newer version. The exact branches, providers and ASNs stay. -/
def adopt (c : CandidateObservation) (value : ValidatedValue) : CandidateObservation :=
  if isNewerValue value c.value then
    { c with
      value := value
      exactSources := ∅
      exactNetworks := ∅
      publishers := ∅
      exactWeight := 0 }
  else c

/-- What `Observe` does to the candidate of the family of a verified value. -/
def addVersion (rt : Runtime) (c : CandidateObservation) (source : SourceObservation)
    (value : ValidatedValue) : CandidateObservation :=
  let c := (c.addSource rt source).adopt value
  if value.fingerprint = c.value.fingerprint then c.addExactSource rt source value else c

/-- What `Observe` does to the candidate of the fingerprint of an unverified value. -/
def addRaw (rt : Runtime) (c : CandidateObservation) (source : SourceObservation)
    (value : ValidatedValue) : CandidateObservation :=
  (c.addSource rt source).addExactSource rt source value

/-- `onlyLoopbackNetworks`. -/
def onlyLoopbackNetworks (c : CandidateObservation) : Bool :=
  if c.exactNetworks.card = 0 then false
  else decide (∀ network ∈ c.exactNetworks, hasPrefix network "loopback:" = true)

/-- `confirmed`. -/
def confirmed (c : CandidateObservation) : Bool :=
  if !c.value.verified then true
  else if c.exactSources.keys.length < minTrustedSupportingSources then false
  else if c.exactWeight < minTrustedConfirmationScore then false
  else if !c.onlyLoopbackNetworks && c.exactBranches.card < minTrustedLookupBranches then false
  else true

/-- `lookupResult`. -/
def lookupResult (c : CandidateObservation) (queried rejected : Nat) : LookupResult :=
  { value := c.value.raw
    verified := c.value.verified
    sourceCount := c.sources.keys.length
    exactMatchCount := c.exactSources.keys.length
    queriedNodes := queried
    rejectedValues := rejected
    publisherCount := c.publishers.card
    networkDiversity := c.exactNetworks.card
    providerDiversity := c.exactProviders.card
    asnDiversity := c.exactASNs.card
    branchDiversity := c.exactBranches.card
    trustWeight := c.exactWeight
    version := c.value.version }

end CandidateObservation

/-- `compareObservationStrength`: `.gt` where the left candidate is the stronger one. The smaller
fingerprint is. -/
def compareObservationStrength (left right : CandidateObservation) : Ordering :=
  (compare left.exactSources.keys.length right.exactSources.keys.length).then <|
    (compare left.exactWeight right.exactWeight).then <|
      (compare left.exactProviders.card right.exactProviders.card).then <|
        (compare left.exactNetworks.card right.exactNetworks.card).then <|
          compare right.value.fingerprint left.value.fingerprint

/-! ## The collector -/

/-- `lookupCollector`. -/
structure LookupCollector where
  key : String
  now : Time
  verified : Dict String CandidateObservation := ∅
  raw : Dict String CandidateObservation := ∅
  rejected : Nat := 0

/-- `newLookupCollector`. -/
def newLookupCollector (key : String) (now : Time) : LookupCollector := { key, now }

namespace LookupCollector

/-- The part of `Observe` after validation. -/
def observeValue (rt : Runtime) (c : LookupCollector) (source : SourceObservation)
    (value : ValidatedValue) : LookupCollector :=
  if value.verified then
    { c with
      verified := c.verified.upsert value.family (newCandidateObservation value)
        (·.addVersion rt source value) }
  else
    { c with
      raw := c.raw.upsert value.fingerprint (newCandidateObservation value)
        (·.addRaw rt source value) }

/-- `Observe`. -/
def observe (rt : Runtime) (c : LookupCollector) (source : SourceObservation) (raw : String) :
    LookupCollector :=
  if trimSpace raw = "" then c
  else
    match validateLookupValue rt c.key raw c.now with
    | .error _ => { c with rejected := c.rejected + 1 }
    | .ok value => c.observeValue rt source.recorded value

/-- `IsConfirmed`. -/
def isConfirmed (c : LookupCollector) : Bool :=
  match c.verified.entries with
  | [candidate] => candidate.2.confirmed
  | _ => false

/-- `sort.Strings`. -/
def sortStrings (l : List String) : List String := l.mergeSort fun a b => a ≤ b

/-- The values reported with a conflict. -/
def conflictValues (candidates : List CandidateObservation) : List String :=
  sortStrings ((candidates.map fun c => c.value.raw).filter fun raw => trimSpace raw ≠ "")

/-- One turn of the loop over the unverified candidates: the strongest so far, and how many tie. -/
def pickStrongest : Option (CandidateObservation × Nat) → CandidateObservation →
    Option (CandidateObservation × Nat)
  | none, candidate => some (candidate, 1)
  | some (best, conflicts), candidate =>
      match compareObservationStrength candidate best with
      | .gt => some (candidate, 1)
      | .eq => some (best, conflicts + 1)
      | .lt => some (best, conflicts)

/-- The end of `Resolve`, for the unverified candidates in the order `order` of the map iteration. -/
def resolveRaw (c : LookupCollector) (order : List CandidateObservation) (queried : Nat) :
    LookupResult × Option LookupError :=
  match order.foldl pickStrongest none with
  | none =>
      ({ queriedNodes := queried, rejectedValues := c.rejected, outcome := some .notFound },
        some .notFound)
  | some (best, conflicts) =>
      if 1 < conflicts then
        ({ outcome := some .conflict, queriedNodes := queried, rejectedValues := c.rejected,
           conflictCount := conflicts, conflictValues := conflictValues order },
          some (.conflictingUnverified c.key))
      else ({ best.lookupResult queried c.rejected with outcome := some .found }, none)

/-- `Resolve` for the single verified candidate. -/
def resolveVerified (c : LookupCollector) (candidate : CandidateObservation) (queried : Nat) :
    LookupResult × Option LookupError :=
  let result := candidate.lookupResult queried c.rejected
  if !candidate.confirmed then
    ({ result with outcome := some .incomplete },
      some (.insufficientConfirmation candidate.exactSources.keys.length candidate.exactBranches.card
        candidate.exactASNs.card candidate.exactProviders.card candidate.exactNetworks.card
        candidate.exactWeight))
  else ({ result with outcome := some .found }, none)

/-- `Resolve`, where the unverified candidates are visited in the order `order`. -/
def resolve (c : LookupCollector) (order : List CandidateObservation) (queried : Nat) :
    LookupResult × Option LookupError :=
  match c.verified.entries with
  | [] => c.resolveRaw order queried
  | [candidate] => c.resolveVerified candidate.2 queried
  | candidates =>
      let families := sortStrings c.verified.keys
      ({ outcome := some .conflict, verified := true, queriedNodes := queried,
         rejectedValues := c.rejected, conflictCount := families.length,
         conflictValues := conflictValues (candidates.map Sigma.snd) },
        some (.conflictingFamilies (join families ", ")))

end LookupCollector

end Vx6.Dht
