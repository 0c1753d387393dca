import Vx6.Dht.Walk

/-!
# The iterative lookups

`recursiveFindNodeDetailed` and `RecursiveFindValueDetailed` of `dht.go`. Both walk over contacts in
rounds; a round asks a batch of the closest unqueried contacts, or loads the diversity fallback, and
may end the lookup. The loop is a fold over the rounds the limits allow that is left early with what
the lookup returns. `NodeLookup.Round` and `ValueLookup.Round` list the ways one round ends.

`lookups_bounded` is the bound on what the two lookups ask: no peer twice, no batch and no total
above the limits, and only peers that were active in the routing table or passed `VerifyNodeInfo`.
-/

set_option autoImplicit false

namespace Vx6.Dht

open Vx6.Go Vx6.Lib Vx6.Record

/-- `K`. -/
def K : Int := 20

/-- What the lookups add to `ErrLookupIncomplete`. -/
inductive IncompleteCause where
  | queriesFailed (failures : Nat)
  | conflictsMayBeMissing (failures : Nat)
  | ended (queries : Nat) (err : ContextError)
  | limitReached (err : Option LookupError)
  | unconfirmed (err : LookupError)
  deriving DecidableEq, Repr

/-- The errors of the lookups: one that wraps `ErrLookupIncomplete`, or the error of `Resolve`. -/
inductive LookupFailure where
  | incomplete (cause : IncompleteCause)
  | unresolved (err : LookupError)
  deriving DecidableEq, Repr

/-! ## Receiving the results of a batch -/

/-- The receiving loop of a round: in each turn the context has ended, or the next result is heard.
`i` counts the turns, `pending` are the peers whose results arrive, in that order. -/
def receive {σ : Type} (hear : σ → NodeInfo → Except String PeerReply → σ) (e : RoundEnv) :
    Nat → List NodeInfo → σ → Except (σ × ContextError) σ
  | _, [], s => .ok s
  | i, node :: pending, s =>
      match e.done i with
      | some err => .error (s, err)
      | none => receive hear e (i + 1) pending (hear s node (e.reply node))

/-- The state after some results. -/
def heardAll {σ : Type} (hear : σ → NodeInfo → Except String PeerReply → σ) (e : RoundEnv) (s : σ)
    (heard : List NodeInfo) : σ :=
  heard.foldl (fun s node => hear s node (e.reply node)) s

/-- All results are heard, or the context ends after some of them. -/
theorem receive_cases {σ : Type} (hear : σ → NodeInfo → Except String PeerReply → σ) (e : RoundEnv)
    (pending : List NodeInfo) (i : Nat) (s : σ) :
    receive hear e i pending s = .ok (heardAll hear e s pending) ∨
      ∃ heard err, heard <+: pending ∧ heard ≠ pending ∧
        receive hear e i pending s = .error (heardAll hear e s heard, err) := by
  induction pending generalizing i s with
  | nil => exact .inl rfl
  | cons node pending ih =>
    rw [receive]
    cases hdone : e.done i with
    | some err => exact .inr ⟨[], err, List.nil_prefix, List.cons_ne_nil _ _ |>.symm, rfl⟩
    | none =>
      rcases ih (i + 1) (hear s node (e.reply node)) with h | ⟨heard, err, hpre, hne, h⟩
      · exact .inl h
      · refine .inr ⟨node :: heard, err, List.cons_prefix_cons.2 ⟨rfl, hpre⟩, ?_, h⟩
        intro heq
        exact hne (List.cons_injective heq)

/-! ## Node lookups -/

/-- `NodeLookupResult`. -/
structure NodeLookupResult where
  found : List NodeInfo
  closest : List NodeInfo
  outcome : LookupOutcome
  queriedNodes : Nat
  rounds : Nat

/-- The variables of `recursiveFindNodeDetailed`; `matched` is its map `matches`. -/
structure NodeLookup where
  walk : Walk := {}
  matched : Dict String NodeInfo := ∅
  queries : Nat := 0
  rounds : Nat := 0

/-- What `recursiveFindNodeDetailed` returns, and its variables at that moment. -/
structure NodeReturn where
  lookup : NodeLookup
  result : NodeLookupResult
  err : Option LookupFailure

namespace NodeLookup

variable (rt : Runtime) (limits : LookupLimits) (target : String)

/-- The result at one of the return points. Where the source leaves `Matches` out, there are none. -/
def give (s : NodeLookup) (outcome : LookupOutcome) (err : Option LookupFailure) : NodeReturn where
  lookup := s
  result :=
    { found := sortedKnown rt s.matched target s.matched.keys.length
      closest := sortedKnown rt s.walk.known target K
      outcome := outcome
      queriedNodes := s.queries
      rounds := s.rounds }
  err := err

/-- The return points for a walk with nobody left to ask. -/
def settle (s : NodeLookup) : NodeReturn :=
  if s.matched.keys ≠ [] then
    if 0 < s.walk.failures then
      s.give rt target .incomplete (some (.incomplete (.conflictsMayBeMissing s.walk.failures)))
    else s.give rt target (if 1 < s.matched.keys.length then .conflict else .found) none
  else if 0 < s.walk.failures then
    s.give rt target .incomplete (some (.incomplete (.queriesFailed s.walk.failures)))
  else s.give rt target .notFound none

/-- One turn of the loop over the seeds. -/
def takeSeed (e : SeedEnv) (s : NodeLookup) (seed : NodeInfo × Nat) : NodeLookup :=
  if Walk.keepsSeed rt e seed.1 seed.2 then
    { s with
      walk := s.walk.seed ⟨seed.1, e.now seed.2, .seed⟩
      matched :=
        if verified rt seed.1 (e.now seed.2) && matchesNodeLookupTarget rt seed.1 target then
          s.matched.insert seed.1.id seed.1
        else s.matched }
  else s

/-- One turn of the loop over the referrals of a reply. -/
def takeReferral (s : NodeLookup) (ref : Referral) : NodeLookup :=
  if Walk.acceptsReferral rt ref then
    { s with
      walk := s.walk.learn ⟨ref.info, ref.now, .referral⟩
      matched :=
        if matchesNodeLookupTarget rt ref.info target then s.matched.insert ref.info.id ref.info
        else s.matched }
  else s

/-- The result of one query. -/
def hear (s : NodeLookup) (node : NodeInfo) : Except String PeerReply → NodeLookup
  | .error _ => { s with walk := s.walk.fail }
  | .ok reply => reply.refs.foldl (takeReferral rt target) { s with walk := s.walk.answer node }

/-- Somebody known has not been asked. -/
def unqueried (s : NodeLookup) : Bool :=
  closestUnqueried rt s.walk.known s.walk.queriedIDs target 1 ≠ []

/-- The rest of a round that has no batch. -/
def exhausted (e : RoundEnv) (s : NodeLookup) : Except NodeReturn NodeLookup :=
  if s.walk.diversityLoaded then .error (s.settle rt target)
  else
    let s := { s with walk := s.walk.loadFallback rt e }
    if s.unqueried rt target then .ok s else .error (s.settle rt target)

/-- The rest of a round that asks a batch. -/
def askBatch (e : RoundEnv) (s : NodeLookup) (batch : List NodeInfo) :
    Except NodeReturn NodeLookup :=
  match receive (hear rt target) e 0 (e.arrivals batch)
      { s with queries := s.queries + batch.length } with
  | .error (s, err) =>
      .error (({ s with walk := { s.walk with cancelled := true } } : NodeLookup).give rt target
        .incomplete (some (.incomplete (.ended s.queries err))))
  | .ok s =>
      if !isNameTarget target && s.matched.keys ≠ [] then .error (s.give rt target .found none)
      else .ok s

/-- One round. -/
def round (env : LookupEnv) (s : NodeLookup) (round : Nat) : Except NodeReturn NodeLookup :=
  if (s.queries : Int) < limits.maxPeerQueries then
    let batchLimit := min limits.maxConcurrent (limits.maxPeerQueries - s.queries)
    let batch := closestUnqueried rt s.walk.known s.walk.queriedIDs target batchLimit
    let s := { s with rounds := round + 1, walk := s.walk.ask batch }
    if batch = [] then s.exhausted rt target (env.round round)
    else s.askBatch rt target (env.round round) batch
  else .ok s

/-- The return points after the loop. -/
def finish (s : NodeLookup) : NodeReturn :=
  if s.unqueried rt target then
    s.give rt target .incomplete (some (.incomplete (.limitReached none)))
  else s.settle rt target

/-- The seeds of a node lookup. -/
def seeds (e : SeedEnv) (bootstrap : Bool) : List NodeInfo :=
  if bootstrap then
    if isNameTarget target then
      e.table.closestNodesForBootstrap rt (trimPrefix target "node/name/") limits.maxConcurrent true
        e.hintsNow
    else
      e.table.closestNodesForBootstrap rt (trimPrefix target "node/id/") limits.maxConcurrent false
        e.hintsNow
  else e.table.closestForTarget rt target limits.maxConcurrent

/-- The variables after the loop over the seeds. -/
def start (env : LookupEnv) (bootstrap : Bool) : NodeLookup :=
  (seeds rt limits target env.seeds bootstrap).zipIdx.foldl (takeSeed rt target env.seeds) {}

end NodeLookup

/-- `recursiveFindNodeDetailed`. -/
def recursiveFindNodeDetailed (rt : Runtime) (configured : LookupLimits) (env : LookupEnv)
    (target : String) (bootstrap : Bool) : NodeReturn :=
  let limits := lookupLimits configured
  let s := NodeLookup.start rt limits target env bootstrap
  if !isNameTarget target && s.matched.keys ≠ [] then s.give rt target .found none
  else
    match (List.range limits.maxRounds.toNat).foldlM (NodeLookup.round rt limits target env) s with
    | .error result => result
    | .ok s => s.finish rt target

/-! ## Value lookups -/

/-- What a value lookup meets besides: the values stored here, the clock reading of the collector,
and the order in which `Resolve` visits a map. -/
structure ValueEnv extends LookupEnv where
  values : Dict String String
  now : Time
  visit : List CandidateObservation → List CandidateObservation
  visit_perm : ∀ candidates, (visit candidates).Perm candidates

/-- The variables of `RecursiveFindValueDetailed`; `stopped` is set by the two `break`s of its
loop. -/
structure ValueLookup where
  walk : Walk := {}
  branchByID : Dict String Int := ∅
  collector : LookupCollector
  queried : Nat := 0
  stopped : Bool := false

/-- What `RecursiveFindValueDetailed` returns, and its variables at that moment. -/
structure ValueReturn where
  lookup : ValueLookup
  result : LookupResult
  err : Option LookupFailure

namespace ValueLookup

variable (rt : Runtime) (limits : LookupLimits) (key : String)

/-- One turn of the loop over the seeds. -/
def takeSeed (e : SeedEnv) (s : ValueLookup) (seed : NodeInfo × Nat) : ValueLookup :=
  if Walk.keepsSeed rt e seed.1 seed.2 then
    { s with
      walk := s.walk.seed ⟨seed.1, e.now seed.2, .seed⟩
      branchByID := s.branchByID.insert seed.1.id (seed.2 + 1) }
  else s

/-- One turn of the loop over the contacts of the diversity fallback: a new one is the root of a
branch of its own. -/
def takeFallback (s : ValueLookup) (c : Contact) : ValueLookup :=
  { s with
    walk := s.walk.learn c
    branchByID :=
      if (s.walk.known.lookup c.info.id).isSome then s.branchByID
      else s.branchByID.insert c.info.id (s.branchByID.keys.length + 1) }

/-- One turn of the loop over the referrals of a reply: a new one belongs to the branch of the peer
that answered. -/
def takeReferral (branch : Int) (s : ValueLookup) (ref : Referral) : ValueLookup :=
  if Walk.acceptsReferral rt ref then
    { s with
      walk := s.walk.learn ⟨ref.info, ref.now, .referral⟩
      branchByID :=
        if (s.walk.known.lookup ref.info.id).isSome then s.branchByID
        else s.branchByID.insert ref.info.id branch }
  else s

/-- The value of a reply is observed, if it has one. -/
def observe (s : ValueLookup) (node : NodeInfo) (branch : Int) (value : String) :
    LookupCollector :=
  if value ≠ "" then
    s.collector.observe rt { nodeID := node.id, addr := node.addr, trust := 1, branch } value
  else s.collector

/-- The result of one query; `sent` are the branches when the query was sent. -/
def hear (sent : Dict String Int) (s : ValueLookup) (node : NodeInfo) :
    Except String PeerReply → ValueLookup
  | .error _ => { s with queried := s.queried + 1, walk := s.walk.fail }
  | .ok reply =>
      let branch := (sent.lookup node.id).getD 0
      reply.refs.foldl (takeReferral rt branch)
        { s with
          queried := s.queried + 1
          walk := s.walk.answer node
          collector := s.observe rt node branch reply.value }

/-- Somebody known has not been asked. -/
def unqueried (s : ValueLookup) : Bool :=
  closestUnqueried rt s.walk.known s.walk.queriedIDs key 1 ≠ []

/-- The loop over the contacts of the diversity fallback. -/
def loadFallback (e : RoundEnv) (s : ValueLookup) : ValueLookup :=
  (Walk.fallback rt e).foldl takeFallback
    { s with walk := { s.walk with diversityLoaded := true } }

/-- The rest of a round that has no batch. -/
def exhausted (e : RoundEnv) (s : ValueLookup) : ValueLookup :=
  if s.walk.diversityLoaded then { s with stopped := true }
  else
    let s := s.loadFallback rt e
    if s.unqueried rt key then s else { s with stopped := true }

/-- `Resolve`, with the candidates in the order of the run. -/
def resolve (env : ValueEnv) (s : ValueLookup) : LookupResult × Option LookupError :=
  s.collector.resolve (env.visit (s.collector.raw.entries.map Sigma.snd)) s.queried

/-- The result of a lookup that is not complete. -/
def giveIncomplete (env : ValueEnv) (s : ValueLookup) (cause : IncompleteCause) : ValueReturn where
  lookup := s
  result := { (s.resolve env).1 with outcome := some .incomplete }
  err := some (.incomplete cause)

/-- The rest of a round that asks a batch. -/
def askBatch (env : ValueEnv) (e : RoundEnv) (s : ValueLookup) (batch : List NodeInfo) :
    Except ValueReturn ValueLookup :=
  match receive (hear rt s.branchByID) e 0 (e.arrivals batch) s with
  | .error (s, err) =>
      .error (({ s with walk := { s.walk with cancelled := true } } : ValueLookup).giveIncomplete
        env (.ended s.queried err))
  | .ok s => .ok { s with stopped := s.collector.isConfirmed }

/-- One round. -/
def round (env : ValueEnv) (s : ValueLookup) (round : Nat) : Except ValueReturn ValueLookup :=
  if !s.stopped && (s.queried : Int) < limits.maxPeerQueries then
    let batchLimit := min limits.maxConcurrent (limits.maxPeerQueries - s.queried)
    let batch := closestUnqueried rt s.walk.known s.walk.queriedIDs key batchLimit
    let s := { s with walk := s.walk.ask batch }
    if batch = [] then .ok (s.exhausted rt key (env.round round))
    else s.askBatch rt env (env.round round) batch
  else .ok s

/-- The return points after the loop. -/
def finish (env : ValueEnv) (s : ValueLookup) : ValueReturn :=
  match s.resolve env with
  | (result, none) => ⟨s, result, none⟩
  | (result, some err) =>
      if 0 < s.queried && s.unqueried rt key then s.giveIncomplete env (.limitReached (some err))
      else
        match err with
        | .notFound =>
            if 0 < s.walk.failures then s.giveIncomplete env (.queriesFailed s.walk.failures)
            else ⟨s, result, some (.unresolved err)⟩
        | .insufficientConfirmation .. => s.giveIncomplete env (.unconfirmed err)
        | _ => ⟨s, result, some (.unresolved err)⟩

/-- The collector when the loop starts: the value stored here is observed first. -/
def startCollector (env : ValueEnv) : LookupCollector :=
  match env.values.lookup key with
  | none => newLookupCollector key env.now
  | some stored =>
      if stored ≠ "" then
        (newLookupCollector key env.now).observe rt
          { nodeID := "local:" ++ env.seeds.table.selfID, trust := 3, branch := 0 } stored
      else newLookupCollector key env.now

/-- The seeds of a value lookup. -/
def seeds (e : SeedEnv) : List NodeInfo :=
  e.table.closestForTarget rt key limits.maxConcurrent

/-- The variables when the loop starts. -/
def start (env : ValueEnv) : ValueLookup :=
  (seeds rt limits key env.seeds).zipIdx.foldl (takeSeed rt env.seeds)
    { collector := startCollector rt key env }

end ValueLookup

/-- `RecursiveFindValueDetailed`. -/
def recursiveFindValueDetailed (rt : Runtime) (configured : LookupLimits) (env : ValueEnv)
    (key : String) : ValueReturn :=
  let limits := lookupLimits configured
  match (List.range limits.maxRounds.toNat).foldlM (ValueLookup.round rt limits key env)
      (ValueLookup.start rt limits key env) with
  | .error result => result
  | .ok s => s.finish rt key env

/-! ## One round of a node lookup -/

namespace NodeLookup

variable {rt : Runtime} {limits : LookupLimits} {target : String} {env : LookupEnv} {s : NodeLookup}
  {i : Nat}

theorem walk_takeReferral (s : NodeLookup) (ref : Referral) :
    (s.takeReferral rt target ref).walk = s.walk.refer rt ref := by
  rw [takeReferral, Walk.refer]
  split <;> rfl

theorem walk_hear (s : NodeLookup) (node : NodeInfo) (reply : Except String PeerReply) :
    (s.hear rt target node reply).walk = s.walk.hear rt node reply := by
  cases reply with
  | error e => rfl
  | ok reply =>
    exact (List.foldl_hom NodeLookup.walk fun s ref => (walk_takeReferral s ref).symm).symm

/-- The walk of a node lookup hears the results like a walk. -/
theorem walk_heardAll (e : RoundEnv) (s : NodeLookup) (heard : List NodeInfo) :
    (heardAll (hear rt target) e s heard).walk = s.walk.hearAll rt e heard :=
  (List.foldl_hom NodeLookup.walk fun s node => (walk_hear s node (e.reply node)).symm).symm

theorem queries_takeReferral (s : NodeLookup) (ref : Referral) :
    (s.takeReferral rt target ref).queries = s.queries := by
  rw [takeReferral]
  split <;> rfl

theorem queries_hear (s : NodeLookup) (node : NodeInfo) (reply : Except String PeerReply) :
    (s.hear rt target node reply).queries = s.queries := by
  cases reply with
  | error e => rfl
  | ok reply => exact foldl_same (fun s ref => queries_takeReferral s ref) reply.refs _

theorem queries_heardAll (e : RoundEnv) (s : NodeLookup) (heard : List NodeInfo) :
    (heardAll (hear rt target) e s heard).queries = s.queries :=
  foldl_same (fun s node => queries_hear s node (e.reply node)) heard s

/-- The variables of a round that asks `batch`. -/
def asking (s : NodeLookup) (i : Nat) (batch : List NodeInfo) : NodeLookup :=
  { s with rounds := i + 1, walk := s.walk.ask batch, queries := s.queries + batch.length }

/-- The variables of a round that loads the fallback. -/
def loading (rt : Runtime) (e : RoundEnv) (s : NodeLookup) (i : Nat) : NodeLookup :=
  { s with rounds := i + 1, walk := (s.walk.ask []).loadFallback rt e }

/-- The ways a round ends. -/
inductive Round (rt : Runtime) (limits : LookupLimits) (target : String) (env : LookupEnv)
    (s : NodeLookup) (i : Nat) : Except NodeReturn NodeLookup → Prop
  | spent (hspent : limits.maxPeerQueries ≤ s.queries) : Round rt limits target env s i (.ok s)
  | load (hbatch : s.walk.nextBatch rt limits target = [])
      (hmore : (s.loading rt (env.round i) i).unqueried rt target = true) :
      Round rt limits target env s i (.ok (s.loading rt (env.round i) i))
  | covered (hbatch : s.walk.nextBatch rt limits target = [])
      (hnone : (s.loading rt (env.round i) i).unqueried rt target = false) :
      Round rt limits target env s i (.error ((s.loading rt (env.round i) i).settle rt target))
  | rest (hleft : (s.queries : Int) < limits.maxPeerQueries)
      (hbatch : s.walk.nextBatch rt limits target = []) :
      Round rt limits target env s i (.error ((s.asking i []).settle rt target))
  | heard {s' : NodeLookup} (hne : s.walk.nextBatch rt limits target ≠ [])
      (hheard : s' = heardAll (hear rt target) (env.round i)
        (s.asking i (s.walk.nextBatch rt limits target))
        ((env.round i).arrivals (s.walk.nextBatch rt limits target))) :
      Round rt limits target env s i (.ok s')
  | found {s' : NodeLookup} (hname : isNameTarget target = false)
      (hheard : s' = heardAll (hear rt target) (env.round i)
        (s.asking i (s.walk.nextBatch rt limits target))
        ((env.round i).arrivals (s.walk.nextBatch rt limits target))) :
      Round rt limits target env s i (.error (s'.give rt target .found none))
  | ended {s' : NodeLookup} {heard : List NodeInfo} (err : ContextError)
      (hne : s.walk.nextBatch rt limits target ≠ [])
      (hpre : heard <+: (env.round i).arrivals (s.walk.nextBatch rt limits target))
      (hheard : s' = heardAll (hear rt target) (env.round i)
        (s.asking i (s.walk.nextBatch rt limits target)) heard) :
      Round rt limits target env s i (.error
        (({ s' with walk := { s'.walk with cancelled := true } } : NodeLookup).give rt target
          .incomplete (some (.incomplete (.ended s'.queries err)))))

/-- Every round ends in one of these ways. -/
theorem round_cases (hcounted : s.queries = s.walk.batches.flatten.length) :
    Round rt limits target env s i (s.round rt limits target env i) := by
  rw [round]
  split
  · rename_i hleft
    dsimp only
    have hbatch : closestUnqueried rt s.walk.known s.walk.queriedIDs target
        (min limits.maxConcurrent (limits.maxPeerQueries - s.queries)) =
        s.walk.nextBatch rt limits target := by
      rw [Walk.nextBatch, hcounted]
    rw [hbatch]
    split
    · rename_i hnil
      rw [hnil, exhausted]
      split
      · exact .rest hleft hnil
      · dsimp only
        split
        · rename_i hmore
          exact .load hnil hmore
        · rename_i hnone
          exact .covered hnil (Bool.eq_false_of_not_eq_true hnone)
    · rename_i hne
      rw [askBatch]
      rcases receive_cases (hear rt target) (env.round i)
          ((env.round i).arrivals (s.walk.nextBatch rt limits target)) 0
          (s.asking i (s.walk.nextBatch rt limits target)) with h | ⟨heard, err, hpre, -, h⟩
      · rw [asking] at h
        rw [h]
        dsimp only
        split
        · rename_i hfound
          simp only [Bool.and_eq_true, Bool.not_eq_true'] at hfound
          exact .found hfound.1 rfl
        · exact .heard hne rfl
      · rw [asking] at h
        rw [h]
        exact .ended err hne hpre rfl
  · rename_i hspent
    exact .spent (by omega)

/-- The rule for one round: a property of every way it ends holds of its end. -/
theorem leaves_round (hcounted : s.queries = s.walk.batches.flatten.length)
    {post : NodeReturn → Prop} {inv : NodeLookup → Prop}
    (h : ∀ result, Round rt limits target env s i result → Leaves post inv result) :
    Leaves post inv (s.round rt limits target env i) :=
  h _ (round_cases hcounted)

/-- What the rounds keep: the walk is within its limits, and the queries are counted. -/
structure Kept (rt : Runtime) (limits : LookupLimits) (env : LookupEnv) (i : Nat) (s : NodeLookup) :
    Prop where
  within : s.walk.Within rt limits env i
  counted : s.queries = s.walk.batches.flatten.length

theorem walk_takeSeed (e : SeedEnv) (s : NodeLookup) (seed : NodeInfo × Nat) :
    (s.takeSeed rt target e seed).walk = s.walk.takeSeed rt e seed := by
  rw [takeSeed, Walk.takeSeed]
  split <;> rfl

theorem walk_start (bootstrap : Bool) : (start rt limits target env bootstrap).walk =
    (seeds rt limits target env.seeds bootstrap).zipIdx.foldl (Walk.takeSeed rt env.seeds) {} :=
  (List.foldl_hom NodeLookup.walk fun s seed => (walk_takeSeed env.seeds s seed).symm).symm

theorem queries_start (bootstrap : Bool) : (start rt limits target env bootstrap).queries = 0 := by
  have hsame : ∀ (s : NodeLookup) (seed : NodeInfo × Nat),
      (s.takeSeed rt target env.seeds seed).queries = s.queries := by
    intro s seed
    rw [takeSeed]
    split <;> rfl
  exact foldl_same hsame _ {}

theorem Kept.start (bootstrap : Bool) :
    (start rt limits target env bootstrap).Kept rt limits env 0 := by
  obtain ⟨hbatches, hwithin⟩ := Walk.within_takeSeeds rt limits env
    (seeds rt limits target env.seeds bootstrap).zipIdx
  refine ⟨?_, ?_⟩
  · rw [walk_start]
    exact hwithin
  · rw [queries_start, walk_start, hbatches]
    rfl

theorem walk_settle (s : NodeLookup) : (s.settle rt target).lookup = s := by
  rw [settle]
  split
  · split <;> rfl
  · split <;> rfl

theorem walk_finish (s : NodeLookup) : (s.finish rt target).lookup = s := by
  rw [finish]
  split
  · rfl
  · exact walk_settle s

/-- One round keeps it; a round that ends the lookup leaves the walk within its limits. -/
theorem Kept.round (h : s.Kept rt limits env i) :
    Leaves (fun r : NodeReturn => r.lookup.walk.Within rt limits env (i + 1))
      (Kept rt limits env (i + 1)) (s.round rt limits target env i) := by
  have hmoves : ∀ w', Walk.Moves rt limits target (env.round i) s.walk w' →
      w'.Within rt limits env (i + 1) := fun w' hw => h.within.moves hw
  refine leaves_round h.counted ?_
  intro result hcases
  cases hcases with
  | spent hspent => exact ⟨h.within.mono (by omega), h.counted⟩
  | load hbatch hmore =>
    refine ⟨hmoves _ (.load hbatch), ?_⟩
    rw [loading]
    dsimp only
    rw [(Walk.grows_loadFallback (env.round i) _).batches, h.counted, Walk.ask, List.flatten_concat,
      List.append_nil]
  | covered hbatch hnone =>
    rw [Leaves, walk_settle]
    exact hmoves _ (.load hbatch)
  | rest hleft hbatch =>
    rw [Leaves, walk_settle]
    exact hmoves _ (.rest hbatch)
  | heard hne hheard =>
    subst hheard
    refine ⟨?_, ?_⟩
    · rw [walk_heardAll]
      exact hmoves _ .hear
    · rw [walk_heardAll, queries_heardAll, (Walk.grows_hearAll _ _ _).batches, asking, Walk.ask,
        List.flatten_concat, List.length_append, h.counted]
  | found hname hheard =>
    subst hheard
    rw [Leaves, give, walk_heardAll]
    exact hmoves _ .hear
  | ended err hne hpre hheard =>
    subst hheard
    rw [Leaves, give]
    dsimp only
    rw [walk_heardAll]
    exact hmoves _ (.cancel hpre)

/-- The rounds of a whole run. -/
theorem Kept.rounds (rt : Runtime) (limits : LookupLimits) (target : String) (env : LookupEnv)
    (bootstrap : Bool) (m : Nat) :
    Leaves (fun r : NodeReturn => r.lookup.walk.Within rt limits env m) (Kept rt limits env m)
      ((List.range m).foldlM (NodeLookup.round rt limits target env)
        (NodeLookup.start rt limits target env bootstrap)) := by
  refine Leaves.foldlM_range (Kept rt limits env) m ?_ (Kept.start bootstrap)
  intro i s hi hs
  exact hs.round.imp (fun r hr => hr.mono hi) fun s hs => hs

/-- The rule for a node lookup: what holds of the early return, of every return in the loop and of
the returns after the loop holds of what the lookup returns. -/
theorem returns {configured : LookupLimits} (hlimits : lookupLimits configured = limits)
    (Q : NodeReturn → Prop) {bootstrap : Bool}
    (hseeds : isNameTarget target = false →
      Q ((start rt limits target env bootstrap).give rt target .found none))
    (hloop : Leaves Q (fun s => Q (s.finish rt target))
      ((List.range limits.maxRounds.toNat).foldlM (NodeLookup.round rt limits target env)
        (start rt limits target env bootstrap))) :
    Q (recursiveFindNodeDetailed rt configured env target bootstrap) := by
  rw [recursiveFindNodeDetailed, hlimits]
  split
  · rename_i hearly
    simp only [Bool.and_eq_true, Bool.not_eq_true'] at hearly
    exact hseeds hearly.1
  · split
    · rename_i hend
      rw [hend] at hloop
      exact hloop
    · rename_i hend
      rw [hend] at hloop
      exact hloop

end NodeLookup

/-! ## One round of a value lookup -/

namespace ValueLookup

variable {rt : Runtime} {limits : LookupLimits} {key : String} {env : ValueEnv} {s : ValueLookup}
  {i : Nat}

theorem walk_takeReferral (branch : Int) (s : ValueLookup) (ref : Referral) :
    (s.takeReferral rt branch ref).walk = s.walk.refer rt ref := by
  rw [takeReferral, Walk.refer]
  split <;> rfl

theorem walk_hear (sent : Dict String Int) (s : ValueLookup) (node : NodeInfo)
    (reply : Except String PeerReply) :
    (s.hear rt sent node reply).walk = s.walk.hear rt node reply := by
  cases reply with
  | error e => rfl
  | ok reply =>
    exact (List.foldl_hom ValueLookup.walk fun s ref => (walk_takeReferral _ s ref).symm).symm

/-- The walk of a value lookup hears the results like a walk. -/
theorem walk_heardAll (sent : Dict String Int) (e : RoundEnv) (s : ValueLookup)
    (heard : List NodeInfo) :
    (heardAll (hear rt sent) e s heard).walk = s.walk.hearAll rt e heard :=
  (List.foldl_hom ValueLookup.walk fun s node => (walk_hear sent s node (e.reply node)).symm).symm

theorem queried_hear (sent : Dict String Int) (s : ValueLookup) (node : NodeInfo)
    (reply : Except String PeerReply) :
    (s.hear rt sent node reply).queried = s.queried + 1 := by
  cases reply with
  | error e => rfl
  | ok reply =>
    have hsame : ∀ (branch : Int) (s : ValueLookup) (ref : Referral),
        (s.takeReferral rt branch ref).queried = s.queried := by
      intro branch s ref
      rw [takeReferral]
      split <;> rfl
    exact foldl_same (hsame _) reply.refs _

/-- Every result counts as one query, a failure as well. -/
theorem queried_heardAll (sent : Dict String Int) (e : RoundEnv) (s : ValueLookup)
    (heard : List NodeInfo) :
    (heardAll (hear rt sent) e s heard).queried = s.queried + heard.length := by
  unfold heardAll
  induction heard generalizing s with
  | nil => rfl
  | cons node heard ih =>
    rw [List.foldl_cons, ih, queried_hear, List.length_cons]
    omega

/-- The walk of a value lookup loads the fallback like a walk. -/
theorem walk_loadFallback (e : RoundEnv) (s : ValueLookup) :
    (s.loadFallback rt e).walk = s.walk.loadFallback rt e :=
  (List.foldl_hom ValueLookup.walk fun _ _ => rfl).symm

theorem queried_loadFallback (e : RoundEnv) (s : ValueLookup) :
    (s.loadFallback rt e).queried = s.queried := by
  have hsame : ∀ (s : ValueLookup) (c : Contact), (s.takeFallback c).queried = s.queried :=
    fun _ _ => rfl
  exact foldl_same hsame (Walk.fallback rt e) _

/-- The variables of a round that asks `batch`. -/
def asking (s : ValueLookup) (batch : List NodeInfo) : ValueLookup :=
  { s with walk := s.walk.ask batch }

/-- The ways a round ends. -/
inductive Round (rt : Runtime) (limits : LookupLimits) (key : String) (env : ValueEnv)
    (s : ValueLookup) (i : Nat) : Except ValueReturn ValueLookup → Prop
  | idle (hover : s.stopped = true ∨ limits.maxPeerQueries ≤ s.queried) :
      Round rt limits key env s i (.ok s)
  | load (hbatch : s.walk.nextBatch rt limits key = [])
      (hmore : ((s.asking []).loadFallback rt (env.round i)).unqueried rt key = true)
      (hfirst : s.walk.diversityLoaded = false) :
      Round rt limits key env s i (.ok ((s.asking []).loadFallback rt (env.round i)))
  | covered (hbatch : s.walk.nextBatch rt limits key = [])
      (hnone : ((s.asking []).loadFallback rt (env.round i)).unqueried rt key = false)
      (hfirst : s.walk.diversityLoaded = false) :
      Round rt limits key env s i
        (.ok { (s.asking []).loadFallback rt (env.round i) with stopped := true })
  | rest (hbatch : s.walk.nextBatch rt limits key = [])
      (hloaded : s.walk.diversityLoaded = true) :
      Round rt limits key env s i (.ok { s.asking [] with stopped := true })
  | heard {s' : ValueLookup} (hne : s.walk.nextBatch rt limits key ≠ [])
      (hheard : s' = heardAll (hear rt s.branchByID) (env.round i)
        (s.asking (s.walk.nextBatch rt limits key))
        ((env.round i).arrivals (s.walk.nextBatch rt limits key))) :
      Round rt limits key env s i (.ok { s' with stopped := s'.collector.isConfirmed })
  | ended {s' : ValueLookup} {heard : List NodeInfo} (err : ContextError)
      (hne : s.walk.nextBatch rt limits key ≠ [])
      (hpre : heard <+: (env.round i).arrivals (s.walk.nextBatch rt limits key))
      (hheard : s' = heardAll (hear rt s.branchByID) (env.round i)
        (s.asking (s.walk.nextBatch rt limits key)) heard) :
      Round rt limits key env s i (.error
        (({ s' with walk := { s'.walk with cancelled := true } } : ValueLookup).giveIncomplete env
          (.ended s'.queried err)))

/-- Every round ends in one of these ways. -/
theorem round_cases (hcounted : s.queried = s.walk.batches.flatten.length) :
    Round rt limits key env s i (s.round rt limits key env i) := by
  rw [round]
  split
  · dsimp only
    have hbatch : closestUnqueried rt s.walk.known s.walk.queriedIDs key
        (min limits.maxConcurrent (limits.maxPeerQueries - s.queried)) =
        s.walk.nextBatch rt limits key := by
      rw [Walk.nextBatch, hcounted]
    rw [hbatch]
    split
    · rename_i hnil
      rw [hnil, exhausted]
      split
      · rename_i hloaded
        exact .rest hnil hloaded
      · rename_i hfirst
        have hfirst : s.walk.diversityLoaded = false := Bool.eq_false_of_not_eq_true hfirst
        dsimp only
        split
        · rename_i hmore
          exact .load hnil hmore hfirst
        · rename_i hnone
          exact .covered hnil (Bool.eq_false_of_not_eq_true hnone) hfirst
    · rename_i hne
      rw [askBatch]
      rcases receive_cases (hear rt s.branchByID) (env.round i)
          ((env.round i).arrivals (s.walk.nextBatch rt limits key)) 0
          (s.asking (s.walk.nextBatch rt limits key)) with h | ⟨heard, err, hpre, -, h⟩
      · rw [asking] at h
        rw [h]
        exact .heard hne rfl
      · rw [asking] at h
        rw [h]
        exact .ended err hne hpre rfl
  · rename_i hover
    refine .idle ?_
    simp only [Bool.and_eq_true, Bool.not_eq_true', decide_eq_true_eq, not_and_or, not_lt,
      Bool.not_eq_false] at hover
    exact hover

/-- The rule for one round: a property of every way it ends holds of its end. -/
theorem leaves_round (hcounted : s.queried = s.walk.batches.flatten.length)
    {post : ValueReturn → Prop} {inv : ValueLookup → Prop}
    (h : ∀ result, Round rt limits key env s i result → Leaves post inv result) :
    Leaves post inv (s.round rt limits key env i) :=
  h _ (round_cases hcounted)

/-- What the rounds keep: the walk is within its limits, and the results are counted. -/
structure Kept (rt : Runtime) (limits : LookupLimits) (env : ValueEnv) (i : Nat) (s : ValueLookup) :
    Prop where
  within : s.walk.Within rt limits env.toLookupEnv i
  counted : s.queried = s.walk.batches.flatten.length

theorem walk_takeSeed (e : SeedEnv) (s : ValueLookup) (seed : NodeInfo × Nat) :
    (s.takeSeed rt e seed).walk = s.walk.takeSeed rt e seed := by
  rw [takeSeed, Walk.takeSeed]
  split <;> rfl

theorem walk_start : (start rt limits key env).walk =
    (seeds rt limits key env.seeds).zipIdx.foldl (Walk.takeSeed rt env.seeds) {} :=
  (List.foldl_hom ValueLookup.walk fun s seed => (walk_takeSeed env.seeds s seed).symm).symm

theorem queried_start : (start rt limits key env).queried = 0 := by
  have hsame : ∀ (s : ValueLookup) (seed : NodeInfo × Nat),
      (s.takeSeed rt env.seeds seed).queried = s.queried := by
    intro s seed
    rw [takeSeed]
    split <;> rfl
  exact foldl_same hsame _ _

theorem Kept.start : (start rt limits key env).Kept rt limits env 0 := by
  obtain ⟨hbatches, hwithin⟩ := Walk.within_takeSeeds rt limits env.toLookupEnv
    (seeds rt limits key env.seeds).zipIdx
  refine ⟨?_, ?_⟩
  · rw [walk_start]
    exact hwithin
  · rw [queried_start, walk_start, hbatches]
    rfl

theorem walk_finish (s : ValueLookup) : (s.finish rt key env).lookup = s := by
  rw [finish]
  split
  · rfl
  · split
    · rfl
    · split
      · split <;> rfl
      · rfl
      · rfl

/-- One round keeps it; a round that ends the lookup leaves the walk within its limits. -/
theorem Kept.round (h : s.Kept rt limits env i) :
    Leaves (fun r : ValueReturn => r.lookup.walk.Within rt limits env.toLookupEnv (i + 1))
      (Kept rt limits env (i + 1)) (s.round rt limits key env i) := by
  have hmoves : ∀ w', Walk.Moves rt limits key (env.round i) s.walk w' →
      w'.Within rt limits env.toLookupEnv (i + 1) := fun w' hw => h.within.moves hw
  have hloaded : ((s.asking []).loadFallback rt (env.round i)).queried =
      ((s.walk.ask []).loadFallback rt (env.round i)).batches.flatten.length := by
    rw [queried_loadFallback, (Walk.grows_loadFallback (env.round i) _).batches, Walk.ask,
      List.flatten_concat, List.append_nil]
    exact h.counted
  refine leaves_round h.counted ?_
  intro result hcases
  cases hcases with
  | idle hover => exact ⟨h.within.mono (by omega), h.counted⟩
  | load hbatch hmore =>
    refine ⟨?_, ?_⟩
    · rw [walk_loadFallback]
      exact hmoves _ (.load hbatch)
    · rw [hloaded, walk_loadFallback]
      rfl
  | covered hbatch hnone =>
    refine ⟨?_, ?_⟩
    · dsimp only
      rw [walk_loadFallback]
      exact hmoves _ (.load hbatch)
    · dsimp only
      rw [hloaded, walk_loadFallback]
      rfl
  | rest hbatch hloaded =>
    refine ⟨hmoves _ (.rest hbatch), ?_⟩
    rw [asking, Walk.ask]
    dsimp only
    rw [List.flatten_concat, List.append_nil]
    exact h.counted
  | heard hne hheard =>
    subst hheard
    refine ⟨?_, ?_⟩
    · dsimp only
      rw [walk_heardAll]
      exact hmoves _ .hear
    · dsimp only
      rw [walk_heardAll, queried_heardAll, (Walk.grows_hearAll _ _ _).batches, asking, Walk.ask,
        List.flatten_concat, List.length_append, ← h.counted,
        ((env.round i).arrivals_perm _).length_eq]
  | ended err hne hpre hheard =>
    subst hheard
    rw [Leaves, giveIncomplete]
    dsimp only
    rw [walk_heardAll]
    exact hmoves _ (.cancel hpre)

/-- The rounds of a whole run. -/
theorem Kept.rounds (rt : Runtime) (limits : LookupLimits) (key : String) (env : ValueEnv)
    (m : Nat) :
    Leaves (fun r : ValueReturn => r.lookup.walk.Within rt limits env.toLookupEnv m)
      (Kept rt limits env m)
      ((List.range m).foldlM (ValueLookup.round rt limits key env)
        (ValueLookup.start rt limits key env)) := by
  refine Leaves.foldlM_range (Kept rt limits env) m ?_ Kept.start
  intro i s hi hs
  exact hs.round.imp (fun r hr => hr.mono hi) fun s hs => hs

/-- The rule for a value lookup: what holds of every return in the loop and of the returns after
the loop holds of what the lookup returns. -/
theorem returns {configured : LookupLimits} (hlimits : lookupLimits configured = limits)
    (Q : ValueReturn → Prop)
    (hloop : Leaves Q (fun s => Q (s.finish rt key env))
      ((List.range limits.maxRounds.toNat).foldlM (ValueLookup.round rt limits key env)
        (start rt limits key env))) :
    Q (recursiveFindValueDetailed rt configured env key) := by
  rw [recursiveFindValueDetailed, hlimits]
  split
  · rename_i hend
    rw [hend] at hloop
    exact hloop
  · rename_i hend
    rw [hend] at hloop
    exact hloop

end ValueLookup

/-! ## The bounds -/

/-- What a lookup may ask under its limits. -/
structure Bounded (rt : Runtime) (limits : LookupLimits) (env : LookupEnv)
    (batches : List (List NodeInfo)) : Prop where
  once : (batches.flatten.map NodeInfo.id).Nodup
  perRound : ∀ batch ∈ batches, (batch.length : Int) ≤ limits.maxConcurrent
  total : (batches.flatten.length : Int) ≤ limits.maxPeerQueries
  rounds : (batches.length : Int) ≤ limits.maxRounds
  admitted : ∀ n ∈ batches.flatten, env.Admits rt n

theorem Walk.Within.bounded {rt : Runtime} {limits : LookupLimits} {env : LookupEnv} {w : Walk}
    (h : w.Within rt limits env limits.maxRounds.toNat) (hrounds : 0 < limits.maxRounds)
    (hconcurrent : 0 < limits.maxConcurrent) (hqueries : 0 < limits.maxPeerQueries) :
    Bounded rt limits env w.batches where
  once := h.batched.once
  perRound := by
    intro batch hbatch
    have := h.batched.narrow batch hbatch
    omega
  total := by
    have := h.batched.few
    omega
  rounds := by
    have := h.rounds
    omega
  admitted := h.asked

/-- Under limits that the server accepts, both lookups ask no peer twice, no more than
`MaxConcurrent` in a round and `MaxPeerQueries` altogether, in at most `MaxRounds` rounds, and only
peers that were active in the routing table or passed `VerifyNodeInfo`. -/
theorem lookups_bounded (rt : Runtime) {limits configured : LookupLimits}
    (h : setLookupLimits limits = .ok configured) :
    (∀ env target bootstrap, Bounded rt limits env
      (recursiveFindNodeDetailed rt configured env target bootstrap).lookup.walk.batches) ∧
    ∀ env key, Bounded rt limits env.toLookupEnv
      (recursiveFindValueDetailed rt configured env key).lookup.walk.batches := by
  obtain ⟨hlimits, hrounds, hconcurrent, hqueries⟩ := lookupLimits_of_set h
  have hbounded : ∀ {env : LookupEnv} {w : Walk}, w.Within rt limits env limits.maxRounds.toNat →
      Bounded rt limits env w.batches :=
    fun hw => hw.bounded hrounds hconcurrent hqueries
  refine ⟨?_, ?_⟩
  · intro env target bootstrap
    apply hbounded
    refine NodeLookup.returns hlimits
      (fun r => r.lookup.walk.Within rt limits env limits.maxRounds.toNat) ?_ ?_
    · intro _
      exact (NodeLookup.Kept.start bootstrap).within.mono (Nat.zero_le _)
    · refine (NodeLookup.Kept.rounds rt limits target env bootstrap _).imp (fun r hr => hr) ?_
      intro s hs
      rw [NodeLookup.walk_finish]
      exact hs.within
  · intro env key
    apply hbounded
    refine ValueLookup.returns hlimits
      (fun r => r.lookup.walk.Within rt limits env.toLookupEnv limits.maxRounds.toNat) ?_
    refine (ValueLookup.Kept.rounds rt limits key env _).imp (fun r hr => hr) ?_
    intro s hs
    rw [ValueLookup.walk_finish]
    exact hs.within

/-! ## A server without a name -/

/-- A run time that decodes no records and knows no networks. -/
def blankRuntime : Runtime := .withoutDecoders Table.tableCrypto fun _ => ""

/-- The routing table of a server without a name that has one active peer. The hash of its name is
empty, so `AddNode` leaves the peer out of `NameBuckets`. -/
def namelessTable : Table :=
  ((newRoutingTable Table.tableCrypto Table.sampleSelf).setSelfNameHash Table.tableCrypto "").addNode
    Table.tableCrypto Table.samplePeer 0

/-- A round with this table in which no peer answers. -/
def silentRound (t : Table) : RoundEnv where
  table := t
  order := t.indexedPeers
  order_perm := List.Perm.refl _
  now := 0
  reply := fun _ => .error "timeout"
  arrivals := id
  arrivals_perm := fun _ => List.Perm.refl _
  done := fun _ => none

/-- A lookup that meets this table and silent peers. -/
def silentEnv (t : Table) : LookupEnv where
  seeds := { table := t, hintsNow := 0, activeTable := fun _ => t, now := fun _ => 0 }
  round := fun _ => silentRound t

/-- The same for a value lookup of a server that stores no values. -/
def silentValueEnv (t : Table) : ValueEnv :=
  { silentEnv t with values := ∅, now := 0, visit := id, visit_perm := fun _ => List.Perm.refl _ }

theorem lookups_bounded_default :
    Bounded blankRuntime defaultLookupLimits (silentEnv namelessTable)
      (recursiveFindNodeDetailed blankRuntime defaultLookupLimits (silentEnv namelessTable)
        "node/name/alice" false).lookup.walk.batches ∧
    Bounded blankRuntime defaultLookupLimits (silentEnv namelessTable)
      (recursiveFindValueDetailed blankRuntime defaultLookupLimits (silentValueEnv namelessTable)
        "node/name/alice").lookup.walk.batches := by
  have h := lookups_bounded blankRuntime
    (by decide : setLookupLimits defaultLookupLimits = .ok defaultLookupLimits)
  exact ⟨h.1 _ _ _, h.2 (silentValueEnv namelessTable) _⟩

end Vx6.Dht
