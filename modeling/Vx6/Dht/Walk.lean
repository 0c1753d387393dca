import Vx6.Dht.Closest
import Vx6.Dht.Collector
import Vx6.Lib.Batches

/-!
# Walks over contacts

What the two iterative lookups of `dht.go` share: the limits of a walk (`SetLookupLimits`), the
readings they take of the routing table, the choice of the next batch (`closestUnqueried`), and the
map `known` of contacts, which grows from seeds, from the diversity fallback and from the referrals
of the peers.

A `Walk` holds this map together with the history of the walk: the contacts it took up, the batches
it asked, the peers that answered. Everything a walk does not decide itself is in a `RoundEnv`: the
routing table when the round reads it, the replies, the order in which they arrive, and whether the
context ends. `Walk.Moves` lists what one round can do to a walk, and `Disciplined.moves` is the
invariant that every round keeps.
-/

set_option autoImplicit false

namespace Vx6.Dht

open Vx6.Go Vx6.Lib Vx6.Record

/-! ## Limits -/

/-- `LookupLimits`. -/
structure LookupLimits where
  maxRounds : Int
  maxConcurrent : Int
  maxPeerQueries : Int
  maxReferrals : Int
  maxResponseSize : Int
  maxRetries : Int := 0
  peerTimeout : Duration
  totalTimeout : Duration
  deriving DecidableEq, Repr

/-- `defaultLookupRounds`. -/
def defaultLookupRounds : Int := 20

/-- `defaultLookupParallelism`. -/
def defaultLookupParallelism : Int := 4

/-- `defaultLookupLimits`. -/
def defaultLookupLimits : LookupLimits where
  maxRounds := defaultLookupRounds
  maxConcurrent := defaultLookupParallelism
  maxPeerQueries := defaultLookupRounds * defaultLookupParallelism
  maxReferrals := 4
  maxResponseSize := 1024 * 1024
  peerTimeout := 2 * second
  totalTimeout := 10 * second

/-- The error of `SetLookupLimits`. -/
inductive LimitsError where
  | outOfRange
  deriving DecidableEq, Repr

/-- The value is positive and at most the ceiling. -/
def within (value ceiling : Int) : Bool := 0 < value && value ≤ ceiling

/-- `SetLookupLimits`: the limits that the server keeps from then on. -/
def setLookupLimits (limits : LookupLimits) : Except LimitsError LookupLimits := do
  let defaults := defaultLookupLimits
  rejectIf (!within limits.maxRounds defaults.maxRounds ||
    !within limits.maxConcurrent defaults.maxConcurrent ||
    !within limits.maxPeerQueries defaults.maxPeerQueries ||
    limits.maxPeerQueries > limits.maxRounds * limits.maxConcurrent ||
    !within limits.maxReferrals defaults.maxReferrals ||
    !within limits.maxResponseSize defaults.maxResponseSize ||
    limits.maxRetries < 0 || limits.maxRetries > 2 ||
    !within limits.peerTimeout defaults.peerTimeout ||
    !within limits.totalTimeout defaults.totalTimeout) .outOfRange
  return limits

/-- `LookupLimits()`: the limits of a server that was never given any are the default ones. -/
def lookupLimits (configured : LookupLimits) : LookupLimits :=
  if configured.maxRounds = 0 then defaultLookupLimits else configured

/-- The limits that the server keeps are the given ones, and lookups use them. -/
theorem lookupLimits_of_set {limits configured : LookupLimits}
    (h : setLookupLimits limits = .ok configured) :
    lookupLimits configured = limits ∧ 0 < limits.maxRounds ∧ 0 < limits.maxConcurrent ∧
      0 < limits.maxPeerQueries := by
  simp only [setLookupLimits, bind_eq_ok, rejectIf_eq_ok, pure_eq_ok, exists_const, within,
    Bool.or_eq_false_iff, Bool.not_eq_eq_eq_not, Bool.not_false, Bool.and_eq_true,
    decide_eq_true_eq] at h
  obtain ⟨⟨⟨⟨⟨⟨⟨⟨⟨⟨hrounds, hconcurrent⟩, hqueries⟩, -⟩, -⟩, -⟩, -⟩, -⟩, -⟩, -⟩, hlimits⟩ := h
  subst hlimits
  rw [lookupLimits, if_neg (by omega)]
  exact ⟨rfl, hrounds.1, hconcurrent.1, hqueries.1⟩

example : setLookupLimits defaultLookupLimits = .ok defaultLookupLimits := by decide

/-! ## Readings of the routing table -/

/-- `ActiveNode`. -/
def Table.activeNode (t : Table) (nodeID : String) : Option NodeInfo :=
  match t.peerByID.lookup nodeID with
  | none => none
  | some r => if !t.inBuckets nodeID && !t.inNameBuckets nodeID then none else some (t.node r)

/-- The peer is active: it is in one of the two bucket arrays. -/
def Table.Active (t : Table) (nodeID : String) : Prop :=
  t.inBuckets nodeID = true ∨ t.inNameBuckets nodeID = true

theorem Table.active_of_activeNode {t : Table} {nodeID : String}
    (h : (t.activeNode nodeID).isSome = true) : t.Active nodeID := by
  unfold activeNode at h
  split at h
  · cases h
  · split at h
    · cases h
    · rename_i hindexed
      unfold Active
      cases hin : t.inBuckets nodeID with
      | true => exact .inl rfl
      | false =>
        cases hname : t.inNameBuckets nodeID with
        | true => exact .inr rfl
        | false => simp [hin, hname] at hindexed

/-- The entries that `DiversityContacts` sorts. -/
def Table.indexedPeers (t : Table) : List Ref :=
  (t.peerByID.entries.map fun e => e.2).filter fun r => t.inBuckets (t.idOf r)

section Readings

variable (rt : Runtime)

/-- `ipv6Prefix48`. -/
def ipv6Prefix48 (address : String) : String :=
  match SourceObservation.ip { addr := address } with
  | none => ""
  | some ip => if ip.to4.isSome then "" else (ip.mask 48).string

/-- `peerDiversityKeys`. -/
def peerDiversityKeys (addr : String) : List String :=
  ((SourceObservation.ip { addr }).bind rt.resolveASN).toList.map ("asn:" ++ ·) ++
    (if ipv6Prefix48 addr ≠ "" then ["prefix:" ++ ipv6Prefix48 addr] else [])

/-- One turn of the loop of `DiversityContacts`: the keys seen and the contacts so far. -/
def coverMore (acc : List String × List NodeInfo) (node : NodeInfo) :
    List String × List NodeInfo :=
  let keys := peerDiversityKeys rt node.addr
  if keys.any (· ∉ acc.1) then (acc.1 ++ keys, acc.2 ++ [node]) else acc

/-- `DiversityContacts`, where sorting put the entries into the order `order`. -/
def Table.diversityContacts (t : Table) (order : List Ref) : List NodeInfo :=
  ((order.map t.node).foldl (coverMore rt) ([], [])).2

/-- `ClosestNodesForBootstrap`: peers that went offline recently are hints. -/
def Table.closestNodesForBootstrap (t : Table) (target : String) (count : Int) (byNameHash : Bool)
    (now : Time) : List NodeInfo :=
  let active := t.peersOf (if byNameHash then t.nameBuckets else t.buckets)
  let hints := (t.offline.entries.map fun e => e.2).filter fun r =>
    (t.heap r).offlineSince ≠ zeroTime && now - (t.heap r).offlineSince ≤ peerHistoryTTL &&
      t.idOf r ∉ active.map NodeInfo.id
  sortClosestEntries rt.toCrypto (active ++ hints.map t.node) target count byNameHash

/-- The target is the key of a name. -/
def isNameTarget (target : String) : Bool := hasPrefix target "node/name/"

/-- `closestForTarget`. -/
def Table.closestForTarget (t : Table) (target : String) (count : Int) : List NodeInfo :=
  if isNameTarget target then
    t.closestNodesByNameHash rt.toCrypto (trimPrefix target "node/name/") count
  else t.closestNodes rt.toCrypto target count

/-- `xorDistanceForNode`. -/
def xorDistanceForNode (node : NodeInfo) (target : String) : Nat :=
  if isNameTarget target then
    xorDistance rt.toCrypto (node.nodeNameHash rt.toCrypto) (trimPrefix target "node/name/")
  else xorDistance rt.toCrypto node.id (trimPrefix target "node/id/")

/-- `matchesNodeLookupTarget`. -/
def matchesNodeLookupTarget (info : NodeInfo) (target : String) : Bool :=
  if isNameTarget target then
    let want := trimPrefix target "node/name/"
    nodeNameHash rt.toCrypto info.name = want && (info.nameHash = "" || info.nameHash = want)
  else if hasPrefix target "node/id/" then info.id = trimPrefix target "node/id/"
  else info.id = target

/-- `closestUnqueried`. -/
def closestUnqueried (known : Dict String NodeInfo) (queried : List String) (target : String)
    (limit : Int) : List NodeInfo :=
  nearest (fun node => xorDistanceForNode rt node target)
    ((Dict.filter (fun id _ => id ∉ queried) known).entries.map fun e => e.2) limit

/-- `sortedKnown`. -/
def sortedKnown (known : Dict String NodeInfo) (target : String) (limit : Int) : List NodeInfo :=
  (closestUnqueried rt known [] target known.keys.length).take limit.toNat

/-- `VerifyNodeInfo` passes. -/
def verified (info : NodeInfo) (now : Time) : Bool := (verifyNodeInfo rt.toCrypto info now).isOk

end Readings

theorem mem_coverMore {rt : Runtime} {acc : List String × List NodeInfo} {node peer : NodeInfo}
    (h : peer ∈ (coverMore rt acc node).2) : peer ∈ acc.2 ∨ peer = node := by
  rw [coverMore, apply_ite Prod.snd] at h
  split at h
  · rcases List.mem_append.1 h with h | h
    · exact .inl h
    · exact .inr (List.mem_singleton.1 h)
  · exact .inl h

theorem mem_foldl_coverMore {rt : Runtime} {peer : NodeInfo} (nodes : List NodeInfo)
    (acc : List String × List NodeInfo) (h : peer ∈ (nodes.foldl (coverMore rt) acc).2) :
    peer ∈ acc.2 ∨ peer ∈ nodes := by
  induction nodes generalizing acc with
  | nil => exact .inl h
  | cons node nodes ih =>
    rw [List.foldl_cons] at h
    rcases ih (coverMore rt acc node) h with h | h
    · rcases mem_coverMore h with h | rfl
      · exact .inl h
      · exact .inr List.mem_cons_self
    · exact .inr (List.mem_cons_of_mem _ h)

/-- The contacts of the diversity fallback are entries in `Buckets`. -/
theorem active_of_mem_diversityContacts {rt : Runtime} {t : Table} {order : List Ref}
    (horder : order.Perm t.indexedPeers) {peer : NodeInfo}
    (h : peer ∈ t.diversityContacts rt order) : t.Active peer.id := by
  rcases mem_foldl_coverMore _ _ h with h | h
  · cases h
  · obtain ⟨r, hr, rfl⟩ := List.mem_map.1 h
    have hindexed := horder.mem_iff.1 hr
    exact .inl (List.mem_filter.1 hindexed).2

/-! ## The next batch -/

section Batch

variable {rt : Runtime} {known : Dict String NodeInfo} {queried : List String} {target : String}
  {limit : Int} {node : NodeInfo}

theorem nearest_sublist_perm (distance : NodeInfo → Nat) (peers : List NodeInfo) (count : Int) :
    ∃ l : List NodeInfo, l.Perm peers ∧ (nearest distance peers count).Sublist l :=
  ⟨ranked distance NodeInfo.id peers, ranked_perm _ _ _, List.take_sublist _ _⟩

theorem length_closestUnqueried_le :
    ((closestUnqueried rt known queried target limit).length : Int) ≤ max limit 0 := by
  rw [closestUnqueried, nearest, List.length_take]
  omega

/-- The peers of a batch are known and have not been asked. -/
theorem mem_closestUnqueried (hkeyed : ∀ id n, known.lookup id = some n → n.id = id)
    (h : node ∈ closestUnqueried rt known queried target limit) :
    known.lookup node.id = some node ∧ node.id ∉ queried := by
  obtain ⟨l, hperm, hsub⟩ := nearest_sublist_perm (fun node => xorDistanceForNode rt node target)
    ((Dict.filter (fun id _ => id ∉ queried) known).entries.map fun e => e.2) limit
  obtain ⟨e, he, rfl⟩ := List.mem_map.1 (hperm.mem_iff.1 (hsub.subset h))
  have hlookup : (Dict.filter (fun id _ => id ∉ queried) known).lookup e.1 = some e.2 :=
    AList.mem_lookup_iff.2 he
  rw [Dict.lookup_filter, Option.filter_eq_some_iff] at hlookup
  obtain ⟨hknown, hfresh⟩ := hlookup
  rw [hkeyed _ _ hknown]
  exact ⟨hknown, by simpa using hfresh⟩

/-- A batch has no two peers with one node ID. -/
theorem nodup_closestUnqueried (hkeyed : ∀ id n, known.lookup id = some n → n.id = id) :
    ((closestUnqueried rt known queried target limit).map NodeInfo.id).Nodup := by
  obtain ⟨l, hperm, hsub⟩ := nearest_sublist_perm (fun node => xorDistanceForNode rt node target)
    ((Dict.filter (fun id _ => id ∉ queried) known).entries.map fun e => e.2) limit
  refine (hsub.map NodeInfo.id).nodup ((hperm.map NodeInfo.id).nodup_iff.2 ?_)
  have hkeys : ((Dict.filter (fun id _ => id ∉ queried) known).entries.map fun e => e.2).map
      NodeInfo.id = (Dict.filter (fun id _ => id ∉ queried) known).keys := by
    rw [List.map_map, AList.keys, List.keys]
    refine List.map_congr_left ?_
    intro e he
    have hlookup : (Dict.filter (fun id _ => id ∉ queried) known).lookup e.1 = some e.2 :=
      AList.mem_lookup_iff.2 he
    rw [Dict.lookup_filter, Option.filter_eq_some_iff] at hlookup
    exact hkeyed _ _ hlookup.1
  rw [hkeys]
  exact AList.keys_nodup _

/-- There is no batch exactly when every known peer has been asked. -/
theorem closestUnqueried_eq_nil_iff (hlimit : 0 < limit) :
    closestUnqueried rt known queried target limit = [] ↔
      ∀ id n, known.lookup id = some n → id ∈ queried := by
  rw [closestUnqueried, nearest, List.take_eq_nil_iff, or_iff_right (by omega)]
  constructor
  · intro h id n hknown
    by_contra hfresh
    have hperm := ranked_perm (fun node => xorDistanceForNode rt node target) NodeInfo.id
      ((Dict.filter (fun id _ => id ∉ queried) known).entries.map fun e => e.2)
    rw [h] at hperm
    have hnone := Dict.entries_eq_nil_iff.1 (List.map_eq_nil_iff.1 hperm.nil_eq.symm) id
    rw [Dict.lookup_filter, hknown] at hnone
    simp [hfresh] at hnone
  · intro h
    have hnil : (Dict.filter (fun id _ => id ∉ queried) known).entries = [] := by
      refine Dict.entries_eq_nil_iff.2 ?_
      intro id
      rw [Dict.lookup_filter, Option.filter_eq_none_iff]
      intro n hn
      simpa using h id n hn
    rw [hnil]
    rfl

end Batch

/-! ## What a lookup meets -/

/-- The ways a context ends. -/
inductive ContextError where
  | canceled
  | deadlineExceeded
  deriving DecidableEq, Repr

/-- A contact that a reply names, and the clock reading when the lookup checks it. -/
structure Referral where
  info : NodeInfo
  now : Time

/-- The reply to a query. The reply to a node query has no value. -/
structure PeerReply where
  value : String := ""
  refs : List Referral := []

/-- What the seeds are read from. Other goroutines use the routing table as well, so the table that
ranks the seeds need not be the one in which a seed is looked up afterwards. -/
structure SeedEnv where
  table : Table
  hintsNow : Time
  activeTable : Nat → Table
  now : Nat → Time

/-- What one round meets: the routing table, the order in which it sorts the contacts of the
diversity fallback and the clock reading when it loads them; the replies of the peers, the order in
which they arrive, and the turns of the receiving loop in which the context has ended. -/
structure RoundEnv where
  table : Table
  order : List Ref
  order_perm : order.Perm table.indexedPeers
  now : Time
  reply : NodeInfo → Except String PeerReply
  arrivals : List NodeInfo → List NodeInfo
  arrivals_perm : ∀ batch, (arrivals batch).Perm batch
  done : Nat → Option ContextError

/-- What a lookup meets. -/
structure LookupEnv where
  seeds : SeedEnv
  round : Nat → RoundEnv

/-- A reply of the round names the contact with data that passes `VerifyNodeInfo` at the clock reading at
which the lookup checks this referral. -/
def RoundEnv.Refers (rt : Runtime) (e : RoundEnv) (node : NodeInfo) : Prop :=
  ∃ peer reply, e.reply peer = .ok reply ∧ ∃ ref ∈ reply.refs, ref.info = node ∧
    verified rt node ref.now = true

/-- The peer was active in a table that the lookup read, or its data passed `VerifyNodeInfo` when the lookup
took it up, as a seed or from a reply. -/
def LookupEnv.Admits (rt : Runtime) (env : LookupEnv) (node : NodeInfo) : Prop :=
  (∃ i, (env.seeds.activeTable i).Active node.id ∨ verified rt node (env.seeds.now i) = true) ∨
    ∃ i, (env.round i).table.Active node.id ∨ (env.round i).Refers rt node

/-! ## Walks -/

/-- Where a walk has a contact from. -/
inductive Origin where
  | seed
  | fallback
  | referral
  deriving DecidableEq, Repr

/-- A contact that a walk took up, with the clock reading at that moment. -/
structure Contact where
  info : NodeInfo
  now : Time
  origin : Origin

/-- The variables that both lookups have, and the history of the walk: the contacts taken up, the
batches asked, one for each round, the peers that answered without an error, and whether the context
ended before a batch had answered. -/
structure Walk where
  known : Dict String NodeInfo := ∅
  failures : Nat := 0
  diversityLoaded : Bool := false
  contacts : List Contact := []
  batches : List (List NodeInfo) := []
  answered : List NodeInfo := []
  cancelled : Bool := false

namespace Walk

/-- The keys of `queriedIDs`. -/
def queriedIDs (w : Walk) : List String := w.batches.flatten.map NodeInfo.id

/-- A contact is known from now on, under the data it was first known by. -/
def learn (w : Walk) (c : Contact) : Walk :=
  { w with
    known := if (w.known.lookup c.info.id).isSome then w.known else w.known.insert c.info.id c.info
    contacts := w.contacts ++ [c] }

/-- A batch is asked. -/
def ask (w : Walk) (batch : List NodeInfo) : Walk := { w with batches := w.batches ++ [batch] }

/-- A peer does not answer. -/
def fail (w : Walk) : Walk := { w with failures := w.failures + 1 }

/-- A peer answers. -/
def answer (w : Walk) (node : NodeInfo) : Walk := { w with answered := w.answered ++ [node] }

/-- `known[node.ID] = node` for a seed that is kept. -/
def seed (w : Walk) (c : Contact) : Walk :=
  { w with known := w.known.insert c.info.id c.info, contacts := w.contacts ++ [c] }

variable (rt : Runtime)

/-- A seed is kept: it is active, or its data passes the check. -/
def keepsSeed (e : SeedEnv) (node : NodeInfo) (i : Nat) : Bool :=
  ((e.activeTable i).activeNode node.id).isSome || verified rt node (e.now i)

/-- One turn of the loop over the seeds. -/
def takeSeed (e : SeedEnv) (w : Walk) (s : NodeInfo × Nat) : Walk :=
  if keepsSeed rt e s.1 s.2 then w.seed ⟨s.1, e.now s.2, .seed⟩ else w

/-- A referral is taken up. -/
def acceptsReferral (ref : Referral) : Bool :=
  verified rt ref.info ref.now && ref.info.id ≠ "" && ref.info.addr ≠ ""

/-- One turn of the loop over the referrals of a reply. -/
def refer (w : Walk) (ref : Referral) : Walk :=
  if acceptsReferral rt ref then w.learn ⟨ref.info, ref.now, .referral⟩ else w

/-- The result of one query. -/
def hear (w : Walk) (node : NodeInfo) : Except String PeerReply → Walk
  | .error _ => w.fail
  | .ok reply => reply.refs.foldl (refer rt) (w.answer node)

/-- The results of some queries, one after the other. -/
def hearAll (e : RoundEnv) (w : Walk) (heard : List NodeInfo) : Walk :=
  heard.foldl (fun w node => w.hear rt node (e.reply node)) w

/-- The contacts of the diversity fallback, as a round reads them. -/
def fallback (e : RoundEnv) : List Contact :=
  (e.table.diversityContacts rt e.order).map fun peer => ⟨peer, e.now, .fallback⟩

/-- The diversity fallback is loaded. -/
def loadFallback (e : RoundEnv) (w : Walk) : Walk :=
  (fallback rt e).foldl learn { w with diversityLoaded := true }

/-- The batch of the next round. -/
def nextBatch (limits : LookupLimits) (target : String) (w : Walk) : List NodeInfo :=
  closestUnqueried rt w.known w.queriedIDs target
    (min limits.maxConcurrent (limits.maxPeerQueries - w.batches.flatten.length))

/-- What one round can do to a walk. -/
inductive Moves (limits : LookupLimits) (target : String) (e : RoundEnv) (w : Walk) : Walk → Prop
  | rest (hbatch : w.nextBatch rt limits target = []) : Moves limits target e w (w.ask [])
  | load (hbatch : w.nextBatch rt limits target = []) :
      Moves limits target e w ((w.ask []).loadFallback rt e)
  | hear : Moves limits target e w ((w.ask (w.nextBatch rt limits target)).hearAll rt e
      (e.arrivals (w.nextBatch rt limits target)))
  | cancel {heard : List NodeInfo} (hheard : heard <+: e.arrivals (w.nextBatch rt limits target)) :
      Moves limits target e w { (w.ask (w.nextBatch rt limits target)).hearAll rt e heard with
        cancelled := true }

/-! ## How the known contacts grow -/

/-- Contacts for which `P` holds are added to those known; nothing is asked and nothing is known by
other data. -/
structure Grows (P : NodeInfo → Prop) (w w' : Walk) : Prop where
  kept : ∀ id n, w.known.lookup id = some n → w'.known.lookup id = some n
  added : ∀ id n, w'.known.lookup id = some n → w.known.lookup id = some n ∨ n.id = id ∧ P n
  batches : w'.batches = w.batches

section Grows

variable {rt} {P Q : NodeInfo → Prop} {w w' w'' : Walk}

theorem Grows.refl (P : NodeInfo → Prop) (w : Walk) : Grows P w w :=
  ⟨fun _ _ h => h, fun _ _ h => .inl h, rfl⟩

theorem Grows.trans (h : Grows P w w') (h' : Grows P w' w'') : Grows P w w'' where
  kept := fun id n hn => h'.kept id n (h.kept id n hn)
  added := by
    intro id n hn
    rcases h'.added id n hn with hold | hnew
    · exact h.added id n hold
    · exact .inr hnew
  batches := h'.batches.trans h.batches

theorem Grows.foldl {α : Type} {f : Walk → α → Walk} (l : List α)
    (h : ∀ w, ∀ a ∈ l, Grows P w (f w a)) (w : Walk) : Grows P w (l.foldl f w) := by
  induction l generalizing w with
  | nil => exact Grows.refl P w
  | cons a l ih =>
    refine (h w a List.mem_cons_self).trans (ih ?_ (f w a))
    exact fun w b hb => h w b (List.mem_cons_of_mem _ hb)

theorem grows_learn (w : Walk) {c : Contact} (hc : P c.info) : Grows P w (w.learn c) := by
  refine ⟨?_, ?_, rfl⟩
  · intro id n hn
    rw [learn]
    dsimp only
    split
    · exact hn
    · rename_i habsent
      rw [Dict.lookup_insert_eq, if_neg ?_]
      · exact hn
      · rintro rfl
        exact habsent (by rw [hn]; rfl)
  · intro id n hn
    rw [learn] at hn
    dsimp only at hn
    split at hn
    · exact .inl hn
    · rw [Dict.lookup_insert_eq] at hn
      split at hn
      · rename_i hid
        cases hn
        exact .inr ⟨hid.symm, hc⟩
      · exact .inl hn

theorem grows_refer (w : Walk) {ref : Referral} (hP : verified rt ref.info ref.now = true → P ref.info) :
    Grows P w (w.refer rt ref) := by
  rw [refer]
  split
  · rename_i h
    simp only [acceptsReferral, Bool.and_eq_true] at h
    exact grows_learn w (hP h.1.1)
  · exact Grows.refl _ w

/-- The peers' results add contacts that a reply names and that passed `VerifyNodeInfo`. -/
theorem grows_hearAll (e : RoundEnv) (w : Walk) (heard : List NodeInfo) :
    Grows (e.Refers rt) w (w.hearAll rt e heard) := by
  refine Grows.foldl heard (fun w node _ => ?_) w
  cases hreply : e.reply node with
  | error _ => exact ⟨fun _ _ h => h, fun _ _ h => .inl h, rfl⟩
  | ok reply =>
    have hanswer : Grows (e.Refers rt) w (w.answer node) := ⟨fun _ _ h => h, fun _ _ h => .inl h, rfl⟩
    refine hanswer.trans (Grows.foldl reply.refs (fun w ref href => grows_refer w fun hverified => ?_) _)
    exact ⟨node, reply, hreply, ref, href, rfl, hverified⟩

/-- The fallback adds contacts that are active in the table of the round. -/
theorem grows_loadFallback (e : RoundEnv) (w : Walk) :
    Grows (fun n => e.table.Active n.id) w (w.loadFallback rt e) := by
  have hflag : Grows (fun n => e.table.Active n.id) w { w with diversityLoaded := true } :=
    ⟨fun _ _ h => h, fun _ _ h => .inl h, rfl⟩
  refine hflag.trans (Grows.foldl (fallback rt e) ?_ _)
  intro w c hc
  obtain ⟨peer, hpeer, rfl⟩ := List.mem_map.1 hc
  exact grows_learn w (active_of_mem_diversityContacts e.order_perm hpeer)

end Grows

/-! ## Discipline -/

/-- A walk within its limits: it knows peers under their IDs, which are active or verified, and has
asked such peers only, none of them twice and never more than allowed. -/
structure Disciplined (limits : LookupLimits) (env : LookupEnv) (w : Walk) : Prop where
  keyed : ∀ id n, w.known.lookup id = some n → n.id = id
  admits : ∀ id n, w.known.lookup id = some n → env.Admits rt n
  batched : Batched NodeInfo.id limits.maxConcurrent.toNat limits.maxPeerQueries.toNat w.batches
  asked : ∀ n ∈ w.batches.flatten, env.Admits rt n

section Discipline

variable {rt} {limits : LookupLimits} {env : LookupEnv} {target : String} {w w' : Walk}

theorem Disciplined.start (rt : Runtime) (limits : LookupLimits) (env : LookupEnv) :
    Disciplined rt limits env {} where
  keyed := fun id n hn => by simp at hn
  admits := fun id n hn => by simp at hn
  batched := Batched.nil _ _ _
  asked := fun n hn => absurd hn List.not_mem_nil

theorem Disciplined.takeSeed (h : Disciplined rt limits env w) (s : NodeInfo × Nat) :
    Disciplined rt limits env (w.takeSeed rt env.seeds s) := by
  rw [Walk.takeSeed]
  split
  · rename_i hkept
    have hadmits : env.Admits rt s.1 := by
      rcases Bool.or_eq_true_iff.1 hkept with hactive | hverified
      · exact .inl ⟨s.2, .inl (Table.active_of_activeNode hactive)⟩
      · exact .inl ⟨s.2, .inr hverified⟩
    -- A seed is stored under its own ID, over what was known by that ID before.
    have hstored : ∀ id n, (w.known.insert s.1.id s.1).lookup id = some n →
        n.id = id ∧ env.Admits rt n := by
      intro id n hn
      rw [Dict.lookup_insert_eq] at hn
      split at hn
      · rename_i hid
        cases hn
        exact ⟨hid.symm, hadmits⟩
      · exact ⟨h.keyed id n hn, h.admits id n hn⟩
    exact ⟨fun id n hn => (hstored id n hn).1, fun id n hn => (hstored id n hn).2, h.batched,
      h.asked⟩
  · exact h

theorem Disciplined.takeSeeds (h : Disciplined rt limits env w) (seeds : List (NodeInfo × Nat)) :
    Disciplined rt limits env (seeds.foldl (Walk.takeSeed rt env.seeds) w) := by
  induction seeds generalizing w with
  | nil => exact h
  | cons s seeds ih => exact ih (h.takeSeed s)

theorem Disciplined.grows {P : NodeInfo → Prop} (h : Disciplined rt limits env w)
    (hgrows : Grows P w w') (hP : ∀ n, P n → env.Admits rt n) : Disciplined rt limits env w' where
  keyed := by
    intro id n hn
    rcases hgrows.added id n hn with hold | hnew
    · exact h.keyed id n hold
    · exact hnew.1
  admits := by
    intro id n hn
    rcases hgrows.added id n hn with hold | hnew
    · exact h.admits id n hold
    · exact hP n hnew.2
  batched := by
    rw [hgrows.batches]
    exact h.batched
  asked := by
    rw [hgrows.batches]
    exact h.asked

/-- The next batch holds known peers that have not been asked, within what the limits leave. -/
theorem Disciplined.ask (h : Disciplined rt limits env w) :
    Disciplined rt limits env (w.ask (w.nextBatch rt limits target)) := by
  have hmem : ∀ n ∈ w.nextBatch rt limits target,
      w.known.lookup n.id = some n ∧ n.id ∉ w.queriedIDs :=
    fun n hn => mem_closestUnqueried h.keyed hn
  have hlength : ((w.nextBatch rt limits target).length : Int) ≤ max _ 0 :=
    length_closestUnqueried_le
  refine ⟨h.keyed, h.admits, ?_, ?_⟩
  · refine h.batched.concat (nodup_closestUnqueried h.keyed) (fun n hn => (hmem n hn).2) ?_ ?_
    · omega
    · omega
  · intro n hn
    rw [Walk.ask, List.flatten_concat, List.mem_append] at hn
    rcases hn with hn | hn
    · exact h.asked n hn
    · exact h.admits _ n (hmem n hn).1

/-- Every round keeps the discipline, whatever the peers reply. -/
theorem Disciplined.moves (h : Disciplined rt limits env w) {i : Nat}
    (hmoves : Moves rt limits target (env.round i) w w') : Disciplined rt limits env w' := by
  have hreferred : ∀ n, (env.round i).Refers rt n → env.Admits rt n := fun n hn => .inr ⟨i, .inr hn⟩
  cases hmoves with
  | rest hbatch =>
    rw [← hbatch]
    exact h.ask
  | load hbatch =>
    rw [← hbatch]
    exact h.ask.grows (grows_loadFallback (env.round i) _) fun n hn => .inr ⟨i, .inl hn⟩
  | hear => exact h.ask.grows (grows_hearAll _ _ _) hreferred
  | @cancel heard hheard =>
    have hgrown := h.ask.grows (grows_hearAll (env.round i)
      (w.ask (w.nextBatch rt limits target)) heard) hreferred
    exact ⟨hgrown.keyed, hgrown.admits, hgrown.batched, hgrown.asked⟩

/-- A disciplined walk that has taken at most `m` rounds. -/
structure Within (rt : Runtime) (limits : LookupLimits) (env : LookupEnv) (m : Nat) (w : Walk) :
    Prop extends Disciplined rt limits env w where
  rounds : w.batches.length ≤ m

/-- The walk over the seeds asks nobody. -/
theorem within_takeSeeds (rt : Runtime) (limits : LookupLimits) (env : LookupEnv)
    (seeds : List (NodeInfo × Nat)) :
    (seeds.foldl (takeSeed rt env.seeds) {}).batches = [] ∧
      Within rt limits env 0 (seeds.foldl (takeSeed rt env.seeds) {}) := by
  have hsame : ∀ (w : Walk) (s : NodeInfo × Nat),
      (w.takeSeed rt env.seeds s).batches = w.batches := by
    intro w s
    rw [takeSeed]
    split <;> rfl
  have hbatches : (seeds.foldl (takeSeed rt env.seeds) {}).batches = [] := foldl_same hsame seeds {}
  refine ⟨hbatches, (Disciplined.start rt limits env).takeSeeds seeds, ?_⟩
  rw [hbatches]
  exact Nat.le_refl 0

theorem Within.mono {m m' : Nat} (h : Within rt limits env m w) (hm : m ≤ m') :
    Within rt limits env m' w :=
  ⟨h.toDisciplined, h.rounds.trans hm⟩

theorem Within.moves {i m : Nat} (h : Within rt limits env m w)
    (hmoves : Moves rt limits target (env.round i) w w') : Within rt limits env (m + 1) w' := by
  refine ⟨h.toDisciplined.moves hmoves, ?_⟩
  have hask : ∀ batch, (w.ask batch).batches.length ≤ m + 1 := by
    intro batch
    have := h.rounds
    simpa [Walk.ask] using this
  cases hmoves with
  | rest => exact hask _
  | load =>
    rw [(grows_loadFallback (env.round i) _).batches]
    exact hask _
  | hear =>
    rw [(grows_hearAll (env.round i) _ _).batches]
    exact hask _
  | cancel =>
    dsimp only
    rw [(grows_hearAll (env.round i) _ _).batches]
    exact hask _

end Discipline

end Walk

end Vx6.Dht
