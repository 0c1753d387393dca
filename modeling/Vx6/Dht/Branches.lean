import Vx6.Dht.Lookup
import Vx6.Lib.Forest

/-!
# Branches of a value lookup

A value lookup numbers its branches: a seed by its position among the seeds, a contact of the diversity
fallback by the number of contacts known so far, and a peer that another one refers like that one. A value
is confirmed only if it comes from two branches.

`traceFindValue` is the lookup with the first referrer of every peer written down. The numbers identify the
roots of the peers (`branches_identify_roots`) if no seed is skipped before one that is kept, or if the
fallback has only seeds to offer. A seed that is no longer active when it is looked at is skipped, and then
the fallback can use a number for the second time (`branch_number_reused`).
-/

set_option autoImplicit false

namespace Vx6.Dht

open Vx6.Go Vx6.Lib

/-! ## Who referred a peer first -/

/-- The first referrer of every known peer; a root has none. -/
abbrev Referrers := Dict String (Option String)

namespace Referrers

/-- A peer is taken up, if it was not known before. -/
def note (d : Referrers) (nodeID : String) (referrer : Option String) : Referrers :=
  if (d.lookup nodeID).isSome then d else d.insert nodeID referrer

variable (rt : Runtime)

/-- A seed that is kept is a root. -/
def takeSeed (e : SeedEnv) (d : Referrers) (seed : NodeInfo × Nat) : Referrers :=
  if Walk.keepsSeed rt e seed.1 seed.2 then d.note seed.1.id none else d

/-- A contact of the diversity fallback is a root. -/
def takeFallback (d : Referrers) (c : Contact) : Referrers := d.note c.info.id none

/-- A referral of `node`. -/
def refer (node : NodeInfo) (d : Referrers) (ref : Referral) : Referrers :=
  if Walk.acceptsReferral rt ref then d.note ref.info.id (some node.id) else d

/-- The result of one query. -/
def hear (d : Referrers) (node : NodeInfo) : Except String PeerReply → Referrers
  | .error _ => d
  | .ok reply => reply.refs.foldl (refer rt node) d

/-- The results of some queries, one after the other. -/
def hearAll (e : RoundEnv) (d : Referrers) (heard : List NodeInfo) : Referrers :=
  heard.foldl (fun d node => d.hear rt node (e.reply node)) d

/-- What a round adds that leads from `s` to `s'`: the contacts of the diversity fallback, if it loads them,
and the referrals in the results it hears, one result for each query that it counts. -/
def round (limits : LookupLimits) (key : String) (e : RoundEnv) (s s' : ValueLookup) (d : Referrers) :
    Referrers :=
  let d := if s'.walk.diversityLoaded && !s.walk.diversityLoaded then
    (Walk.fallback rt e).foldl takeFallback d else d
  d.hearAll rt e ((e.arrivals (s.walk.nextBatch rt limits key)).take (s'.queried - s.queried))

end Referrers

/-- The variables of a value lookup, and the first referrers of the peers it knows. -/
structure Traced where
  lookup : ValueLookup
  referrers : Referrers

namespace Traced

variable (rt : Runtime) (limits : LookupLimits) (key : String)

def start (env : ValueEnv) : Traced where
  lookup := ValueLookup.start rt limits key env
  referrers :=
    (ValueLookup.seeds rt limits key env.seeds).zipIdx.foldl (Referrers.takeSeed rt env.seeds) ∅

/-- One round, which the lookup may end. -/
def round (env : ValueEnv) (t : Traced) (i : Nat) : Except Traced Traced :=
  let after (s' : ValueLookup) : Traced :=
    ⟨s', t.referrers.round rt limits key (env.round i) t.lookup s'⟩
  match t.lookup.round rt limits key env i with
  | .error result => .error (after result.lookup)
  | .ok s => .ok (after s)

end Traced

/-- `RecursiveFindValueDetailed` with the first referrers written down. -/
def traceFindValue (rt : Runtime) (configured : LookupLimits) (env : ValueEnv) (key : String) : Traced :=
  let limits := lookupLimits configured
  match (List.range limits.maxRounds.toNat).foldlM (Traced.round rt limits key env)
      (Traced.start rt limits key env) with
  | .error t => t
  | .ok t => t

/-- The two peers descend from one root in the lookup. -/
def SameRoot (rt : Runtime) (configured : LookupLimits) (env : ValueEnv) (key : String)
    (p q : NodeInfo) : Prop :=
  ∃ root, DescendsFrom (traceFindValue rt configured env key).referrers.lookup p.id root ∧
    DescendsFrom (traceFindValue rt configured env key).referrers.lookup q.id root

/-- The seeds that are kept, with their positions among the seeds. -/
def keptSeeds (rt : Runtime) (limits : LookupLimits) (key : String) (e : SeedEnv) : List (NodeInfo × Nat) :=
  (ValueLookup.seeds rt limits key e).zipIdx.filter fun seed => Walk.keepsSeed rt e seed.1 seed.2

/-- The IDs of the seeds that are kept. -/
def keptIDs (rt : Runtime) (limits : LookupLimits) (key : String) (e : SeedEnv) : List String :=
  (keptSeeds rt limits key e).map fun seed => seed.1.id

/-- The seeds that are kept are different peers, and they are the first ones: none is skipped before one of
them. -/
structure Unbroken (rt : Runtime) (limits : LookupLimits) (key : String) (e : SeedEnv) : Prop where
  distinct : (keptIDs rt limits key e).Nodup
  first : (keptSeeds rt limits key e).map Prod.snd = List.range (keptSeeds rt limits key e).length

/-- Whenever the diversity fallback is loaded, it offers nobody but seeds that are kept. -/
def FallbackKnown (rt : Runtime) (limits : LookupLimits) (key : String) (env : ValueEnv) : Prop :=
  ∀ i, ∀ c ∈ Walk.fallback rt (env.round i), c.info.id ∈ keptIDs rt limits key env.seeds

variable {rt : Runtime} {limits : LookupLimits} {key : String} {env : ValueEnv}

/-- Writing the referrers down does not change the lookup. -/
theorem lookup_rounds (rounds : List Nat) (t : Traced) :
    ((rounds.foldlM (Traced.round rt limits key env) t).mapError Traced.lookup).map Traced.lookup =
      (rounds.foldlM (ValueLookup.round rt limits key env) t.lookup).mapError ValueReturn.lookup := by
  induction rounds generalizing t with
  | nil => rfl
  | cons i rounds ih =>
    rw [List.foldlM_cons, List.foldlM_cons, Traced.round]
    cases t.lookup.round rt limits key env i with
    | error result => rfl
    | ok s => exact ih _

theorem lookup_traceFindValue (rt : Runtime) (configured : LookupLimits) (env : ValueEnv) (key : String) :
    (traceFindValue rt configured env key).lookup =
      (recursiveFindValueDetailed rt configured env key).lookup := by
  have hend : ∀ (traced : Except Traced Traced) (run : Except ValueReturn ValueLookup),
      (traced.mapError Traced.lookup).map Traced.lookup = run.mapError ValueReturn.lookup →
        (match traced with
          | .error t => t
          | .ok t => t).lookup =
        (match run with
          | .error result => result
          | .ok s => s.finish rt key env).lookup := by
    intro traced run h
    cases traced <;> cases run
    · exact Except.error.inj h
    · cases h
    · cases h
    · rw [ValueLookup.walk_finish]
      exact Except.ok.inj h
  exact hend _ _ (lookup_rounds _ _)

/-! ## One peer more -/

theorem lookup_insert_update {ν : Type} (m : Dict String ν) (k : String) (v : ν) :
    (m.insert k v).lookup = Function.update m.lookup k (some v) := by
  funext k'
  rw [Dict.lookup_insert_eq, Function.update_apply]

theorem length_keys_insert {ν : Type} {m : Dict String ν} {k : String} (h : m.lookup k = none) (v : ν) :
    (m.insert k v).keys.length = m.keys.length + 1 := by
  have habsent : k ∉ m.keys := by
    rw [Dict.mem_keys_iff, h]
    exact Bool.false_ne_true
  rw [AList.keys_insert, List.erase_of_not_mem habsent, List.length_cons]

namespace ValueLookup

variable {s s' : ValueLookup} {d : Referrers} {bound : Nat} {base : List String}

/-- The branch numbers of the known peers are those of their roots, at most as large as there are peers or
as `bound`. The peers of `base` are known, and only known peers were asked. -/
structure Rooted (bound : Nat) (base : List String) (s : ValueLookup) (d : Referrers) : Prop where
  numbered : Numbered d.lookup s.branchByID.lookup (max bound s.branchByID.keys.length)
  known : ∀ nodeID, (s.walk.known.lookup nodeID).isSome = (d.lookup nodeID).isSome
  asked : ∀ node ∈ s.walk.batches.flatten, (d.lookup node.id).isSome = true
  based : ∀ nodeID ∈ base, (d.lookup nodeID).isSome = true

/-- What does not touch the maps and the batches keeps it. -/
theorem Rooted.congr (h : Rooted bound base s d) (hbranch : s'.branchByID = s.branchByID)
    (hknown : s'.walk.known = s.walk.known) (hbatches : s'.walk.batches = s.walk.batches) :
    Rooted bound base s' d := by
  refine ⟨?_, ?_, ?_, h.based⟩
  · rw [hbranch]
    exact h.numbered
  · rw [hknown]
    exact h.known
  · rw [hbatches]
    exact h.asked

/-- A new peer is a root with the next number, which has to be above `bound`, or has the number of its
referrer. -/
theorem Rooted.take (h : Rooted bound base s d) {peer : NodeInfo} {referrer : Option String} {branch : Int}
    (hnew : d.lookup peer.id = none)
    (hnumber : bound = 0 ∧ referrer = none ∧ branch = s.branchByID.keys.length + 1 ∨
      ∃ p, referrer = some p ∧ s.branchByID.lookup p = some branch)
    (hbranch : s'.branchByID = s.branchByID.insert peer.id branch)
    (hknown : s'.walk.known = s.walk.known.insert peer.id peer)
    (hbatches : s'.walk.batches = s.walk.batches) : Rooted bound base s' (d.insert peer.id referrer) := by
  have hfree : s.branchByID.lookup peer.id = none := by
    have hthere := h.numbered.there peer.id
    rwa [hnew, Option.isSome_none, Option.isSome_eq_false_iff, Option.isNone_iff_eq_none] at hthere
  have hkeeps : ∀ nodeID, (d.lookup nodeID).isSome = true →
      ((d.insert peer.id referrer).lookup nodeID).isSome = true := by
    intro nodeID hthere
    rw [Dict.lookup_insert_eq]
    split
    · rfl
    · exact hthere
  refine ⟨?_, ?_, ?_, fun nodeID hbase => hkeeps nodeID (h.based nodeID hbase)⟩
  · rw [hbranch, length_keys_insert hfree, lookup_insert_update, lookup_insert_update]
    refine h.numbered.take_new hnew ?_ (by omega) ?_
    · rcases hnumber with ⟨rfl, hroot, rfl⟩ | hreferred
      · exact .inl ⟨hroot, by omega⟩
      · exact .inr hreferred
    · rcases hnumber with ⟨-, -, rfl⟩ | ⟨p, -, hp⟩
      · omega
      · have := h.numbered.below p branch hp
        omega
  · intro nodeID
    rw [hknown, Dict.lookup_insert_eq, Dict.lookup_insert_eq]
    split
    · rfl
    · exact h.known nodeID
  · intro node hnode
    rw [hbatches] at hnode
    exact hkeeps node.id (h.asked node hnode)

/-- The same for a peer that may be known: one that is keeps everything as it is. -/
theorem Rooted.note (h : Rooted bound base s d) (peer : NodeInfo) {referrer : Option String} (branch : Int)
    (hnumber : (s.walk.known.lookup peer.id).isSome = true ∨
      bound = 0 ∧ referrer = none ∧ branch = s.branchByID.keys.length + 1 ∨
      ∃ p, referrer = some p ∧ s.branchByID.lookup p = some branch)
    (hbranch : s'.branchByID = if (s.walk.known.lookup peer.id).isSome then s.branchByID
      else s.branchByID.insert peer.id branch)
    (hknown : s'.walk.known = if (s.walk.known.lookup peer.id).isSome then s.walk.known
      else s.walk.known.insert peer.id peer)
    (hbatches : s'.walk.batches = s.walk.batches) : Rooted bound base s' (d.note peer.id referrer) := by
  rw [Referrers.note, ← h.known]
  by_cases hold : (s.walk.known.lookup peer.id).isSome = true
  · rw [if_pos hold] at hbranch hknown ⊢
    exact h.congr hbranch hknown hbatches
  · rw [if_neg hold] at hbranch hknown ⊢
    have hnew : d.lookup peer.id = none := by
      rw [← Option.isNone_iff_eq_none, ← Option.isSome_eq_false_iff, ← h.known]
      exact Bool.eq_false_of_not_eq_true hold
    exact h.take hnew (hnumber.resolve_left hold) hbranch hknown hbatches

theorem Rooted.takeFallback (h : Rooted bound base s d) {c : Contact}
    (hc : bound = 0 ∨ c.info.id ∈ base) : Rooted bound base (s.takeFallback c) (d.takeFallback c) := by
  refine h.note c.info (s.branchByID.keys.length + 1) ?_ rfl rfl rfl
  rcases hc with hzero | hbase
  · exact .inr (.inl ⟨hzero, rfl, rfl⟩)
  · exact .inl ((h.known _).trans (h.based _ hbase))

theorem Rooted.loadFallback (h : Rooted bound base s d) {e : RoundEnv}
    (he : bound = 0 ∨ ∀ c ∈ Walk.fallback rt e, c.info.id ∈ base) :
    Rooted bound base (s.loadFallback rt e) ((Walk.fallback rt e).foldl Referrers.takeFallback d) := by
  have hfold : ∀ (contacts : List Contact) (s : ValueLookup) (d : Referrers),
      (∀ c ∈ contacts, bound = 0 ∨ c.info.id ∈ base) → Rooted bound base s d →
      Rooted bound base (contacts.foldl ValueLookup.takeFallback s)
        (contacts.foldl Referrers.takeFallback d) := by
    intro contacts
    induction contacts with
    | nil => exact fun s d _ h => h
    | cons c contacts ih =>
      intro s d hall h
      obtain ⟨hc, hcontacts⟩ := List.forall_mem_cons.1 hall
      exact ih _ _ hcontacts (h.takeFallback hc)
  exact hfold _ _ _ (fun c hc => he.imp id fun hbase => hbase c hc) (h.congr rfl rfl rfl)

/-! ## The results of a batch -/

/-- While results are heard, the peers keep the branches with which the queries were sent. -/
structure Hearing (bound : Nat) (base : List String) (sent : Dict String Int) (s : ValueLookup)
    (d : Referrers) : Prop extends Rooted bound base s d where
  kept : ∀ nodeID branch, sent.lookup nodeID = some branch → s.branchByID.lookup nodeID = some branch

variable {sent : Dict String Int} {node : NodeInfo}

theorem Hearing.takeReferral (h : Hearing bound base sent s d) {branch : Int}
    (hsent : sent.lookup node.id = some branch) (ref : Referral) :
    Hearing bound base sent (s.takeReferral rt branch ref) (d.refer rt node ref) := by
  rw [ValueLookup.takeReferral, Referrers.refer]
  by_cases haccepted : Walk.acceptsReferral rt ref = true
  · rw [if_pos haccepted, if_pos haccepted]
    refine ⟨h.toRooted.note ref.info branch (.inr (.inr ⟨node.id, rfl, h.kept _ _ hsent⟩)) rfl rfl rfl, ?_⟩
    intro nodeID b hb
    dsimp only
    split
    · exact h.kept nodeID b hb
    · rename_i hnew
      -- a peer that was sent a query is known, so it is not the new one
      have hne : nodeID ≠ ref.info.id := by
        rintro rfl
        apply hnew
        rw [h.known, ← h.numbered.there, h.kept _ _ hb]
        rfl
      rw [Dict.lookup_insert_eq, if_neg hne]
      exact h.kept nodeID b hb
  · rw [if_neg haccepted, if_neg haccepted]
    exact h

theorem Hearing.hear (h : Hearing bound base sent s d) (hsent : (sent.lookup node.id).isSome = true)
    (reply : Except String PeerReply) :
    Hearing bound base sent (s.hear rt sent node reply) (d.hear rt node reply) := by
  cases reply with
  | error e => exact ⟨h.toRooted.congr rfl rfl rfl, h.kept⟩
  | ok reply =>
    obtain ⟨branch, hbranch⟩ := Option.isSome_iff_exists.1 hsent
    have hfold : ∀ (refs : List Referral) (s : ValueLookup) (d : Referrers),
        Hearing bound base sent s d → Hearing bound base sent (refs.foldl (ValueLookup.takeReferral rt branch) s)
          (refs.foldl (Referrers.refer rt node) d) := by
      intro refs
      induction refs with
      | nil => exact fun s d h => h
      | cons ref refs ih => exact fun s d h => ih _ _ (h.takeReferral hbranch ref)
    rw [ValueLookup.hear, Referrers.hear, hbranch]
    exact hfold _ _ _ ⟨h.toRooted.congr rfl rfl rfl, h.kept⟩

theorem Hearing.hearAll (h : Hearing bound base sent s d) (e : RoundEnv) {heard : List NodeInfo}
    (hsent : ∀ node ∈ heard, (sent.lookup node.id).isSome = true) :
    Hearing bound base sent (heardAll (ValueLookup.hear rt sent) e s heard) (d.hearAll rt e heard) := by
  induction heard generalizing s d with
  | nil => exact h
  | cons node heard ih =>
    obtain ⟨hnode, hrest⟩ := List.forall_mem_cons.1 hsent
    exact ih (h.hear hnode (e.reply node)) hrest

/-! ## The seeds -/

/-- After some seeds all known peers are roots, with numbers up to the number of these seeds. -/
structure Seeded (top : Nat) (s : ValueLookup) (d : Referrers) : Prop where
  numbered : Numbered d.lookup s.branchByID.lookup top
  known : ∀ nodeID, (s.walk.known.lookup nodeID).isSome = (d.lookup nodeID).isSome
  roots : ∀ nodeID referrer, d.lookup nodeID = some referrer → referrer = none
  asked : s.walk.batches = []

variable {top : Nat}

theorem Seeded.lookup_note (h : Seeded top s d) (nodeID : String) :
    (d.note nodeID none).lookup = Function.update d.lookup nodeID (some none) := by
  rw [Referrers.note]
  split
  · rename_i hold
    obtain ⟨referrer, hreferrer⟩ := Option.isSome_iff_exists.1 hold
    rw [← h.roots nodeID referrer hreferrer, ← hreferrer, Function.update_eq_self]
  · exact lookup_insert_update d nodeID none

theorem Seeded.takeSeed (h : Seeded top s d) (e : SeedEnv) (seed : NodeInfo) :
    Seeded (top + 1) (s.takeSeed rt e (seed, top)) (d.takeSeed rt e (seed, top)) := by
  rw [ValueLookup.takeSeed, Referrers.takeSeed]
  by_cases hkept : Walk.keepsSeed rt e seed top = true
  · rw [if_pos hkept, if_pos hkept]
    have hlookup := h.lookup_note seed.id
    have hat : ∀ nodeID, (d.note seed.id none).lookup nodeID =
        if nodeID = seed.id then some none else d.lookup nodeID :=
      fun nodeID => (congrFun hlookup nodeID).trans (Function.update_apply ..)
    refine ⟨?_, ?_, ?_, h.asked⟩
    · rw [hlookup]
      dsimp only
      rw [lookup_insert_update]
      refine h.numbered.take (h.roots seed.id) ?_ (.inl ⟨rfl, by omega⟩) (by push_cast; omega)
        (by push_cast; omega)
      intro nodeID hchild
      cases h.roots nodeID _ hchild
    · intro nodeID
      rw [Walk.seed, Dict.lookup_insert_eq, hat]
      split
      · rfl
      · exact h.known nodeID
    · intro nodeID referrer hreferrer
      rw [hat] at hreferrer
      split at hreferrer
      · cases hreferrer
        rfl
      · exact h.roots nodeID referrer hreferrer
  · rw [if_neg hkept, if_neg hkept]
    refine ⟨h.numbered.mono ?_, h.known, h.roots, h.asked⟩
    intro nodeID branch hbranch
    have := h.numbered.below nodeID branch hbranch
    push_cast
    omega

theorem Seeded.takeSeeds (h : Seeded top s d) (e : SeedEnv) (seeds : List NodeInfo) :
    Seeded (top + seeds.length) ((seeds.zipIdx top).foldl (ValueLookup.takeSeed rt e) s)
      ((seeds.zipIdx top).foldl (Referrers.takeSeed rt e) d) := by
  induction seeds generalizing top s d with
  | nil => exact h
  | cons seed seeds ih =>
    rw [List.length_cons, Nat.add_comm seeds.length, ← Nat.add_assoc]
    exact ih (h.takeSeed e seed)

theorem seeded_start : Seeded (seeds rt limits key env.seeds).length (start rt limits key env)
    (Traced.start rt limits key env).referrers := by
  have hempty : Seeded 0 { collector := startCollector rt key env } ∅ := by
    refine ⟨?_, fun nodeID => rfl, ?_, rfl⟩
    · have hnone : (∅ : Referrers).lookup = fun _ => none := by
        funext nodeID
        exact Dict.lookup_empty_eq nodeID
      have hbranch : (∅ : Dict String Int).lookup = fun _ => none := by
        funext nodeID
        exact Dict.lookup_empty_eq nodeID
      rw [hnone, hbranch]
      exact Numbered.empty 0
    · intro nodeID referrer hreferrer
      rw [Dict.lookup_empty_eq] at hreferrer
      cases hreferrer
  rw [← Nat.zero_add (seeds rt limits key env.seeds).length]
  exact hempty.takeSeeds env.seeds (seeds rt limits key env.seeds)

theorem branchByID_takeSeeds (e : SeedEnv) (seeds : List (NodeInfo × Nat)) (s : ValueLookup) :
    (seeds.foldl (ValueLookup.takeSeed rt e) s).branchByID =
      Dict.insertAll (fun seed : NodeInfo × Nat => seed.1.id) (fun seed => (seed.2 : Int) + 1) s.branchByID
        (seeds.filter fun seed => Walk.keepsSeed rt e seed.1 seed.2) := by
  induction seeds generalizing s with
  | nil => rfl
  | cons seed seeds ih =>
    rw [List.foldl_cons, ih, ValueLookup.takeSeed, List.filter_cons]
    split <;> rfl

theorem branchByID_start : (start rt limits key env).branchByID =
    Dict.insertAll (fun seed : NodeInfo × Nat => seed.1.id) (fun seed => (seed.2 : Int) + 1) ∅
      (keptSeeds rt limits key env.seeds) := branchByID_takeSeeds _ _ _

/-- The numbers of the seeds are at most as large as there are seeds, if none is skipped before another. -/
theorem below_of_unbroken (h : Unbroken rt limits key env.seeds) {nodeID : String} {branch : Int}
    (hbranch : (start rt limits key env).branchByID.lookup nodeID = some branch) :
    branch ≤ (start rt limits key env).branchByID.keys.length := by
  have hkeys : keptIDs rt limits key env.seeds ⊆ (start rt limits key env).branchByID.keys := by
    intro id hid
    rw [Dict.mem_keys_iff, branchByID_start]
    exact Dict.isSome_lookup_insertAll (.inl hid)
  have hlength := (List.subperm_of_subset h.distinct hkeys).length_le
  rw [keptIDs, List.length_map] at hlength
  rw [branchByID_start] at hbranch
  rcases Dict.item_of_lookup_insertAll hbranch with ⟨seed, hseed, -, rfl⟩ | hbefore
  · have hposition : seed.2 ∈ (keptSeeds rt limits key env.seeds).map Prod.snd := List.mem_map_of_mem hseed
    rw [h.first, List.mem_range] at hposition
    omega
  · rw [Dict.lookup_empty_eq] at hbefore
    cases hbefore

/-- What the fallback numbers later is new, or the fallback has nothing to number. -/
theorem rooted_start (h : Unbroken rt limits key env.seeds ∨ FallbackKnown rt limits key env) :
    ∃ bound base, (bound = 0 ∨ ∀ i, ∀ c ∈ Walk.fallback rt (env.round i), c.info.id ∈ base) ∧
      Rooted bound base (start rt limits key env) (Traced.start rt limits key env).referrers := by
  have hseeded : Seeded _ (start rt limits key env) _ := seeded_start
  have hasked : ∀ node ∈ (start rt limits key env).walk.batches.flatten,
      ((Traced.start rt limits key env).referrers.lookup node.id).isSome = true := by
    intro node hnode
    rw [hseeded.asked] at hnode
    cases hnode
  have hbase : ∀ nodeID ∈ keptIDs rt limits key env.seeds,
      ((Traced.start rt limits key env).referrers.lookup nodeID).isSome = true := by
    intro nodeID hid
    rw [← hseeded.numbered.there, branchByID_start]
    exact Dict.isSome_lookup_insertAll (.inl hid)
  rcases h with hunbroken | hknown
  · refine ⟨0, _, .inl rfl, hseeded.numbered.mono ?_, hseeded.known, hasked, hbase⟩
    intro nodeID branch hbranch
    have := below_of_unbroken hunbroken hbranch
    omega
  · refine ⟨(seeds rt limits key env.seeds).length, _, .inr hknown, hseeded.numbered.mono ?_,
      hseeded.known, hasked, hbase⟩
    intro nodeID branch hbranch
    have := hseeded.numbered.below nodeID branch hbranch
    omega

/-! ## The rounds -/

/-- The peers of a batch are known, so asking them keeps it. -/
theorem Rooted.asking (h : Rooted bound base s d) {batch : List NodeInfo}
    (hbatch : ∀ node ∈ batch, (d.lookup node.id).isSome = true) : Rooted bound base (s.asking batch) d := by
  refine ⟨h.numbered, h.known, ?_, h.based⟩
  intro node hnode
  rw [ValueLookup.asking, Walk.ask, List.flatten_concat, List.mem_append] at hnode
  rcases hnode with hold | hnew
  · exact h.asked node hold
  · exact hbatch node hnew

theorem diversityLoaded_hearAll (e : RoundEnv) (w : Walk) (heard : List NodeInfo) :
    (w.hearAll rt e heard).diversityLoaded = w.diversityLoaded := by
  have hrefer : ∀ (w : Walk) (ref : Referral), (w.refer rt ref).diversityLoaded = w.diversityLoaded := by
    intro w ref
    rw [Walk.refer]
    split <;> rfl
  refine foldl_same (p := Walk.diversityLoaded) ?_ heard w
  intro w node
  cases e.reply node with
  | error err => rfl
  | ok reply => exact foldl_same hrefer reply.refs _

/-- A round that loads the fallback notes its contacts. -/
theorem Rooted.after_load {e : RoundEnv}
    (h : Rooted bound base s' ((Walk.fallback rt e).foldl Referrers.takeFallback d))
    (hfirst : s.walk.diversityLoaded = false) (hloaded : s'.walk.diversityLoaded = true)
    (hqueried : s'.queried = s.queried) : Rooted bound base s' (d.round rt limits key e s s') := by
  rw [Referrers.round, hfirst, hloaded, hqueried, Nat.sub_self, List.take_zero]
  exact h

/-- A round that hears some peers notes their referrals. -/
theorem Rooted.after_hear {e : RoundEnv} {heard : List NodeInfo}
    (h : Rooted bound base s' (d.hearAll rt e heard))
    (hloaded : s'.walk.diversityLoaded = s.walk.diversityLoaded)
    (hheard : heard <+: e.arrivals (s.walk.nextBatch rt limits key))
    (hqueried : s'.queried = s.queried + heard.length) :
    Rooted bound base s' (d.round rt limits key e s s') := by
  rw [Referrers.round, hloaded, Bool.and_not_self, hqueried, Nat.add_sub_cancel_left,
    ← List.prefix_iff_eq_take.1 hheard]
  exact h

theorem Rooted.after_hear_none {e : RoundEnv} (h : Rooted bound base s' d)
    (hloaded : s'.walk.diversityLoaded = s.walk.diversityLoaded) (hqueried : s'.queried = s.queried) :
    Rooted bound base s' (d.round rt limits key e s s') := by
  have hnone : Rooted bound base s' (d.hearAll rt e []) := h
  exact hnone.after_hear hloaded List.nil_prefix hqueried

/-- One round keeps it, also a round that ends the lookup. -/
theorem Rooted.round {i : Nat} (hkept : s.Kept rt limits env i) (h : Rooted bound base s d)
    (hfallback : bound = 0 ∨ ∀ c ∈ Walk.fallback rt (env.round i), c.info.id ∈ base) :
    Leaves
      (fun r : ValueReturn => Rooted bound base r.lookup (d.round rt limits key (env.round i) s r.lookup))
      (fun s' => Rooted bound base s' (d.round rt limits key (env.round i) s s'))
      (s.round rt limits key env i) := by
  have hbatch : ∀ node ∈ s.walk.nextBatch rt limits key, (d.lookup node.id).isSome = true := by
    intro node hnode
    rw [← h.known, (mem_closestUnqueried hkept.within.keyed hnode).1]
    rfl
  have hresting : Rooted bound base (s.asking []) d := h.asking (by simp)
  have hload : Rooted bound base ((s.asking []).loadFallback rt (env.round i))
      ((Walk.fallback rt (env.round i)).foldl Referrers.takeFallback d) :=
    hresting.loadFallback hfallback
  have hloaded : ((s.asking []).loadFallback rt (env.round i)).walk.diversityLoaded = true := by
    rw [walk_loadFallback, Walk.loadFallback]
    refine foldl_same (p := Walk.diversityLoaded) ?_ _ _
    intro w c
    rfl
  have hsame : ∀ heard, (heardAll (ValueLookup.hear rt s.branchByID) (env.round i)
      (s.asking (s.walk.nextBatch rt limits key)) heard).walk.diversityLoaded =
        s.walk.diversityLoaded := by
    intro heard
    rw [walk_heardAll, diversityLoaded_hearAll]
    rfl
  have hheard : ∀ heard, heard <+: (env.round i).arrivals (s.walk.nextBatch rt limits key) →
      Rooted bound base (heardAll (ValueLookup.hear rt s.branchByID) (env.round i)
        (s.asking (s.walk.nextBatch rt limits key)) heard) (d.hearAll rt (env.round i) heard) := by
    intro heard hpre
    have hhearing : Hearing bound base s.branchByID (s.asking (s.walk.nextBatch rt limits key)) d :=
      ⟨h.asking hbatch, fun _ _ hb => hb⟩
    refine (hhearing.hearAll (env.round i) ?_).toRooted
    intro node hnode
    rw [h.numbered.there]
    exact hbatch node (((env.round i).arrivals_perm _).mem_iff.1 (hpre.subset hnode))
  refine leaves_round hkept.counted ?_
  intro result hcases
  cases hcases with
  | idle hover => exact h.after_hear_none rfl rfl
  | load hnil hmore hfirst => exact hload.after_load hfirst hloaded (queried_loadFallback _ _)
  | covered hnil hnone hfirst =>
    refine Rooted.after_load ?_ hfirst hloaded (queried_loadFallback _ _)
    exact hload.congr rfl rfl rfl
  | rest hnil hloaded =>
    refine Rooted.after_hear_none ?_ rfl rfl
    exact hresting.congr rfl rfl rfl
  | heard hne heq =>
    subst heq
    refine Rooted.after_hear ?_ (hsame _) List.prefix_rfl (queried_heardAll _ _ _ _)
    exact (hheard _ List.prefix_rfl).congr rfl rfl rfl
  | ended err hne hpre heq =>
    subst heq
    refine Rooted.after_hear ?_ (hsame _) hpre (queried_heardAll _ _ _ _)
    exact (hheard _ hpre).congr rfl rfl rfl

end ValueLookup

/-! ## Numbers and roots -/

theorem Traced.leaves_round {t : Traced} {i : Nat} {post inv : Traced → Prop}
    (h : Leaves
      (fun r : ValueReturn =>
        post ⟨r.lookup, t.referrers.round rt limits key (env.round i) t.lookup r.lookup⟩)
      (fun s => inv ⟨s, t.referrers.round rt limits key (env.round i) t.lookup s⟩)
      (t.lookup.round rt limits key env i)) :
    Leaves post inv (t.round rt limits key env i) := by
  rw [Traced.round]
  dsimp only
  split
  · rename_i hround
    rw [hround] at h
    exact h
  · rename_i hround
    rw [hround] at h
    exact h

/-- The whole run keeps it, however it ends. -/
theorem rooted_traceFindValue {configured : LookupLimits}
    (h : Unbroken rt (lookupLimits configured) key env.seeds ∨
      FallbackKnown rt (lookupLimits configured) key env) :
    ∃ bound base, (traceFindValue rt configured env key).lookup.Rooted bound base
      (traceFindValue rt configured env key).referrers := by
  obtain ⟨bound, base, hfallback, hstart⟩ := ValueLookup.rooted_start h
  refine ⟨bound, base, ?_⟩
  have hrounds : Leaves (fun t : Traced => t.lookup.Rooted bound base t.referrers)
      (fun t => t.lookup.Kept rt (lookupLimits configured) env (lookupLimits configured).maxRounds.toNat ∧
        t.lookup.Rooted bound base t.referrers)
      ((List.range (lookupLimits configured).maxRounds.toNat).foldlM
        (Traced.round rt (lookupLimits configured) key env)
        (Traced.start rt (lookupLimits configured) key env)) := by
    refine Leaves.foldlM_range
      (fun i (t : Traced) => t.lookup.Kept rt (lookupLimits configured) env i ∧
        t.lookup.Rooted bound base t.referrers) _ ?_ ⟨ValueLookup.Kept.start, hstart⟩
    rintro i t - ⟨hkept, hrooted⟩
    have hoffered := hfallback.imp id fun hall => hall i
    refine Traced.leaves_round ((hkept.round.and (hrooted.round hkept hoffered)).imp ?_ ?_)
    · exact fun r hr => hr.2
    · exact fun s hs => hs
  rw [traceFindValue]
  split
  · rename_i hend
    rw [hend] at hrounds
    exact hrounds
  · rename_i hend
    rw [hend] at hrounds
    exact hrounds.2

/-- Two peers that a value lookup asks are in the same branch just when they descend from the same root, if
no seed is skipped before one that is kept or the fallback has only kept seeds to offer. -/
theorem branches_identify_roots (rt : Runtime) (configured : LookupLimits) (env : ValueEnv) (key : String)
    (hroots : Unbroken rt (lookupLimits configured) key env.seeds ∨
      FallbackKnown rt (lookupLimits configured) key env) (p q : NodeInfo)
    (hp : p ∈ (recursiveFindValueDetailed rt configured env key).lookup.walk.batches.flatten)
    (hq : q ∈ (recursiveFindValueDetailed rt configured env key).lookup.walk.batches.flatten) :
    (recursiveFindValueDetailed rt configured env key).lookup.branchByID.lookup p.id =
      (recursiveFindValueDetailed rt configured env key).lookup.branchByID.lookup q.id ↔
    SameRoot rt configured env key p q := by
  obtain ⟨bound, base, hrooted⟩ := rooted_traceFindValue hroots
  rw [← lookup_traceFindValue] at hp hq ⊢
  exact hrooted.numbered.same_iff (hrooted.asked p hp) (hrooted.asked q hq)

/-! ## A number that is used twice -/

/-- A peer at the given distance from the local node. -/
def branchPeer (lastDigit address : String) : NodeInfo :=
  { id := "vx6_000000000000000000000000000000000000000000000000000000000000000" ++ lastDigit
    name := "BRAVO", addr := address }

def firstPeer : NodeInfo := branchPeer "1" "[2001:db8:1::5]:4242"

def secondPeer : NodeInfo := branchPeer "2" "[2001:db8:2::5]:4242"

def thirdPeer : NodeInfo := branchPeer "3" "[2001:db8:3::5]:4242"

/-- A table in which the peers are active, each in the bucket given with it. -/
def activePeers (peers : List (NodeInfo × Nat)) : Table where
  selfID := Table.sampleSelf
  selfNameHash := ""
  heap r := { node := (peers.map Prod.fst).getD r {} }
  nextRef := peers.length
  buckets i := ((List.range peers.length).zip peers).filterMap fun (r, _, bucket) =>
    if bucket = i.val then some r else none
  nameBuckets _ := []
  pending _ := []
  peerByID := Dict.insertAll (fun e => e.2.1.id) Prod.fst ∅ ((List.range peers.length).zip peers)
  offline := ∅
  pendingN := 0

/-- A lookup that ranks its seeds in a table with the peers `ranked`, looks at them in a table with the peers
`active`, and has the peers `met` in the table of its rounds. No peer answers. -/
def branchEnv (ranked active met : List (NodeInfo × Nat)) : ValueEnv :=
  { silentValueEnv (activePeers met) with
    seeds :=
      { table := activePeers ranked
        hintsNow := 0
        activeTable := fun _ => activePeers active
        now := fun _ => 0 } }

/-- The peers that a run asked, and the branches and the first referrers of two of them. -/
def Traced.account (t : Traced) (p q : NodeInfo) :
    List NodeInfo × (Option Int × Option Int) × Option (Option String) × Option (Option String) :=
  (t.lookup.walk.batches.flatten, (t.lookup.branchByID.lookup p.id, t.lookup.branchByID.lookup q.id),
    t.referrers.lookup p.id, t.referrers.lookup q.id)

theorem Traced.account_eq {t : Traced} {p q : NodeInfo} {asked : List NodeInfo} {b b' : Option Int}
    {r r' : Option (Option String)} (h : t.account p q = (asked, (b, b'), r, r')) :
    t.lookup.walk.batches.flatten = asked ∧ t.lookup.branchByID.lookup p.id = b ∧
      t.lookup.branchByID.lookup q.id = b' ∧ t.referrers.lookup p.id = r ∧ t.referrers.lookup q.id = r' := by
  simp only [Traced.account, Prod.mk.injEq] at h
  exact ⟨h.1, h.2.1.1, h.2.1.2, h.2.2⟩

/-- One seed is active, and the fallback has another peer. -/
def oneSeedEnv : ValueEnv :=
  branchEnv [(firstPeer, 0)] [(firstPeer, 0)] [(firstPeer, 0), (secondPeer, 1)]

theorem account_one_seed :
    (traceFindValue blankRuntime defaultLookupLimits oneSeedEnv Table.sampleSelf).account firstPeer secondPeer =
      ([firstPeer, secondPeer], (some 1, some 2), some none, some none) := by
  decide +kernel

/-- The seed and the peer of the fallback are in branches of their own. -/
theorem branches_of_one_seed :
    Unbroken blankRuntime defaultLookupLimits Table.sampleSelf oneSeedEnv.seeds ∧
      ¬ SameRoot blankRuntime defaultLookupLimits oneSeedEnv Table.sampleSelf firstPeer secondPeer := by
  obtain ⟨hasked, hfirst, hsecond, -⟩ := Traced.account_eq account_one_seed
  rw [lookup_traceFindValue] at hasked hfirst hsecond
  have hunbroken : Unbroken blankRuntime defaultLookupLimits Table.sampleSelf oneSeedEnv.seeds :=
    ⟨by decide +kernel, by decide +kernel⟩
  refine ⟨hunbroken, ?_⟩
  rw [← branches_identify_roots blankRuntime defaultLookupLimits oneSeedEnv Table.sampleSelf
    (.inl hunbroken) firstPeer secondPeer (by rw [hasked]; simp) (by rw [hasked]; simp), hfirst, hsecond]
  decide

/-- The first seed is no longer active when the lookup looks at it. -/
def gapEnv : ValueEnv :=
  branchEnv [(firstPeer, 0), (secondPeer, 1)] [(secondPeer, 1)] [(secondPeer, 1), (thirdPeer, 1)]

theorem account_gap :
    (traceFindValue blankRuntime defaultLookupLimits gapEnv Table.sampleSelf).account secondPeer thirdPeer =
      ([secondPeer, thirdPeer], (some 2, some 2), some none, some none) := by
  decide +kernel

/-- The first of two seeds goes offline before the lookup looks at it, and its data does not pass the check,
so it is skipped. The second seed has the number 2. It is the only contact known when the fallback is loaded,
so the contact of the fallback has the number 2 as well. -/
theorem branch_number_reused :
    ∃ (rt : Runtime) (configured : LookupLimits) (env : ValueEnv) (key : String) (p q : NodeInfo),
      p ∈ (recursiveFindValueDetailed rt configured env key).lookup.walk.batches.flatten ∧
      q ∈ (recursiveFindValueDetailed rt configured env key).lookup.walk.batches.flatten ∧
      (recursiveFindValueDetailed rt configured env key).lookup.branchByID.lookup p.id = some 2 ∧
      (recursiveFindValueDetailed rt configured env key).lookup.branchByID.lookup q.id = some 2 ∧
      ¬ SameRoot rt configured env key p q := by
  obtain ⟨hasked, hsecond, hthird, hsecondRoot, hthirdRoot⟩ := Traced.account_eq account_gap
  rw [lookup_traceFindValue] at hasked hsecond hthird
  refine ⟨blankRuntime, defaultLookupLimits, gapEnv, Table.sampleSelf, secondPeer, thirdPeer,
    by rw [hasked]; simp, by rw [hasked]; simp, hsecond, hthird, ?_⟩
  rintro ⟨root, hdescends, hdescends'⟩
  have hroot := hdescends.eq_of_root hsecondRoot
  have hroot' := hdescends'.eq_of_root hthirdRoot
  exact absurd (hroot.symm.trans hroot') (by decide)

end Vx6.Dht
