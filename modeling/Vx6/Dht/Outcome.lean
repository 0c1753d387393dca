import Vx6.Dht.Lookup

/-!
# Lookup outcomes

When may a lookup say that a name is taken once, taken twice or free? `Walk.Accounted` is the
account a walk keeps of its contacts: everything it took up is known, and without failures whoever
was asked has answered or is still to be heard. So a walk with nobody left to ask and no failures
has heard every contact (`Accounted.covers`), and the outcomes of a node lookup follow from its map
of matches.

The contacts of the diversity fallback are not compared with the name, so a name that is found once
may be carried by one of them as well. `NodeReturn.Settled` says when the outcome is sound.
-/

set_option autoImplicit false

namespace Vx6.Dht

open Vx6.Go Vx6.Lib Vx6.Record

namespace Walk

/-- Every contact was asked and answered without an error. -/
def Covers (w : Walk) : Prop :=
  ∀ c ∈ w.contacts, ∃ n ∈ w.batches.flatten, n.id = c.info.id ∧ n ∈ w.answered

/-- The contact passes `VerifyNodeInfo` and has the name of the target. -/
def Named (rt : Runtime) (target : String) (c : Contact) : Prop :=
  verified rt c.info c.now = true ∧
    nodeNameHash rt.toCrypto c.info.name = trimPrefix target "node/name/"

/-- The node ID carries the name of the target: a verified contact with this ID has the name. -/
def Carries (rt : Runtime) (target : String) (w : Walk) (id : String) : Prop :=
  ∃ c ∈ w.contacts, Named rt target c ∧ c.info.id = id

/-- A node ID that carries the name by a contact of the diversity fallback also carries it by a seed
or by a referral. -/
def FallbackSeen (rt : Runtime) (target : String) (w : Walk) : Prop :=
  ∀ c ∈ w.contacts, c.origin = .fallback → Named rt target c →
    ∃ c' ∈ w.contacts, c'.origin ≠ .fallback ∧ Named rt target c' ∧ c'.info.id = c.info.id

/-! ## The account of a walk -/

/-- Every contact is known; without failures everybody asked has answered, except for the peers
`pending` whose results are still to be heard. -/
structure Accounted (pending : List NodeInfo) (w : Walk) : Prop where
  known : ∀ c ∈ w.contacts, (w.known.lookup c.info.id).isSome = true
  replied : w.failures = 0 → ∀ n ∈ w.batches.flatten, n ∈ w.answered ∨ n ∈ pending
  running : w.cancelled = false

section Accounted

variable {rt : Runtime} {pending : List NodeInfo} {w : Walk}

theorem Accounted.start : Accounted [] {} where
  known := fun _ hc => absurd hc List.not_mem_nil
  replied := fun _ _ hn => absurd hn List.not_mem_nil
  running := rfl

/-- A walk with more contacts, each of which is known, and otherwise the same account. -/
theorem Accounted.more (h : Accounted pending w) {known : Dict String NodeInfo} {c : Contact}
    (hkept : ∀ id, (w.known.lookup id).isSome = true → (known.lookup id).isSome = true)
    (hnew : (known.lookup c.info.id).isSome = true) :
    Accounted pending { w with known := known, contacts := w.contacts ++ [c] } where
  known := by
    intro c' hc'
    rcases List.mem_append.1 hc' with hold | hlast
    · exact hkept _ (h.known c' hold)
    · rw [List.mem_singleton.1 hlast]
      exact hnew
  replied := h.replied
  running := h.running

theorem Accounted.learn (h : Accounted pending w) (c : Contact) : Accounted pending (w.learn c) := by
  refine h.more ?_ ?_
  · intro id hid
    obtain ⟨n, hn⟩ := Option.isSome_iff_exists.1 hid
    have hkept : (w.learn c).known.lookup id = some n :=
      (grows_learn (P := fun _ => True) w trivial).kept id n hn
    exact Option.isSome_iff_exists.2 ⟨n, hkept⟩
  · split
    · assumption
    · rw [Dict.lookup_insert_eq, if_pos rfl]
      rfl

theorem Accounted.takeSeed (h : Accounted pending w) (e : SeedEnv) (s : NodeInfo × Nat) :
    Accounted pending (w.takeSeed rt e s) := by
  rw [Walk.takeSeed]
  split
  · refine h.more ?_ ?_
    · intro id hid
      rw [Dict.lookup_insert_eq]
      split
      · rfl
      · exact hid
    · rw [Dict.lookup_insert_eq, if_pos rfl]
      rfl
  · exact h

theorem Accounted.refer (h : Accounted pending w) (ref : Referral) :
    Accounted pending (w.refer rt ref) := by
  rw [Walk.refer]
  split
  · exact h.learn _
  · exact h

theorem Accounted.answer {node : NodeInfo} (h : Accounted (node :: pending) w) :
    Accounted pending (w.answer node) := by
  refine ⟨h.known, ?_, h.running⟩
  intro hfailures n hn
  rw [Walk.answer, List.mem_append, List.mem_singleton]
  rcases h.replied hfailures n hn with hanswered | hpending
  · exact .inl (.inl hanswered)
  · rcases List.mem_cons.1 hpending with hnode | hrest
    · exact .inl (.inr hnode)
    · exact .inr hrest

theorem Accounted.fail {node : NodeInfo} (h : Accounted (node :: pending) w) :
    Accounted pending w.fail := by
  refine ⟨h.known, ?_, h.running⟩
  intro hfailures
  exact absurd hfailures (Nat.succ_ne_zero _)

/-- The result of a pending peer is heard. -/
theorem Accounted.hear {node : NodeInfo} (h : Accounted (node :: pending) w)
    (reply : Except String PeerReply) : Accounted pending (w.hear rt node reply) := by
  cases reply with
  | error e => exact h.fail
  | ok reply =>
    exact List.foldlRecOn reply.refs (Walk.refer rt) h.answer fun w hw ref _ => hw.refer ref

theorem Accounted.hearAll (h : Accounted pending w) (e : RoundEnv) :
    Accounted [] (w.hearAll rt e pending) := by
  induction pending generalizing w with
  | nil => exact h
  | cons node pending ih => exact ih (h.hear (e.reply node))

theorem Accounted.ask (h : Accounted [] w) {batch pending : List NodeInfo}
    (hperm : pending.Perm batch) : Accounted pending (w.ask batch) := by
  refine ⟨h.known, ?_, h.running⟩
  intro hfailures n hn
  rw [Walk.ask, List.flatten_concat, List.mem_append] at hn
  rcases hn with hold | hnew
  · rcases h.replied hfailures n hold with hanswered | hnone
    · exact .inl hanswered
    · exact absurd hnone List.not_mem_nil
  · exact .inr (hperm.mem_iff.2 hnew)

theorem Accounted.loadFallback (h : Accounted pending w) (e : RoundEnv) :
    Accounted pending (w.loadFallback rt e) := by
  have hflag : Accounted pending { w with diversityLoaded := true } :=
    ⟨h.known, h.replied, h.running⟩
  exact List.foldlRecOn (fallback rt e) Walk.learn hflag fun w hw c _ => hw.learn c

/-- Without failures and with nobody left to ask, every contact was asked and answered. -/
theorem Accounted.covers (h : Accounted [] w) (hfailures : w.failures = 0)
    (hall : ∀ id n, w.known.lookup id = some n → id ∈ w.queriedIDs) : w.Covers := by
  intro c hc
  obtain ⟨known, hknown⟩ := Option.isSome_iff_exists.1 (h.known c hc)
  obtain ⟨n, hn, hid⟩ := List.mem_map.1 (hall _ known hknown)
  rcases h.replied hfailures n hn with hanswered | hnone
  · exact ⟨n, hn, hid, hanswered⟩
  · exact absurd hnone List.not_mem_nil

end Accounted

/-- The loop over the seeds takes up those it keeps. -/
theorem contacts_takeSeeds (rt : Runtime) (e : SeedEnv) (seeds : List (NodeInfo × Nat)) (w : Walk) :
    (seeds.foldl (takeSeed rt e) w).contacts = w.contacts ++
      (seeds.filter fun s => keepsSeed rt e s.1 s.2).map fun s => ⟨s.1, e.now s.2, .seed⟩ := by
  induction seeds generalizing w with
  | nil => exact (List.append_nil _).symm
  | cons s seeds ih =>
    rw [List.foldl_cons, ih, takeSeed, List.filter_cons]
    split
    · rw [seed, List.map_cons, List.append_assoc]
      rfl
    · rfl

/-- Seeds that are not kept change nothing. -/
theorem takeSeeds_of_none {rt : Runtime} {e : SeedEnv} {seeds : List (NodeInfo × Nat)} (w : Walk)
    (h : ∀ s ∈ seeds, keepsSeed rt e s.1 s.2 = false) : seeds.foldl (takeSeed rt e) w = w := by
  refine List.foldlRecOn seeds (takeSeed rt e) (motive := fun w' => w' = w) rfl ?_
  rintro w' rfl s hs
  rw [takeSeed, h s hs]
  rfl

/-- Loading takes up the contacts of the fallback. -/
theorem contacts_loadFallback (rt : Runtime) (e : RoundEnv) (w : Walk) :
    (w.loadFallback rt e).contacts = w.contacts ++ fallback rt e := by
  have hlearn : ∀ (l : List Contact) (w : Walk), (l.foldl learn w).contacts = w.contacts ++ l := by
    intro l
    induction l with
    | nil => exact fun w => (List.append_nil _).symm
    | cons c l ih =>
      intro w
      rw [List.foldl_cons, ih, learn, List.append_assoc]
      rfl
  exact hlearn (fallback rt e) _

end Walk

/-! ## The matches of a node lookup -/

/-- The keys of `matched` are the node IDs that carry the name by a seed or by a referral. -/
def MatchedBy (rt : Runtime) (target : String) (contacts : List Contact)
    (matched : Dict String NodeInfo) : Prop :=
  ∀ id, (matched.lookup id).isSome = true ↔
    ∃ c ∈ contacts, c.origin ≠ .fallback ∧ Walk.Named rt target c ∧ c.info.id = id

section MatchedBy

variable {rt : Runtime} {target : String} {contacts : List Contact} {matched : Dict String NodeInfo}

/-- For a verified contact the comparison with the target is the one of the names: it carries no
name hash or the one of its name. -/
theorem named_iff (hname : isNameTarget target = true) (c : Contact) :
    (verified rt c.info c.now && matchesNodeLookupTarget rt c.info target) = true ↔
      Walk.Named rt target c := by
  rw [Bool.and_eq_true, Walk.Named, matchesNodeLookupTarget, if_pos hname]
  refine and_congr_right ?_
  intro hverified
  have hok := ok_of_isOk hverified
  simp only [verifyNodeInfo, bind_eq_ok, rejectIf_eq_ok, exists_const] at hok
  have hhash := hok.2.1
  simp only [Bool.and_eq_false_iff, decide_eq_false_iff_not, not_not] at hhash
  rw [Bool.and_eq_true, decide_eq_true_eq, Bool.or_eq_true, decide_eq_true_eq, decide_eq_true_eq]
  constructor
  · exact fun h => h.1
  · intro h
    refine ⟨h, hhash.imp id ?_⟩
    intro heq
    rw [heq, h]

theorem MatchedBy.concat (h : MatchedBy rt target contacts matched) {c : Contact} {test : Bool}
    (horigin : c.origin ≠ .fallback) (htest : test = true ↔ Walk.Named rt target c) :
    MatchedBy rt target (contacts ++ [c])
      (if test then matched.insert c.info.id c.info else matched) := by
  intro id
  have hold := h id
  cases test with
  | true =>
    have hnamed := htest.1 rfl
    rw [if_pos rfl, Dict.lookup_insert_eq]
    constructor
    · intro hid
      split at hid
      · rename_i heq
        exact ⟨c, List.mem_append_right _ (List.mem_singleton_self c), horigin, hnamed, heq.symm⟩
      · obtain ⟨c', hc', hrest⟩ := hold.1 hid
        exact ⟨c', List.mem_append_left _ hc', hrest⟩
    · rintro ⟨c', hc', hrest⟩
      split
      · rfl
      · rename_i hne
        rcases List.mem_append.1 hc' with hc' | hc'
        · exact hold.2 ⟨c', hc', hrest⟩
        · rw [List.mem_singleton.1 hc'] at hrest
          exact absurd hrest.2.2.symm hne
  | false =>
    rw [if_neg (by decide), hold]
    constructor
    · rintro ⟨c', hc', hrest⟩
      exact ⟨c', List.mem_append_left _ hc', hrest⟩
    · rintro ⟨c', hc', hrest⟩
      rcases List.mem_append.1 hc' with hc' | hc'
      · exact ⟨c', hc', hrest⟩
      · rw [List.mem_singleton.1 hc'] at hrest
        exact absurd (htest.2 hrest.2.1) (by decide)

theorem MatchedBy.fallback (h : MatchedBy rt target contacts matched) {more : List Contact}
    (hmore : ∀ c ∈ more, c.origin = .fallback) : MatchedBy rt target (contacts ++ more) matched := by
  intro id
  rw [h id]
  constructor
  · rintro ⟨c, hc, hrest⟩
    exact ⟨c, List.mem_append_left _ hc, hrest⟩
  · rintro ⟨c, hc, hrest⟩
    rcases List.mem_append.1 hc with hc | hc
    · exact ⟨c, hc, hrest⟩
    · exact absurd (hmore c hc) hrest.1

end MatchedBy

namespace NodeLookup

variable {rt : Runtime} {limits : LookupLimits} {target : String} {env : LookupEnv} {s : NodeLookup}
  {pending : List NodeInfo} {i : Nat}

/-- The account of a node lookup: the one of its walk, and what its matches are. -/
structure Audited (rt : Runtime) (target : String) (pending : List NodeInfo) (s : NodeLookup) :
    Prop where
  account : s.walk.Accounted pending
  matched : isNameTarget target = true → MatchedBy rt target s.walk.contacts s.matched

theorem Audited.takeSeed (h : s.Audited rt target pending) (e : SeedEnv) (seed : NodeInfo × Nat) :
    (s.takeSeed rt target e seed).Audited rt target pending := by
  refine ⟨?_, ?_⟩
  · rw [walk_takeSeed]
    exact h.account.takeSeed e seed
  · intro hname
    rw [NodeLookup.takeSeed]
    split
    · exact (h.matched hname).concat (by simp) (named_iff hname ⟨seed.1, e.now seed.2, .seed⟩)
    · exact h.matched hname

theorem Audited.start (bootstrap : Bool) :
    (start rt limits target env bootstrap).Audited rt target [] := by
  have hempty : ({} : NodeLookup).Audited rt target [] := by
    refine ⟨Walk.Accounted.start, ?_⟩
    intro _ id
    simp
  exact List.foldlRecOn _ (NodeLookup.takeSeed rt target env.seeds) hempty
    fun s hs seed _ => hs.takeSeed env.seeds seed

theorem Audited.takeReferral (h : s.Audited rt target pending) (ref : Referral) :
    (s.takeReferral rt target ref).Audited rt target pending := by
  refine ⟨?_, ?_⟩
  · rw [walk_takeReferral]
    exact h.account.refer ref
  · intro hname
    rw [NodeLookup.takeReferral]
    split
    · rename_i haccepted
      simp only [Walk.acceptsReferral, Bool.and_eq_true] at haccepted
      refine (h.matched hname).concat (by simp) ?_
      rw [← named_iff hname, haccepted.1.1, Bool.true_and]
    · exact h.matched hname

theorem Audited.hear {node : NodeInfo} (h : s.Audited rt target (node :: pending))
    (reply : Except String PeerReply) :
    (s.hear rt target node reply).Audited rt target pending := by
  cases reply with
  | error e => exact ⟨h.account.fail, h.matched⟩
  | ok reply =>
    have hanswer : ({ s with walk := s.walk.answer node } : NodeLookup).Audited rt target pending :=
      ⟨h.account.answer, h.matched⟩
    exact List.foldlRecOn reply.refs (NodeLookup.takeReferral rt target) hanswer
      fun s hs ref _ => hs.takeReferral ref

theorem Audited.heardAll (h : s.Audited rt target pending) (e : RoundEnv) :
    (heardAll (NodeLookup.hear rt target) e s pending).Audited rt target [] := by
  induction pending generalizing s with
  | nil => exact h
  | cons node pending ih => exact ih (h.hear (e.reply node))

theorem Audited.asking (h : s.Audited rt target []) {batch : List NodeInfo}
    (hperm : pending.Perm batch) : (s.asking i batch).Audited rt target pending :=
  ⟨h.account.ask hperm, h.matched⟩

theorem Audited.loading (h : s.Audited rt target []) (e : RoundEnv) :
    (s.loading rt e i).Audited rt target [] := by
  refine ⟨(h.account.ask (List.Perm.refl [])).loadFallback e, ?_⟩
  intro hname
  rw [NodeLookup.loading, Walk.contacts_loadFallback]
  refine (h.matched hname).fallback ?_
  intro c hc
  obtain ⟨peer, -, rfl⟩ := List.mem_map.1 hc
  rfl

/-- Nobody known is left to ask. -/
theorem all_queried (h : s.unqueried rt target = false) :
    ∀ id n, s.walk.known.lookup id = some n → id ∈ s.walk.queriedIDs := by
  simp only [unqueried, ne_eq, decide_not, Bool.not_eq_false', decide_eq_true_eq] at h
  exact (closestUnqueried_eq_nil_iff one_pos).1 h

end NodeLookup

/-! ## Sound outcomes of a node lookup -/

/-- The outcome of a node lookup is sound: a conclusive one was given after every contact had
answered, and names as many node IDs as carry the name; every other lookup is reported as
incomplete. -/
structure NodeReturn.Sound (rt : Runtime) (target : String) (r : NodeReturn) : Prop where
  conclusive : isNameTarget target = true ∧ r.err = none ∧
      (r.result.outcome = .found ∨ r.result.outcome = .conflict) ∨ r.result.outcome = .notFound →
    r.lookup.walk.Covers
  unique : isNameTarget target = true → r.result.outcome = .found →
    ∃! id, r.lookup.walk.Carries rt target id
  several : isNameTarget target = true → r.result.outcome = .conflict →
    ∃ a b, a ≠ b ∧ r.lookup.walk.Carries rt target a ∧ r.lookup.walk.Carries rt target b
  otherwise : r.err = none ∧ r.result.outcome ≠ .incomplete ∨
    r.result.outcome = .incomplete ∧ ∃ cause, r.err = some (.incomplete cause)
  cancelled : r.lookup.walk.cancelled = true → r.result.outcome = .incomplete

/-- A node lookup is sound where the contacts of the fallback that carry the name were seen
otherwise, and where it finds a name it is sound only then. -/
structure NodeReturn.Settled (rt : Runtime) (target : String) (r : NodeReturn) : Prop where
  sound : r.lookup.walk.FallbackSeen rt target → r.Sound rt target
  seen : r.Sound rt target → isNameTarget target = true → r.result.outcome = .found →
    r.lookup.walk.FallbackSeen rt target

/-- With one match, one node ID carries the name exactly when the contacts of the fallback that
carry it were seen otherwise. -/
theorem unique_iff_fallbackSeen {rt : Runtime} {target : String} {w : Walk}
    {matched : Dict String NodeInfo} {id : String}
    (hmatched : MatchedBy rt target w.contacts matched) (hone : matched.keys = [id]) :
    (∃! id, w.Carries rt target id) ↔ w.FallbackSeen rt target := by
  have hkey : ∀ id', (∃ c ∈ w.contacts, c.origin ≠ .fallback ∧ Walk.Named rt target c ∧
      c.info.id = id') ↔ id' = id := by
    intro id'
    rw [← hmatched id', ← Dict.mem_keys_iff, hone, List.mem_singleton]
  obtain ⟨c₀, hc₀, -, hnamed₀, hid₀⟩ := (hkey id).2 rfl
  have hcarries : w.Carries rt target id := ⟨c₀, hc₀, hnamed₀, hid₀⟩
  constructor
  · intro hunique c hc _ hnamed
    have hsame : c.info.id = id := hunique.unique ⟨c, hc, hnamed, rfl⟩ hcarries
    rw [hsame]
    exact (hkey id).2 rfl
  · intro hseen
    refine ⟨id, hcarries, ?_⟩
    rintro id' ⟨c, hc, hnamed, rfl⟩
    by_cases horigin : c.origin = .fallback
    · exact (hkey _).1 (hseen c hc horigin hnamed)
    · exact (hkey _).1 ⟨c, hc, horigin, hnamed, rfl⟩

namespace NodeLookup

variable {rt : Runtime} {limits : LookupLimits} {target : String} {env : LookupEnv} {s : NodeLookup}
  {i : Nat}

/-- A lookup reported as incomplete is sound. -/
theorem settled_incomplete (s : NodeLookup) (cause : IncompleteCause) :
    (s.give rt target .incomplete (some (.incomplete cause))).Settled rt target where
  sound := fun _ =>
    { conclusive := by simp [give]
      unique := by simp [give]
      several := by simp [give]
      otherwise := .inr ⟨rfl, cause, rfl⟩
      cancelled := fun _ => rfl }
  seen := by simp [give]

/-- A target that is no name is found with the first match. -/
theorem settled_found (hname : isNameTarget target = false) (hrunning : s.walk.cancelled = false) :
    (s.give rt target .found none).Settled rt target where
  sound := fun _ =>
    { conclusive := by simp [give, hname]
      unique := by simp [hname]
      several := by simp [hname]
      otherwise := .inl ⟨rfl, by simp [give]⟩
      cancelled := by simp [give, hrunning] }
  seen := by simp [hname]

/-- The conclusive outcomes, after every contact has answered. -/
theorem settled_conclusive {outcome : LookupOutcome} (hcovers : s.walk.Covers)
    (hrunning : s.walk.cancelled = false) (houtcome : outcome ≠ .incomplete)
    (hunique : isNameTarget target = true → outcome = .found →
      ((∃! id, s.walk.Carries rt target id) ↔ s.walk.FallbackSeen rt target))
    (hseveral : isNameTarget target = true → outcome = .conflict →
      ∃ a b, a ≠ b ∧ s.walk.Carries rt target a ∧ s.walk.Carries rt target b) :
    (s.give rt target outcome none).Settled rt target where
  sound := fun hseen =>
    { conclusive := fun _ => hcovers
      unique := fun hname hfound => (hunique hname hfound).2 hseen
      several := hseveral
      otherwise := .inl ⟨rfl, houtcome⟩
      cancelled := fun h => absurd h (by simp [give, hrunning]) }
  seen := fun hsound hname hfound => (hunique hname hfound).1 (hsound.unique hname hfound)

theorem Audited.carries (h : s.Audited rt target []) (hname : isNameTarget target = true)
    {id : String} (hid : id ∈ s.matched.keys) : s.walk.Carries rt target id := by
  rw [Dict.mem_keys_iff] at hid
  obtain ⟨c, hc, -, hnamed, hcid⟩ := (h.matched hname id).1 hid
  exact ⟨c, hc, hnamed, hcid⟩

/-- The return points for a walk with nobody left to ask. -/
theorem Audited.settled (h : s.Audited rt target [])
    (hall : ∀ id n, s.walk.known.lookup id = some n → id ∈ s.walk.queriedIDs) :
    (s.settle rt target).Settled rt target := by
  have hrunning := h.account.running
  have hcovers : ¬ 0 < s.walk.failures → s.walk.Covers :=
    fun hfailures => h.account.covers (by omega) hall
  rw [settle]
  split
  · rename_i hmatches
    split
    · exact settled_incomplete s _
    · rename_i hfailures
      -- The matches decide between a name that is taken once and one that is taken twice.
      rcases hkeys : s.matched.keys with _ | ⟨a, _ | ⟨b, rest⟩⟩
      · exact absurd hkeys hmatches
      · refine settled_conclusive (hcovers hfailures) hrunning (by simp) ?_ (by simp)
        intro hname _
        exact unique_iff_fallbackSeen (h.matched hname) hkeys
      · refine settled_conclusive (hcovers hfailures) hrunning (by simp) (by simp) ?_
        intro hname _
        have hnodup := s.matched.keys_nodup
        rw [hkeys] at hnodup
        have hne : a ≠ b := by
          rintro rfl
          exact (List.nodup_cons.1 hnodup).1 List.mem_cons_self
        refine ⟨a, b, hne, h.carries hname ?_, h.carries hname ?_⟩
        · rw [hkeys]
          exact List.mem_cons_self
        · rw [hkeys]
          exact List.mem_cons_of_mem _ List.mem_cons_self
  · split
    · exact settled_incomplete s _
    · rename_i hfailures
      exact settled_conclusive (hcovers hfailures) hrunning (by simp) (by simp) (by simp)

/-- The return points after the loop. -/
theorem Audited.finish_settled (h : s.Audited rt target []) :
    (s.finish rt target).Settled rt target := by
  rw [finish]
  split
  · exact settled_incomplete s _
  · rename_i hnone
    exact h.settled (all_queried (Bool.eq_false_of_not_eq_true hnone))

/-- One round keeps the account; a round that ends the lookup gives a settled outcome. -/
theorem Audited.round (h : s.Audited rt target []) (hkept : s.Kept rt limits env i)
    (hconcurrent : 0 < limits.maxConcurrent) :
    Leaves (NodeReturn.Settled rt target) (Audited rt target [])
      (s.round rt limits target env i) := by
  have hheard : (Dht.heardAll (NodeLookup.hear rt target) (env.round i)
      (s.asking i (s.walk.nextBatch rt limits target))
      ((env.round i).arrivals (s.walk.nextBatch rt limits target))).Audited rt target [] :=
    (h.asking ((env.round i).arrivals_perm _)).heardAll (env.round i)
  refine leaves_round hkept.counted ?_
  intro result hcases
  cases hcases with
  | spent hspent => exact h
  | load hbatch hmore => exact h.loading (env.round i)
  | covered hbatch hnone => exact (h.loading (env.round i)).settled (all_queried hnone)
  | rest hleft hbatch =>
    refine (h.asking (List.Perm.refl [])).settled ?_
    -- The budget is not spent, so an empty batch means that nobody is left to ask.
    have hlimit : 0 < min limits.maxConcurrent
        (limits.maxPeerQueries - s.walk.batches.flatten.length) := by
      rw [← hkept.counted]
      omega
    have hall := (closestUnqueried_eq_nil_iff hlimit).1 hbatch
    intro id n hn
    have hqueried := hall id n hn
    simpa [NodeLookup.asking, Walk.ask, Walk.queriedIDs] using hqueried
  | heard hne heq =>
    rw [heq]
    exact hheard
  | found hname heq =>
    rw [← heq] at hheard
    exact settled_found hname hheard.account.running
  | ended err hne hpre heq => exact settled_incomplete _ _

/-- The rounds of a whole run keep the account. -/
theorem Audited.rounds (rt : Runtime) (target : String) (env : LookupEnv) (bootstrap : Bool)
    (hconcurrent : 0 < limits.maxConcurrent) (m : Nat) :
    Leaves (NodeReturn.Settled rt target)
      (fun s => s.Audited rt target [] ∧ s.Kept rt limits env m)
      ((List.range m).foldlM (NodeLookup.round rt limits target env)
        (NodeLookup.start rt limits target env bootstrap)) := by
  refine Leaves.foldlM_range
    (fun i (s : NodeLookup) => s.Audited rt target [] ∧ s.Kept rt limits env i) m ?_
    ⟨Audited.start bootstrap, Kept.start bootstrap⟩
  rintro i s - ⟨haudited, hkept⟩
  exact ((haudited.round hkept hconcurrent).and hkept.round).imp (fun r hr => hr.1) fun s hs => hs

/-- The outcomes of a whole run. -/
theorem settled (rt : Runtime) {configured : LookupLimits}
    (hlimits : lookupLimits configured = limits) (hconcurrent : 0 < limits.maxConcurrent)
    (env : LookupEnv) (target : String) (bootstrap : Bool) :
    (recursiveFindNodeDetailed rt configured env target bootstrap).Settled rt target := by
  refine returns hlimits (NodeReturn.Settled rt target) ?_ ?_
  · intro hname
    exact settled_found hname (Audited.start bootstrap).account.running
  · exact (Audited.rounds rt target env bootstrap hconcurrent _).imp (fun r hr => hr)
      fun s hs => hs.1.finish_settled

end NodeLookup

end Vx6.Dht
