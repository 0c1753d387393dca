import Vx6.Dht.Outcome

/-!
# Outcomes of value lookups

A value lookup may report that there is no value when every contact has answered. It does so unless
the only round its limits allow is lost: with no seed to ask, the round loads the diversity fallback,
and the lookup ends before anybody is asked (`ValueLookup.RoundLost`). `Progress` follows a lookup
through its rounds and shows that this is the only way (`ValueLookup.sound_iff`).

`lookup_outcomes` puts the two lookups together.
-/

set_option autoImplicit false

namespace Vx6.Dht

open Vx6.Go Vx6.Lib Vx6.Record

/-! ## What `Resolve` returns -/

/-- The results of `Resolve`. -/
inductive Resolved (c : LookupCollector) : LookupResult × Option LookupError → Prop
  | found {result : LookupResult} (houtcome : result.outcome = some .found) :
      Resolved c (result, none)
  | families {result : LookupResult} {families : String}
      (houtcome : result.outcome = some .conflict) :
      Resolved c (result, some (.conflictingFamilies families))
  | unverified {result : LookupResult} {key : String} (houtcome : result.outcome = some .conflict) :
      Resolved c (result, some (.conflictingUnverified key))
  | unconfirmed {result : LookupResult} {exact branches asns providers networks : Nat}
      {weight : Int} :
      Resolved c
        (result, some (.insufficientConfirmation exact branches asns providers networks weight))
  | notFound {result : LookupResult} (houtcome : result.outcome = some .notFound)
      (hverified : c.verified.entries = []) (hraw : c.raw.entries = []) :
      Resolved c (result, some .notFound)

theorem pickStrongest_isSome (acc : Option (CandidateObservation × Nat))
    (candidate : CandidateObservation) :
    (LookupCollector.pickStrongest acc candidate).isSome = true := by
  cases acc with
  | none => rfl
  | some best =>
    obtain ⟨best, conflicts⟩ := best
    rw [LookupCollector.pickStrongest]
    split <;> rfl

/-- The loop over the unverified candidates finds one, unless there is none. -/
theorem foldl_pickStrongest_eq_none {order : List CandidateObservation}
    (h : order.foldl LookupCollector.pickStrongest none = none) : order = [] := by
  rcases List.eq_nil_or_concat order with hnil | ⟨init, last, rfl⟩
  · exact hnil
  · rw [List.concat_eq_append, List.foldl_append] at h
    have hsome := pickStrongest_isSome (init.foldl LookupCollector.pickStrongest none) last
    rw [List.foldl_cons, List.foldl_nil] at h
    rw [h] at hsome
    cases hsome

theorem resolved_resolve (c : LookupCollector) {order : List CandidateObservation} (queried : Nat)
    (horder : order.Perm (c.raw.entries.map Sigma.snd)) : Resolved c (c.resolve order queried) := by
  rw [LookupCollector.resolve]
  split
  · rename_i hverified
    rw [LookupCollector.resolveRaw]
    split
    · rename_i hnone
      rw [foldl_pickStrongest_eq_none hnone] at horder
      exact .notFound rfl hverified (List.map_eq_nil_iff.1 horder.nil_eq.symm)
    · split
      · exact .unverified rfl
      · exact .found rfl
  · rw [LookupCollector.resolveVerified]
    split
    · exact .unconfirmed
    · exact .found rfl
  · exact .families rfl

/-- Without candidates nothing is found. -/
theorem resolve_of_empty {c : LookupCollector} {order : List CandidateObservation} {queried : Nat}
    (horder : order.Perm (c.raw.entries.map Sigma.snd)) (hverified : c.verified.entries = [])
    (hraw : c.raw.entries = []) :
    c.resolve order queried =
      ({ queriedNodes := queried, rejectedValues := c.rejected, outcome := some .notFound },
        some .notFound) := by
  rw [hraw] at horder
  rw [LookupCollector.resolve, hverified, LookupCollector.resolveRaw, horder.eq_nil]
  rfl

/-! ## Sound outcomes of a value lookup -/

/-- The outcome of a value lookup is sound: a value is reported as not found after every contact has
answered, and every lookup that neither finds a value nor a conflict is reported as incomplete. -/
structure ValueReturn.Sound (r : ValueReturn) : Prop where
  conclusive : r.result.outcome = some .notFound → r.lookup.walk.Covers
  otherwise : r.result.outcome = some .found ∧ r.err = none ∨
    r.result.outcome = some .conflict ∧ (∃ err, r.err = some (.unresolved err) ∧ err ≠ .notFound) ∨
    r.result.outcome = some .notFound ∧ r.err = some (.unresolved .notFound) ∨
    r.result.outcome = some .incomplete ∧ ∃ cause, r.err = some (.incomplete cause)
  cancelled : r.lookup.walk.cancelled = true → r.result.outcome = some .incomplete

namespace ValueLookup

variable {rt : Runtime} {limits : LookupLimits} {key : String} {env : ValueEnv} {s : ValueLookup}
  {i : Nat}

/-- The only round that the limits allow goes into loading the diversity fallback: no seed is kept,
the fallback has contacts, and no value is stored here. -/
structure RoundLost (rt : Runtime) (limits : LookupLimits) (key : String) (env : ValueEnv) :
    Prop where
  rounds : limits.maxRounds = 1
  seeds : ∀ seed ∈ (seeds rt limits key env.seeds).zipIdx,
    Walk.keepsSeed rt env.seeds seed.1 seed.2 = false
  fallback : (env.round 0).table.diversityContacts rt (env.round 0).order ≠ []
  verified : (startCollector rt key env).verified.entries = []
  raw : (startCollector rt key env).raw.entries = []

/-- Nobody was asked although there are contacts, and no value was observed. -/
structure Lost (s : ValueLookup) : Prop where
  queried : s.queried = 0
  contacts : s.walk.contacts ≠ []
  verified : s.collector.verified.entries = []
  raw : s.collector.raw.entries = []

theorem sound_incomplete (s : ValueLookup) (cause : IncompleteCause) :
    (s.giveIncomplete env cause).Sound where
  conclusive := by simp [giveIncomplete]
  otherwise := .inr (.inr (.inr ⟨rfl, cause, rfl⟩))
  cancelled := fun _ => rfl

/-- Nobody known is left to ask. -/
theorem all_queried (h : s.unqueried rt key = false) :
    ∀ id n, s.walk.known.lookup id = some n → id ∈ s.walk.queriedIDs := by
  simp only [unqueried, ne_eq, decide_not, Bool.not_eq_false', decide_eq_true_eq] at h
  exact (closestUnqueried_eq_nil_iff one_pos).1 h

/-- The return points after the loop are sound, unless the lookup is lost. -/
theorem finish_sound (h : s.walk.Accounted []) (hlost : ¬ s.Lost) :
    (s.finish rt key env).Sound := by
  have hrunning := h.running
  have hresolved : Resolved s.collector (s.resolve env) :=
    resolved_resolve s.collector s.queried (env.visit_perm _)
  rw [finish]
  generalize s.resolve env = resolution at hresolved
  cases hresolved with
  | found houtcome =>
    exact ⟨by simp [houtcome], .inl ⟨houtcome, rfl⟩, by simp [hrunning]⟩
  | families houtcome =>
    dsimp only
    split
    · exact sound_incomplete s _
    · exact ⟨by simp [houtcome], .inr (.inl ⟨houtcome, _, rfl, by simp⟩), by simp [hrunning]⟩
  | unverified houtcome =>
    dsimp only
    split
    · exact sound_incomplete s _
    · exact ⟨by simp [houtcome], .inr (.inl ⟨houtcome, _, rfl, by simp⟩), by simp [hrunning]⟩
  | unconfirmed =>
    dsimp only
    split
    · exact sound_incomplete s _
    · exact sound_incomplete s _
  | notFound houtcome hverified hraw =>
    dsimp only
    split
    · exact sound_incomplete s _
    · rename_i hover
      split
      · exact sound_incomplete s _
      · rename_i hfailures
        refine ⟨?_, .inr (.inr (.inl ⟨houtcome, rfl⟩)), by simp [hrunning]⟩
        intro _
        by_cases hqueried : s.queried = 0
        · -- Nobody was asked; then there were no contacts, or the lookup is lost.
          intro c hc
          exact absurd ⟨hqueried, List.ne_nil_of_mem hc, hverified, hraw⟩ hlost
        · simp only [Bool.and_eq_true, decide_eq_true_eq, not_and, Bool.not_eq_true] at hover
          exact h.covers (by omega) (all_queried (hover (by omega)))

/-- One round keeps the account of the walk; a round that ends the lookup gives a sound outcome. -/
theorem accounted_round (h : s.walk.Accounted []) (hkept : s.Kept rt limits env i) :
    Leaves ValueReturn.Sound (fun s => s.walk.Accounted []) (s.round rt limits key env i) := by
  have hload : ((s.asking []).loadFallback rt (env.round i)).walk.Accounted [] := by
    rw [walk_loadFallback]
    exact (h.ask (List.Perm.refl [])).loadFallback (env.round i)
  refine leaves_round hkept.counted ?_
  intro result hcases
  cases hcases with
  | idle hover => exact h
  | load hbatch hmore => exact hload
  | covered hbatch hnone => exact hload
  | rest hbatch hloaded => exact h.ask (List.Perm.refl [])
  | heard hne heq =>
    rw [Leaves, heq, walk_heardAll]
    exact (h.ask ((env.round i).arrivals_perm _)).hearAll (env.round i)
  | ended err hne hpre heq => exact sound_incomplete _ _

/-! ## The round that is lost -/

/-- What loading the fallback leaves alone. -/
theorem loadFallback_frame (rt : Runtime) (e : RoundEnv) (s : ValueLookup) :
    (s.loadFallback rt e).collector = s.collector ∧ (s.loadFallback rt e).stopped = s.stopped ∧
      (s.loadFallback rt e).walk.failures = s.walk.failures := by
  have hsame : ∀ (s : ValueLookup) (c : Contact),
      ((s.takeFallback c).collector, (s.takeFallback c).stopped, (s.takeFallback c).walk.failures) =
      (s.collector, s.stopped, s.walk.failures) := fun _ _ => rfl
  have hfold := foldl_same
    (p := fun s : ValueLookup => (s.collector, s.stopped, s.walk.failures))
    hsame (Walk.fallback rt e) { s with walk := { s.walk with diversityLoaded := true } }
  simp only [Prod.mk.injEq] at hfold
  exact hfold

/-- A lookup that has not begun its first round. -/
structure Fresh (rt : Runtime) (key : String) (env : ValueEnv) (s : ValueLookup) : Prop where
  collector : s.collector = startCollector rt key env
  stopped : s.stopped = false
  unloaded : s.walk.diversityLoaded = false
  failures : s.walk.failures = 0
  queried : s.queried = 0
  batches : s.walk.batches = []

theorem accounted_start : (start rt limits key env).walk.Accounted [] := by
  rw [walk_start]
  exact List.foldlRecOn _ (Walk.takeSeed rt env.seeds) Walk.Accounted.start
    fun w hw seed _ => hw.takeSeed env.seeds seed

/-- The loop over the seeds touches contacts and branches only. -/
theorem fresh_start (rt : Runtime) (limits : LookupLimits) (key : String) (env : ValueEnv) :
    Fresh rt key env (start rt limits key env) := by
  have hempty : Fresh rt key env { collector := startCollector rt key env } :=
    ⟨rfl, rfl, rfl, rfl, rfl, rfl⟩
  refine List.foldlRecOn _ (takeSeed rt env.seeds) hempty ?_
  intro s hs seed _
  rw [takeSeed]
  split
  · exact ⟨hs.collector, hs.stopped, hs.unloaded, hs.failures, hs.queried, hs.batches⟩
  · exact hs

/-- While nobody has been asked, there is a batch exactly when somebody is known. -/
theorem nextBatch_ne_nil (hkept : s.Kept rt limits env i) (hqueried : s.queried = 0)
    (hconcurrent : 0 < limits.maxConcurrent) (hqueries : 0 < limits.maxPeerQueries) :
    s.walk.nextBatch rt limits key ≠ [] ↔ s.unqueried rt key = true := by
  have hlimit : 0 < min limits.maxConcurrent
      (limits.maxPeerQueries - s.walk.batches.flatten.length) := by
    rw [← hkept.counted]
    omega
  rw [unqueried, decide_eq_true_eq, ne_eq, ne_eq, not_iff_not, Walk.nextBatch,
    closestUnqueried_eq_nil_iff hlimit, closestUnqueried_eq_nil_iff one_pos]

theorem flatten_eq_nil (hkept : s.Kept rt limits env i) (hqueried : s.queried = 0) :
    s.walk.batches.flatten = [] := by
  rw [← List.length_eq_zero_iff, ← hkept.counted]
  exact hqueried

/-- A walk that has asked nobody and has nobody to ask has no contacts. -/
theorem contacts_eq_nil (h : s.walk.Accounted []) (hkept : s.Kept rt limits env i)
    (hqueried : s.queried = 0) (hnone : s.unqueried rt key = false) : s.walk.contacts = [] := by
  rw [List.eq_nil_iff_forall_not_mem]
  intro c hc
  obtain ⟨n, hn⟩ := Option.isSome_iff_exists.1 (h.known c hc)
  have hid := all_queried hnone _ n hn
  rw [Walk.queriedIDs, flatten_eq_nil hkept hqueried] at hid
  exact List.not_mem_nil hid

/-- The state after a first round that loads the fallback: it has the contacts of the fallback only,
and goes on when there are any. -/
structure FirstLoaded (rt : Runtime) (key : String) (env : ValueEnv) (s : ValueLookup) : Prop where
  contacts : s.walk.contacts = Walk.fallback rt (env.round 0)
  batches : s.walk.batches = [[]]
  queried : s.queried = 0
  collector : s.collector = startCollector rt key env
  failures : s.walk.failures = 0
  next : s.stopped = false ∧ s.unqueried rt key = true ∨ s.stopped = true ∧ s.walk.contacts = []

/-- The first round of a lookup that keeps no seed loads the fallback. -/
theorem firstLoaded_round (hfresh : s.Fresh rt key env) (hkept : s.Kept rt limits env 0)
    (haccount : s.walk.Accounted []) (hnone : s.unqueried rt key = false)
    (hconcurrent : 0 < limits.maxConcurrent) (hqueries : 0 < limits.maxPeerQueries) :
    Leaves (fun _ : ValueReturn => False) (FirstLoaded rt key env)
      (s.round rt limits key env 0) := by
  obtain ⟨hcollector, hstopped, hfailures⟩ := loadFallback_frame rt (env.round 0) (s.asking [])
  have hbatch : ¬ s.walk.nextBatch rt limits key ≠ [] := by
    rw [nextBatch_ne_nil hkept hfresh.queried hconcurrent hqueries, hnone]
    decide
  have hcontacts : ((s.asking []).loadFallback rt (env.round 0)).walk.contacts =
      Walk.fallback rt (env.round 0) := by
    rw [walk_loadFallback, Walk.contacts_loadFallback, asking, Walk.ask]
    dsimp only
    rw [contacts_eq_nil haccount hkept hfresh.queried hnone, List.nil_append]
  have hbatches : ((s.asking []).loadFallback rt (env.round 0)).walk.batches = [[]] := by
    rw [walk_loadFallback, (Walk.grows_loadFallback (env.round 0) _).batches, asking, Walk.ask]
    dsimp only
    rw [hfresh.batches, List.nil_append]
  have hqueried : ((s.asking []).loadFallback rt (env.round 0)).queried = 0 :=
    (queried_loadFallback _ _).trans hfresh.queried
  have hkept' : Leaves _ _ (s.round rt limits key env 0) := hkept.round
  have haccount' : Leaves _ _ (s.round rt limits key env 0) := accounted_round haccount hkept
  have hcases : Round rt limits key env s 0 (s.round rt limits key env 0) :=
    round_cases hkept.counted
  generalize s.round rt limits key env 0 = result at hcases hkept' haccount'
  cases hcases with
  | idle hover =>
    rcases hover with hover | hover
    · rw [hfresh.stopped] at hover
      cases hover
    · rw [hfresh.queried] at hover
      omega
  | load hnil hmore =>
    exact ⟨hcontacts, hbatches, hqueried, hcollector.trans hfresh.collector,
      hfailures.trans hfresh.failures, .inl ⟨hstopped.trans hfresh.stopped, hmore⟩⟩
  | covered hnil hnone' =>
    exact ⟨hcontacts, hbatches, hqueried, hcollector.trans hfresh.collector,
      hfailures.trans hfresh.failures,
      .inr ⟨rfl, contacts_eq_nil haccount' hkept' hqueried hnone'⟩⟩
  | rest hnil hloaded =>
    rw [hfresh.unloaded] at hloaded
    cases hloaded
  | heard hne heq => exact absurd hne hbatch
  | ended err hne hpre heq => exact absurd hne hbatch

/-- The count of the results never falls. -/
theorem queried_le_round (hkept : s.Kept rt limits env i) :
    Leaves (fun _ : ValueReturn => True) (fun s' : ValueLookup => s.queried ≤ s'.queried)
      (s.round rt limits key env i) := by
  refine leaves_round hkept.counted ?_
  intro result hcases
  cases hcases with
  | idle hover => exact Nat.le_refl _
  | load hbatch hmore => exact (queried_loadFallback (env.round i) (s.asking [])).ge
  | covered hbatch hnone => exact (queried_loadFallback (env.round i) (s.asking [])).ge
  | rest hbatch hloaded => exact Nat.le_refl _
  | heard hne heq =>
    rw [Leaves, heq, queried_heardAll]
    exact Nat.le_add_right _ _
  | ended err hne hpre heq => trivial

/-- A round that finds somebody to ask hears a result, or ends the lookup. -/
theorem queried_pos_round (hkept : s.Kept rt limits env i) (hqueried : s.queried = 0)
    (hstopped : s.stopped = false) (hmore : s.unqueried rt key = true)
    (hconcurrent : 0 < limits.maxConcurrent) (hqueries : 0 < limits.maxPeerQueries) :
    Leaves (fun _ : ValueReturn => True) (fun s' : ValueLookup => 0 < s'.queried)
      (s.round rt limits key env i) := by
  have hbatch : s.walk.nextBatch rt limits key ≠ [] :=
    (nextBatch_ne_nil hkept hqueried hconcurrent hqueries).2 hmore
  refine leaves_round hkept.counted ?_
  intro result hcases
  cases hcases with
  | idle hover =>
    rcases hover with hover | hover
    · rw [hstopped] at hover
      cases hover
    · omega
  | load hnil hmore => exact absurd hnil hbatch
  | covered hnil hnone => exact absurd hnil hbatch
  | rest hnil hloaded => exact absurd hnil hbatch
  | heard hne heq =>
    rw [Leaves, heq, queried_heardAll, ((env.round i).arrivals_perm _).length_eq]
    exact Nat.add_pos_right _ (List.length_pos_iff.2 hbatch)
  | ended err hne hpre heq => trivial

theorem round_of_stopped (h : s.stopped = true) : s.round rt limits key env i = .ok s := by
  rw [round, h]
  rfl

/-- How far a lookup has come before the round `i`: it has asked somebody; it has not begun; it has
loaded the fallback in the first round, with no seed kept; or it has stopped without contacts. -/
inductive Progress (rt : Runtime) (limits : LookupLimits) (key : String) (env : ValueEnv) :
    Nat → ValueLookup → Prop
  | asked {i : Nat} {s : ValueLookup} (hqueried : 0 < s.queried) : Progress rt limits key env i s
  | fresh : Progress rt limits key env 0 (start rt limits key env)
  | loaded {s : ValueLookup} (hnone : (start rt limits key env).unqueried rt key = false)
      (hloaded : FirstLoaded rt key env s) : Progress rt limits key env 1 s
  | empty {i : Nat} {s : ValueLookup} (hcontacts : s.walk.contacts = [])
      (hstopped : s.stopped = true) : Progress rt limits key env i s

/-- Every round makes progress. -/
theorem Progress.round (h : Progress rt limits key env i s) (hkept : s.Kept rt limits env i)
    (hconcurrent : 0 < limits.maxConcurrent) (hqueries : 0 < limits.maxPeerQueries) :
    Leaves (fun _ : ValueReturn => True) (Progress rt limits key env (i + 1))
      (s.round rt limits key env i) := by
  have hempty : s.walk.contacts = [] → s.stopped = true →
      Leaves (fun _ : ValueReturn => True) (Progress rt limits key env (i + 1))
        (s.round rt limits key env i) := by
    intro hcontacts hstopped
    rw [round_of_stopped hstopped]
    exact .empty hcontacts hstopped
  have hask : s.queried = 0 → s.stopped = false → s.unqueried rt key = true →
      Leaves (fun _ : ValueReturn => True) (Progress rt limits key env (i + 1))
        (s.round rt limits key env i) := by
    intro hqueried hstopped hmore
    exact (queried_pos_round hkept hqueried hstopped hmore hconcurrent hqueries).imp
      (fun r hr => hr) fun s' hs' => .asked hs'
  cases h with
  | asked hqueried =>
    refine (queried_le_round hkept).imp (fun r hr => hr) ?_
    intro s' hs'
    exact .asked (Nat.lt_of_lt_of_le hqueried hs')
  | fresh =>
    cases hmore : (start rt limits key env).unqueried rt key with
    | false =>
      have hfirst := firstLoaded_round (fresh_start rt limits key env) hkept accounted_start hmore
        hconcurrent hqueries
      exact hfirst.imp (fun r hr => hr.elim) fun s' hs' => .loaded hmore hs'
    | true =>
      have hfresh := fresh_start rt limits key env
      exact hask hfresh.queried hfresh.stopped hmore
  | loaded hnone hloaded =>
    rcases hloaded.next with ⟨hstopped, hmore⟩ | ⟨hstopped, hcontacts⟩
    · exact hask hloaded.queried hstopped hmore
    · exact hempty hcontacts hstopped
  | empty hcontacts hstopped => exact hempty hcontacts hstopped

/-- The rounds of a whole run. -/
theorem Progress.rounds (rt : Runtime) (key : String) (env : ValueEnv)
    (hconcurrent : 0 < limits.maxConcurrent) (hqueries : 0 < limits.maxPeerQueries) (m : Nat) :
    Leaves ValueReturn.Sound
      (fun s => Progress rt limits key env m s ∧ s.walk.Accounted [] ∧ s.Kept rt limits env m)
      ((List.range m).foldlM (ValueLookup.round rt limits key env)
        (ValueLookup.start rt limits key env)) := by
  refine Leaves.foldlM_range
    (fun i s => Progress rt limits key env i s ∧ s.walk.Accounted [] ∧ s.Kept rt limits env i) m ?_
    ⟨.fresh, accounted_start, Kept.start⟩
  rintro i s - ⟨hprogress, haccount, hkept⟩
  have hround := (hprogress.round hkept hconcurrent hqueries).and
    ((accounted_round haccount hkept).and hkept.round)
  exact hround.imp (fun r hr => hr.2.1) fun s' hs' => hs'

/-- A lookup whose only round is lost ends after that round and reports that there is no value. -/
theorem RoundLost.run (h : RoundLost rt limits key env) {configured : LookupLimits}
    (hlimits : lookupLimits configured = limits) (hconcurrent : 0 < limits.maxConcurrent)
    (hqueries : 0 < limits.maxPeerQueries) :
    FirstLoaded rt key env (recursiveFindValueDetailed rt configured env key).lookup ∧
      (recursiveFindValueDetailed rt configured env key).result.outcome = some .notFound := by
  have hwalk : (start rt limits key env).walk = {} := by
    rw [walk_start]
    exact Walk.takeSeeds_of_none {} h.seeds
  have hnone : (start rt limits key env).unqueried rt key = false := by
    rw [unqueried, hwalk, (closestUnqueried_eq_nil_iff one_pos).2 (by simp)]
    simp
  have hfirst := firstLoaded_round (fresh_start rt limits key env) Kept.start accounted_start hnone
    hconcurrent hqueries
  rw [recursiveFindValueDetailed, hlimits, h.rounds]
  cases hround : (start rt limits key env).round rt limits key env 0 with
  | error r =>
    rw [hround] at hfirst
    exact hfirst.elim
  | ok s =>
    rw [hround] at hfirst
    have hrun : (List.range (1 : Int).toNat).foldlM (ValueLookup.round rt limits key env)
        (start rt limits key env) = .ok s := by
      simp [List.range_succ, hround, bind, Except.bind, pure, Except.pure]
    rw [hrun]
    refine ⟨?_, ?_⟩
    · rw [walk_finish]
      exact hfirst
    · -- Nobody was asked, so the check for unqueried contacts is skipped.
      have hverified := h.verified
      have hraw := h.raw
      rw [← hfirst.collector] at hverified hraw
      have hresolve : s.resolve env = _ := resolve_of_empty (env.visit_perm _) hverified hraw
      simp [finish, hresolve, hfirst.queried, hfirst.failures]

theorem RoundLost.not_sound (h : RoundLost rt limits key env) {configured : LookupLimits}
    (hlimits : lookupLimits configured = limits) (hconcurrent : 0 < limits.maxConcurrent)
    (hqueries : 0 < limits.maxPeerQueries) :
    ¬ (recursiveFindValueDetailed rt configured env key).Sound := by
  obtain ⟨hfirst, houtcome⟩ := h.run hlimits hconcurrent hqueries
  intro hsound
  have hcovers := hsound.conclusive houtcome
  have hcontacts : Walk.fallback rt (env.round 0) ≠ [] := by
    rw [Walk.fallback, ne_eq, List.map_eq_nil_iff]
    exact h.fallback
  rw [← hfirst.contacts] at hcontacts
  obtain ⟨c, hc⟩ := List.exists_mem_of_ne_nil _ hcontacts
  obtain ⟨n, hn, -⟩ := hcovers c hc
  rw [hfirst.batches] at hn
  exact List.not_mem_nil hn

/-- A value lookup is sound exactly when its only round is not lost. -/
theorem sound_iff {configured : LookupLimits} (hlimits : lookupLimits configured = limits)
    (hrounds : 0 < limits.maxRounds) (hconcurrent : 0 < limits.maxConcurrent)
    (hqueries : 0 < limits.maxPeerQueries) (env : ValueEnv) (key : String) :
    (recursiveFindValueDetailed rt configured env key).Sound ↔ ¬ RoundLost rt limits key env := by
  constructor
  · intro hsound hlost
    exact hlost.not_sound hlimits hconcurrent hqueries hsound
  · intro hnot
    refine returns hlimits ValueReturn.Sound ?_
    refine (Progress.rounds rt key env hconcurrent hqueries _).imp (fun r hr => hr) ?_
    rintro s ⟨hprogress, haccount, hkept⟩
    refine finish_sound haccount ?_
    intro hlost
    obtain ⟨m, hm⟩ : ∃ m, limits.maxRounds.toNat = m := ⟨_, rfl⟩
    rw [hm] at hprogress
    cases hprogress with
    | asked hqueried => exact absurd hlost.queried (Nat.pos_iff_ne_zero.1 hqueried)
    | fresh => omega
    | loaded hnone hloaded =>
      -- The fallback took the only round.
      refine hnot ⟨by omega, ?_, ?_, ?_, ?_⟩
      · have hcontacts := contacts_eq_nil accounted_start Kept.start queried_start hnone
        rw [walk_start, Walk.contacts_takeSeeds, List.nil_append, List.map_eq_nil_iff,
          List.filter_eq_nil_iff] at hcontacts
        exact fun seed hseed => Bool.eq_false_of_not_eq_true (hcontacts seed hseed)
      · have hcontacts := hlost.contacts
        rw [hloaded.contacts, Walk.fallback, ne_eq, List.map_eq_nil_iff] at hcontacts
        exact hcontacts
      · rw [← hloaded.collector]
        exact hlost.verified
      · rw [← hloaded.collector]
        exact hlost.raw
    | empty hcontacts hstopped => exact absurd hcontacts hlost.contacts

end ValueLookup

/-! ## Both lookups -/

/-- Under limits that the server accepts, the outcome of a node lookup is sound where the contacts of
the diversity fallback that carry the name were also seen as seeds or referrals, and a lookup that
finds a name is sound only there. A value lookup is sound exactly when its only round is not lost. -/
theorem lookup_outcomes (rt : Runtime) {limits configured : LookupLimits}
    (h : setLookupLimits limits = .ok configured) :
    (∀ env target bootstrap, let r := recursiveFindNodeDetailed rt configured env target bootstrap
      (r.lookup.walk.FallbackSeen rt target → r.Sound rt target) ∧
        (isNameTarget target = true → r.result.outcome = .found →
          (r.Sound rt target ↔ r.lookup.walk.FallbackSeen rt target))) ∧
    ∀ env key, (recursiveFindValueDetailed rt configured env key).Sound ↔
      ¬ ValueLookup.RoundLost rt limits key env := by
  obtain ⟨hlimits, hrounds, hconcurrent, hqueries⟩ := lookupLimits_of_set h
  refine ⟨?_, ?_⟩
  · intro env target bootstrap
    have hsettled := NodeLookup.settled rt hlimits hconcurrent env target bootstrap
    refine ⟨hsettled.sound, ?_⟩
    intro hname hfound
    exact ⟨fun hsound => hsettled.seen hsound hname hfound, hsettled.sound⟩
  · exact ValueLookup.sound_iff hlimits hrounds hconcurrent hqueries

/-- Limits that allow one round. -/
def singleRound : LookupLimits := { defaultLookupLimits with maxRounds := 1, maxPeerQueries := 4 }

/-- The key of a name. -/
def sampleNameKey : String := "node/name/" ++ sampleHash "1"

theorem lookup_outcomes_single_round :
    ((recursiveFindNodeDetailed blankRuntime singleRound (silentEnv namelessTable) sampleNameKey
        false).lookup.walk.FallbackSeen blankRuntime sampleNameKey →
      (recursiveFindNodeDetailed blankRuntime singleRound (silentEnv namelessTable) sampleNameKey
        false).Sound blankRuntime sampleNameKey) ∧
    ((recursiveFindValueDetailed blankRuntime singleRound (silentValueEnv namelessTable)
        sampleNameKey).Sound ↔
      ¬ ValueLookup.RoundLost blankRuntime singleRound sampleNameKey
        (silentValueEnv namelessTable)) := by
  have h := lookup_outcomes blankRuntime
    (by decide : setLookupLimits singleRound = .ok singleRound)
  exact ⟨(h.1 _ _ _).1, h.2 _ _⟩

/-- The diversity fallback of a server that meets the table `t` throughout. -/
theorem fallback_silent (t : Table) :
    Walk.fallback blankRuntime ((silentValueEnv t).round 0) =
      (t.diversityContacts blankRuntime t.indexedPeers).map fun peer => ⟨peer, 0, .fallback⟩ := rfl

theorem roundLost_silent {t : Table}
    (hseeds : t.closestForTarget blankRuntime sampleNameKey singleRound.maxConcurrent = [])
    (hfallback : t.diversityContacts blankRuntime t.indexedPeers ≠ []) :
    ValueLookup.RoundLost blankRuntime singleRound sampleNameKey (silentValueEnv t) where
  rounds := rfl
  seeds := by
    intro seed hseed
    have hnil : ValueLookup.seeds blankRuntime singleRound sampleNameKey
        (silentValueEnv t).seeds = [] := hseeds
    rw [hnil] at hseed
    exact absurd hseed List.not_mem_nil
  fallback := hfallback
  verified := rfl
  raw := rfl

theorem diversityContacts_nameless :
    namelessTable.diversityContacts blankRuntime namelessTable.indexedPeers = [Table.samplePeer] := by
  decide +kernel

theorem roundLost_nameless :
    ValueLookup.RoundLost blankRuntime singleRound sampleNameKey (silentValueEnv namelessTable) := by
  refine roundLost_silent (by decide +kernel) ?_
  rw [diversityContacts_nameless]
  exact List.cons_ne_nil _ _

/-- A server without a name has an active peer and looks up a name in one round. It asks nobody and
reports that there is no value. -/
theorem name_free_without_query :
    setLookupLimits singleRound = .ok singleRound ∧
      (recursiveFindValueDetailed blankRuntime singleRound (silentValueEnv namelessTable)
        sampleNameKey).result.outcome = some .notFound ∧
      (recursiveFindValueDetailed blankRuntime singleRound (silentValueEnv namelessTable)
        sampleNameKey).lookup.walk.contacts.map (fun c => c.info.id) = [Table.samplePeer.id] ∧
      (recursiveFindValueDetailed blankRuntime singleRound (silentValueEnv namelessTable)
        sampleNameKey).lookup.walk.batches = [[]] ∧
      ¬ (recursiveFindValueDetailed blankRuntime singleRound (silentValueEnv namelessTable)
        sampleNameKey).Sound := by
  have hlimits : lookupLimits singleRound = singleRound := rfl
  obtain ⟨hfirst, houtcome⟩ := roundLost_nameless.run hlimits (by decide) (by decide)
  refine ⟨by decide, houtcome, ?_, hfirst.batches, ?_⟩
  · rw [hfirst.contacts, fallback_silent, diversityContacts_nameless]
    rfl
  · exact roundLost_nameless.not_sound hlimits (by decide) (by decide)

end Vx6.Dht
