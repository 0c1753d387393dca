import Vx6.Dht.TableView

/-!
# Offline history

A peer that goes offline is entered in `offline`, and its entry takes the time in `OfflineSince`; the
expiry of offline peers needs both. The operations set the two separately. `Together` says when a
change moves them together, and `consistent_change_iff` that every other change drives them apart: a
candidate that is added again while it is offline, a late answer to a probe, a peer that is forgotten
while it is offline, and a restored peer without a time that is offline already.
-/

set_option autoImplicit false

namespace Vx6.Dht.Table

open Vx6.Go Vx6.Lib

/-- The entry of a peer has an `OfflineSince`. -/
def PeerView.since (v : PeerView) : Bool := v.entry.any fun e => !isZero e.offlineSince

/-- An ID is in `offline` if and only if its entry has an `OfflineSince`. -/
def Consistent (t : Table) : Prop := ∀ nodeID, (t.view nodeID).offline = (t.view nodeID).since

/-- The clock does not stand at the zero time when a peer misses a probe. -/
def Timed : Change → Prop
  | .call (.recordLivenessResult _ now false) => isZero now = false
  | _ => True

/-- The change moves `offline` and `OfflineSince` together. -/
def Together (t : Table) : Change → Prop
  -- a candidate leaves `offline`, but its entry keeps the time
  | .call (.addCandidate node) => t.takes node = true → t.isOffline node.id = false
  -- an answer clears the time, but the peer stays in `offline`
  | .call (.recordLivenessResult nodeID _ true) => t.isOffline nodeID = false
  | .call (.recordLivenessResult nodeID now false) => t.forgets nodeID now = true →
      t.isOffline nodeID = false
  -- without a time the peer leaves `offline` only if it becomes a candidate
  | .restored peer now => tooOld peer now = false → isZero peer.offlineSince = true →
    t.takes peer.node = true ∨ t.isOffline peer.node.id = false
  | _ => True

section Steps

variable {cr : Crypto} {t t' : Table} {nodeID : String}

theorem since_some {e : BucketEntry} {offline : Bool} :
    (PeerView.mk (some e) offline).since = !isZero e.offlineSince := rfl

theorem offlineSince_exchanged (node : NodeInfo) (now : Time) (held : Option BucketEntry) :
    (exchanged cr node now held).offlineSince = zeroTime := by
  cases held <;> rfl

/-- A peer without an `OfflineSince` is proposed without one. -/
theorem since_proposed {v : PeerView} (h : v.since = false) (pending : Bool) (node : NodeInfo) :
    isZero (proposed pending node v.entry).offlineSince = true := by
  obtain ⟨held, offline⟩ := v
  cases held with
  | none => rfl
  | some e => simpa [since_some, proposed] using h

/-- An operation that moves the two together leaves a consistent view. -/
theorem Touch.consistent {op : Op} {v w : PeerView} (h : Touch cr t nodeID op v w)
    (hoffline : v.offline = t.isOffline nodeID) (hv : v.offline = v.since) (htimed : Timed (.call op))
    (htogether : t.Together (.call op)) : w.offline = w.since := by
  cases h with
  | same => exact hv
  | addNode node now => rw [since_some, offlineSince_exchanged]; rfl
  | promote r now => rw [since_some, offlineSince_exchanged]; rfl
  | candidate node _ hid htakes =>
    subst hid
    have hnot : v.since = false := hv.symm.trans (hoffline.trans (htogether htakes))
    rw [since_some, since_proposed hnot]
    rfl
  | lookup node offline hid => exact hv
  | discard => rfl
  | unpin => rfl
  | prune => rfl
  | alive now e offline => exact hoffline.trans htogether
  | forget now e offline hforgets => exact hoffline.trans (htogether hforgets)
  | away now e offline =>
    have hnow : isZero now = false := htimed
    rw [since_some]
    cases hzero : isZero e.offlineSince <;> simp [noteOffline, noteMiss, noteProbe, hzero, hnow]
  | use now rtt e node offline hnode => exact hv
  | _ => exact hv

/-- The view of a restored peer is consistent exactly when the peer does not stay offline without a
time. -/
theorem consistent_restored_iff {v : PeerView} {peer : PeerObservation} {e : BucketEntry}
    (he : v.entry = some e) : (v.restored peer).offline = (v.restored peer).since ↔
      (isZero peer.offlineSince = true → v.offline = false) := by
  obtain ⟨held, offline⟩ := v
  cases he
  show (if isZero peer.offlineSince then offline else true) = (!isZero peer.offlineSince) ↔ _
  cases isZero peer.offlineSince <;> simp

/-- What is offered of a peer: it is not offline, or it was and is not taken. -/
theorem offered_offline (node : NodeInfo) :
    (t.offered node).offline = false ↔ t.takes node = true ∨ t.isOffline node.id = false := by
  unfold offered
  split_ifs with htakes
  · simp [htakes]
  · simp only [htakes, Bool.false_eq_true, false_or]
    rfl

theorem consistent_restore_iff (h : t.Keyed) (hcons : t.Consistent) {peer : PeerObservation} {now : Time}
    (hrestore : t.restoreCandidate cr peer now = some t') :
    t'.Consistent ↔ t.Together (.restored peer now) := by
  cases hold : tooOld peer now with
  | true =>
    rw [restoreCandidate_skip hold hrestore]
    refine ⟨fun _ hnot => ?_, fun _ => hcons⟩
    rw [hold] at hnot
    cases hnot
  | false =>
    have hview := (view_restoreCandidate h hold hrestore).2
    -- only the view of the restored peer changes
    have hone : t'.Consistent ↔
        ((t.offered peer.node).restored peer).offline = ((t.offered peer.node).restored peer).since := by
      refine ⟨fun hall => ?_, fun hthis nodeID => ?_⟩
      · have := hall peer.node.id
        rwa [hview, if_pos rfl] at this
      · rw [hview]
        split_ifs
        · exact hthis
        · exact hcons nodeID
    rw [hone]
    cases he : (t.offered peer.node).entry with
    | none =>
      -- there is no entry to restore, and so the peer is not offline
      have htakes : ¬ t.takes peer.node = true := by
        intro htakes
        rw [offered, if_pos htakes] at he
        cases he
      have hsame : t.offered peer.node = t.view peer.node.id := by rw [offered, if_neg htakes]
      have hnone : (t.view peer.node.id).entry = none := hsame ▸ he
      have hoff : t.isOffline peer.node.id = false := by
        have := hcons peer.node.id
        rwa [PeerView.since, hnone] at this
      rw [PeerView.restored, he, hsame]
      exact ⟨fun _ _ _ => .inr hoff, fun _ => hcons peer.node.id⟩
    | some e =>
      rw [consistent_restored_iff he, offered_offline]
      exact ⟨fun hthis _ => hthis, fun hthis => hthis hold⟩

theorem Consistent.since_eq (hcons : t.Consistent) (nodeID : String) :
    t.isOffline nodeID = (t.view nodeID).since := hcons nodeID

/-- An offline peer has an entry with a time. -/
theorem Consistent.of_isOffline (hcons : t.Consistent) (hoff : t.isOffline nodeID = true) :
    ∃ r, t.peerByID.lookup nodeID = some r ∧ isZero (t.heap r).offlineSince = false := by
  rw [hcons.since_eq] at hoff
  cases hr : t.peerByID.lookup nodeID with
  | none =>
    rw [view, entry_eq_none.2 hr] at hoff
    cases hoff
  | some r =>
    rw [view_of_lookup hr, since_some, Bool.not_eq_true'] at hoff
    exact ⟨r, rfl, hoff⟩

/-- A call that leaves the table consistent moves the two together. -/
theorem together_of_step (h : t.Keyed) (hcons : t.Consistent) {op : Op} (hstep : t.step cr op = some t')
    (hop : ∀ peers now, op ≠ .restoreCandidates peers now) (hcons' : t'.Consistent) :
    t.Together (.call op) := by
  cases op with
  | restoreCandidates peers now => exact absurd rfl (hop peers now)
  | addCandidate node =>
    intro htakes
    by_contra hoff
    obtain ⟨r, hr, htime⟩ := hcons.of_isOffline (Bool.not_eq_false _ ▸ hoff)
    have hthis := hcons' node.id
    rw [(view_addCandidate h htakes hstep).2, if_pos rfl, entry_of_lookup hr] at hthis
    have htime' : (false : Bool) = !isZero (t.heap r).offlineSince := hthis
    rw [htime] at htime'
    cases htime'
  | recordLivenessResult nodeID now alive =>
    cases hstep
    have hthis := hcons' nodeID
    cases alive with
    | true =>
      show t.isOffline nodeID = false
      by_contra hoff
      obtain ⟨r, hr, -⟩ := hcons.of_isOffline (Bool.not_eq_false _ ▸ hoff)
      rw [view_of_alive h hr] at hthis
      exact hoff hthis
    | false =>
      intro hforgets
      rw [view_of_forgets hforgets] at hthis
      exact hthis
  | _ => trivial

/-- A change leaves a consistent table consistent exactly when it moves the two together. -/
theorem consistent_change_iff (h : t.Keyed) (hcons : t.Consistent) {c : Change} (htimed : Timed c)
    (hchange : t.change cr c = some t') : t'.Consistent ↔ t.Together c := by
  cases c with
  | restored peer now => exact consistent_restore_iff h hcons hchange
  | call op =>
    obtain ⟨hstep, hop⟩ := step_of_change hchange
    refine ⟨together_of_step h hcons hstep hop, fun htogether nodeID => ?_⟩
    exact ((touches_step h hstep hop).2 nodeID).consistent rfl (hcons nodeID) htimed htogether

/-- A restored peer with an `OfflineSince` is not active. -/
def RestoresInactive (t : Table) : Change → Prop
  | .restored peer now => tooOld peer now = false → isZero peer.offlineSince = false →
    t.inBuckets peer.node.id = false
  | _ => True

/-- The changes of a run in which the two move together and no active peer is put offline. -/
def Steady (t : Table) (c : Change) : Prop := Timed c ∧ t.Together c ∧ t.RestoresInactive c

theorem Coherent.change (h : t.Coherent cr) {c : Change} (hok : t.Steady c)
    (hchange : t.change cr c = some t') : t'.Coherent cr := by
  obtain ⟨-, htogether, hinactive⟩ := hok
  cases c with
  | restored peer now =>
    exact h.restoreCandidate (fun hold hzero => Buckets.has_eq_false.1 (hinactive hold hzero)) hchange
  | call op =>
    obtain ⟨hstep, hop⟩ := step_of_change hchange
    refine h.step ?_ hstep
    cases op with
    | restoreCandidates peers now => exact absurd rfl (hop peers now)
    | recordLivenessResult nodeID now alive =>
      cases alive with
      | true => trivial
      | false =>
        intro hforgets
        have hoff : t.isOffline nodeID = false := htogether hforgets
        rwa [isOffline, Option.isSome_eq_false_iff, Option.isNone_iff_eq_none] at hoff
    | _ => trivial

/-- The state of the offline history along a run. -/
structure History (cr : Crypto) (t : Table) : Prop where
  coherent : t.Coherent cr
  consistent : t.Consistent

theorem History.change (h : t.History cr) {c : Change} (hok : t.Steady c)
    (hchange : t.change cr c = some t') : t'.History cr :=
  ⟨h.coherent.change hok hchange,
    (consistent_change_iff h.coherent.keyed h.consistent hok.1 hchange).2 hok.2.1⟩

theorem history_new (cr : Crypto) (selfID : String) : (newRoutingTable cr selfID).History cr := by
  refine ⟨coherent_new cr selfID, fun nodeID => ?_⟩
  have hnone : (newRoutingTable cr selfID).view nodeID = ⟨none, false⟩ := by
    rw [view, entry, isOffline, newRoutingTable, Dict.lookup_empty_eq]
    rfl
  rw [hnone]
  rfl

/-- A peer in one of the indexes is not offline, and so its entry has no time. -/
theorem History.indexed (h : t.History cr) {r : Ref}
    (hr : Buckets.Mem t.buckets r ∨ Buckets.Mem t.pending r) : isZero (t.heap r).offlineSince = true := by
  have hheld : t.Held r := hr.elim (h.coherent.activeHeld r) (h.coherent.held r)
  have hoff : t.isOffline (t.idOf r) = false := by
    rw [isOffline, h.coherent.offline_none_of hheld hr]
    rfl
  rw [h.consistent.since_eq, view_of_lookup hheld, since_some] at hoff
  simpa using hoff

/-- A peer that has been offline for long is dropped. -/
theorem History.pruned (h : t.History cr) {e : BucketEntry} {now : Time} (he : t.entry nodeID = some e)
    (htime : isZero e.offlineSince = false) (hpinned : e.pinned = false) (hfriend : e.friend = false)
    (hlong : peerHistoryTTL < sub now e.offlineSince) :
    (t.pruneOffline now).view nodeID = ⟨none, false⟩ := by
  obtain ⟨r, hr, rfl⟩ := entry_eq_some.1 he
  have hoff : t.isOffline nodeID = true := by
    rw [h.consistent.since_eq, view_of_lookup hr, since_some, htime]
    rfl
  obtain ⟨r', hr'⟩ := Option.isSome_iff_exists.1 hoff
  -- the entry in `offline` is the one in `peerByID`
  have hsame : r' = r := Option.some.inj ((h.coherent.away nodeID r' hr').1.symm.trans hr)
  subst hsame
  have hprunes : t.prunes now nodeID = true := by
    simp [prunes, hr', prunable, hpinned, hfriend, htime, hlong]
  rw [view_pruneOffline, if_pos hprunes]

/-! ## Peers that nobody contacts -/

/-- The change does not concern the peer itself: it is not added, offered or restored. -/
def Unmentioned (nodeID : String) : Change → Prop
  | .call (.addNode node _) => node.id ≠ nodeID
  | .call (.addCandidate node) => node.id ≠ nodeID
  | .call (.addLookupCandidate node) => node.id ≠ nodeID
  | .call (.promoteCandidate id _) => id ≠ nodeID
  | .restored peer _ => peer.node.id ≠ nodeID
  | _ => True

/-- The peer is gone, or has been offline since a given time. -/
def PeerView.goneSince (since : Time) (v : PeerView) : Bool := v.entry.all fun e => e.offlineSince = since

theorem goneSince_some {e : BucketEntry} {offline : Bool} {since : Time} :
    (PeerView.mk (some e) offline).goneSince since = true ↔ e.offlineSince = since := decide_eq_true_iff

theorem Touch.goneSince {op : Op} {v w : PeerView} (h : Touch cr t nodeID op v w)
    (hoffline : v.offline = t.isOffline nodeID) (hv : v.offline = v.since)
    (htogether : t.Together (.call op)) (hout : Unmentioned nodeID (.call op)) {since : Time}
    (hsince : isZero since = false) (hgone : v.goneSince since = true) : w.goneSince since = true := by
  cases h with
  | same => exact hgone
  | addNode node now _ hid => exact absurd hid hout
  | promote r now => exact absurd rfl hout
  | candidate node _ hid => exact absurd hid hout
  | lookup node offline hid => exact absurd hid hout
  | discard => rfl
  | unpin => rfl
  | prune => rfl
  | forget => rfl
  | alive now e offline =>
    -- an offline peer does not answer
    have hnot : offline = false := hoffline.trans htogether
    rw [since_some, goneSince_some.1 hgone, hsince, hnot] at hv
    cases hv
  | away now e offline =>
    have htime : e.offlineSince = since := goneSince_some.1 hgone
    rw [goneSince_some]
    show (if isZero e.offlineSince then now else e.offlineSince) = since
    rw [htime, hsince]
    rfl
  | use now rtt e node offline hnode => exact hgone
  | _ => exact hgone

theorem goneSince_change (h : t.History cr) {c : Change} (hok : t.Steady c)
    (hout : Unmentioned nodeID c) (hchange : t.change cr c = some t') {since : Time}
    (hsince : isZero since = false) (hgone : (t.view nodeID).goneSince since = true) :
    (t'.view nodeID).goneSince since = true := by
  have hkeyed : t.Keyed := h.coherent.keyed
  cases c with
  | restored peer now =>
    cases hold : tooOld peer now with
    | true =>
      rw [restoreCandidate_skip hold hchange]
      exact hgone
    | false =>
      rw [(view_restoreCandidate hkeyed hold hchange).2, if_neg (Ne.symm hout)]
      exact hgone
  | call op =>
    obtain ⟨hstep, hop⟩ := step_of_change hchange
    exact ((touches_step hkeyed hstep hop).2 nodeID).goneSince rfl (h.consistent nodeID) hok.2.1 hout
      hsince hgone

end Steps

/-- In every run whose changes move `offline` and `OfflineSince` together, a peer is in `offline` if and
only if its entry has an `OfflineSince`, and no peer of an index has one. A peer that is offline and not
contacted again is dropped by the first `PruneOffline` after 30 days, unless it is pinned or a friend. -/
theorem offline_history {cr : Crypto} {selfID : String} {t : Table}
    (hrun : Reach (change cr) Steady (newRoutingTable cr selfID) t) :
    (∀ nodeID, t.isOffline nodeID = true ↔
        ∃ e, t.entry nodeID = some e ∧ isZero e.offlineSince = false) ∧
      (∀ i r, r ∈ t.buckets i ∨ r ∈ t.nameBuckets i ∨ r ∈ t.pending i →
        isZero (t.heap r).offlineSince = true) ∧
      ∀ nodeID e t' now, t.entry nodeID = some e → isZero e.offlineSince = false →
        Reach (change cr) (fun s c => s.Steady c ∧ Unmentioned nodeID c) t t' →
        peerHistoryTTL < sub now e.offlineSince →
        (∀ e', t'.entry nodeID = some e' → e'.pinned = false ∧ e'.friend = false) →
        (t'.pruneOffline now).view nodeID = ⟨none, false⟩ := by
  have hstep : ∀ (s : Table) (c : Change) (s' : Table), s.History cr → s.Steady c →
    s.change cr c = some s' →
      s'.History cr := fun _ _ _ hs hok hchange => hs.change hok hchange
  have h : t.History cr := Reach.invariant hstep hrun (history_new cr selfID)
  refine ⟨fun nodeID => ⟨fun hoff => ?_, fun ⟨e, he, htime⟩ => ?_⟩, fun i r hr => ?_,
    fun nodeID e t' now he htime hquiet hlong hplain => ?_⟩
  · obtain ⟨r, hr, htime⟩ := h.consistent.of_isOffline hoff
    exact ⟨_, entry_of_lookup hr, htime⟩
  · obtain ⟨r, hr, rfl⟩ := entry_eq_some.1 he
    rw [h.consistent.since_eq, view_of_lookup hr, since_some, htime]
    rfl
  · rcases hr with hr | hr | hr
    · exact h.indexed (.inl ⟨i, hr⟩)
    · exact h.indexed (.inl (h.coherent.namedActive r ⟨i, hr⟩))
    · exact h.indexed (.inr ⟨i, hr⟩)
  · -- along the quiet run the peer is gone or keeps its time
    have hquietStep : ∀ (s : Table) (c : Change) (s' : Table),
        (s.History cr ∧ (s.view nodeID).goneSince e.offlineSince = true) →
        (s.Steady c ∧ Unmentioned nodeID c) →
          s.change cr c = some s' → s'.History cr ∧ (s'.view nodeID).goneSince e.offlineSince = true :=
      fun s c s' hs hok hchange => ⟨hs.1.change hok.1 hchange,
        goneSince_change hs.1 hok.1 hok.2 hchange htime hs.2⟩
    have hgone : (t.view nodeID).goneSince e.offlineSince = true := by
      rw [view, he, goneSince_some]
    obtain ⟨h', hgone'⟩ := Reach.invariant hquietStep hquiet ⟨h, hgone⟩
    cases he' : t'.entry nodeID with
    | some e' =>
      obtain ⟨hpinned, hfriend⟩ := hplain e' he'
      rw [view, he', goneSince_some] at hgone'
      rw [← hgone'] at htime hlong
      exact h'.pruned he' htime hpinned hfriend hlong
    | none =>
      have hoff : t'.isOffline nodeID = false := by
        rw [h'.consistent.since_eq, view, he']
        rfl
      rw [view_pruneOffline, view, he', hoff]
      split_ifs <;> rfl

/-- A test of the changes of a run. -/
def calmChange (t : Table) : Change → Bool
  | .call op => t.calm op
  | .restored _ _ => false

theorem steady_of_calm (t : Table) (c : Change) (h : t.calmChange c = true) : t.Steady c := by
  cases c with
  | restored peer now => cases h
  | call op =>
    cases op with
    | addCandidate node =>
      simp only [calmChange, calm, Bool.and_eq_true, Bool.not_eq_true'] at h
      exact ⟨trivial, fun _ => Option.isSome_eq_false_iff.2 h.2, trivial⟩
    | recordLivenessResult nodeID now alive =>
      cases alive with
      | true => cases h
      | false =>
        simp only [calmChange, calm, Bool.and_eq_true, Bool.not_eq_true'] at h
        refine ⟨h.1.2, fun hforgets => ?_, trivial⟩
        rw [h.2] at hforgets
        cases hforgets
    | _ => exact ⟨trivial, trivial, trivial⟩

/-- The step of a run on fixed inputs. -/
def calmStep (t : Table) (c : Change) : Option Table :=
  if t.calmChange c then t.change tableCrypto c else none

set_option maxRecDepth 8000 in
theorem goesOffline_end :
    ((goesOffline.map Change.call).foldlM calmStep (newRoutingTable tableCrypto sampleSelf)).map
      (fun t => ((t.entry samplePeer.id).map fun e => e.offlineSince,
        ((takesUp.map Change.call).foldlM calmStep t).map fun t =>
          ((t.entry samplePeer.id).map fun e => (e.pinned, e.friend), t.isOffline samplePeer.id))) =
      some (some (15 * minute), some (some (false, false), true)) := by
  decide

/-- A peer goes offline. Others are taken up, and 40 days later it is pruned. -/
theorem offline_history_pruned :
    ∃ t t', Reach (change tableCrypto) Steady (newRoutingTable tableCrypto sampleSelf) t ∧
      t.isOffline samplePeer.id = true ∧
      Reach (change tableCrypto) (fun s c => s.Steady c ∧ Unmentioned samplePeer.id c) t t' ∧
      t'.isOffline samplePeer.id = true ∧
      (t'.pruneOffline (40 * 24 * hour)).view samplePeer.id = ⟨none, false⟩ := by
  obtain ⟨t, hrun, hend⟩ := Option.map_eq_some_iff.1 goesOffline_end
  obtain ⟨hsince, hrest⟩ := Prod.mk.inj hend
  obtain ⟨e, he, htime⟩ := Option.map_eq_some_iff.1 hsince
  obtain ⟨t', hrun', hend'⟩ := Option.map_eq_some_iff.1 hrest
  obtain ⟨hmarks, hoff'⟩ := Prod.mk.inj hend'
  have hreach := Reach.of_testedM steady_of_calm _ hrun
  obtain ⟨hiff, -, hpruned⟩ := offline_history hreach
  have hzero : isZero e.offlineSince = false := by
    rw [htime]
    decide
  have hquiet : Reach (change tableCrypto) (fun s c => s.Steady c ∧ Unmentioned samplePeer.id c) t t' := by
    rw [takesUp, List.map_cons, List.map_cons, List.map_nil, List.foldlM_cons, Option.bind_eq_bind,
      Option.bind_eq_some_iff] at hrun'
    obtain ⟨u, hfirst, hlast⟩ := hrun'
    rw [List.foldlM_cons, Option.bind_eq_bind, Option.bind_eq_some_iff] at hlast
    obtain ⟨v, hsecond, hend⟩ := hlast
    cases hend
    rw [calmStep] at hfirst hsecond
    split_ifs at hfirst hsecond with hcalm hcalm'
    exact .tail (.single ⟨_, ⟨steady_of_calm _ _ hcalm, show thirdPeer.id ≠ _ by decide⟩, hfirst⟩)
      ⟨_, ⟨steady_of_calm _ _ hcalm', show secondPeer.id ≠ _ by decide⟩, hsecond⟩
  refine ⟨t, t', hreach, (hiff _).2 ⟨e, he, hzero⟩, hquiet, hoff',
    hpruned _ e t' _ he hzero hquiet (by rw [htime]; decide) fun e' he' => ?_⟩
  rw [he'] at hmarks
  obtain ⟨hpinned, hfriend⟩ := Prod.mk.inj (Option.some.inj hmarks)
  exact ⟨hpinned, hfriend⟩

/-- A peer answers once, misses three probes and is offered again as a candidate. 40 days later the
offline peers are pruned. -/
def offeredAgain : List Op :=
  [.addNode samplePeer 0, .recordLivenessResult samplePeer.id (5 * minute) false,
    .recordLivenessResult samplePeer.id (10 * minute) false,
    .recordLivenessResult samplePeer.id (15 * minute) false, .addCandidate samplePeer,
    .pruneOffline (40 * 24 * hour)]

set_option maxRecDepth 4000 in
/-- The peer is a candidate with an `OfflineSince` but not in `offline`, and the prune leaves it. -/
theorem offered_peer_never_expires :
    (offeredAgain.foldlM (Table.step tableCrypto) (newRoutingTable tableCrypto sampleSelf)).map (fun t =>
      (t.isOffline samplePeer.id, t.inPending samplePeer.id,
        (t.entry samplePeer.id).map fun e => (isZero e.offlineSince, e.pinned, e.friend))) =
      some (false, true, some (false, false, false)) := by
  decide

end Vx6.Dht.Table
