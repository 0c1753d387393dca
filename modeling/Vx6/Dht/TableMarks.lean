import Vx6.Dht.TableSnapshot

/-!
# Friends and pinned peers

A peer marked as a friend or pinned is to be kept and tried again. The operations that drop an entry
decide separately whether they may: `PruneOffline` looks at both marks, but at those of the entry in
`offline`; the others look at `Pinned` only, or at what `SetPinned` has just set. `Spares` says when a
change leaves a mark of a peer alone, and `keeps_mark_iff` that nothing else does.
-/

set_option autoImplicit false

namespace Vx6.Dht

open Vx6.Go Vx6.Lib

/-- The two marks of a peer. -/
inductive Mark where
  | friend
  | pinned
  deriving DecidableEq

/-- The peer has the mark. -/
def Mark.on (m : Mark) (p : PeerObservation) : Bool :=
  match m with
  | .friend => p.friend
  | .pinned => p.pinned

/-- The peer has the mark, if one is asked for. -/
def Mark.holds (m : Option Mark) (p : PeerObservation) : Bool := m.all fun m => m.on p

namespace Table

/-- `SetFriend(nodeID, true)` or `SetPinned(nodeID, true)`. -/
def mark (m : Mark) (t : Table) (nodeID : String) : Table × Bool :=
  match m with
  | .friend => t.setFriend nodeID true
  | .pinned => t.setPinned nodeID true

/-- The change leaves a peer in the table, with a mark of it if one is asked for. -/
def Spares (m : Option Mark) (nodeID : String) (t : Table) : Change → Prop
  -- the mark is taken away
  | .call (.setFriend id false) => id = nodeID → m ≠ some .friend
  -- a peer that is not pinned any more is dropped, unless it is in some index
  | .call (.setPinned id false) => id = nodeID → m ≠ some .pinned ∧ t.unpins nodeID = false
  | .call (.discardCandidate id) => id = nodeID → t.discards nodeID = false
  | .call (.recordLivenessResult id now false) => id = nodeID → t.forgets nodeID now = false
  | .call (.pruneOffline now) => t.prunes now nodeID = false
  -- the marks are those of the restored peer
  | .restored peer now => peer.node.id = nodeID → tooOld peer now = false → Mark.holds m peer = true
  | _ => True

section Marks

variable {cr : Crypto} {t t' : Table} {nodeID : String} {m : Option Mark} {e : BucketEntry}

/-- What is known of a marked peer: it has the mark, and is not kept for a lookup only if it was not. -/
def KeepsMark (m : Option Mark) (e e' : BucketEntry) : Prop :=
  Mark.holds m e'.toPeerObservation = true ∧ (e.transient = false → e'.transient = false)

theorem KeepsMark.refl (hm : Mark.holds m e.toPeerObservation = true) : KeepsMark m e e := ⟨hm, id⟩

theorem startProbation_marks (now : Time) (e : BucketEntry) :
    (startProbation now e).friend = e.friend ∧ (startProbation now e).pinned = e.pinned := by
  unfold startProbation
  split <;> exact ⟨rfl, rfl⟩

theorem keepsMark_exchanged (hm : Mark.holds m e.toPeerObservation = true) (node : NodeInfo) (now : Time) :
    KeepsMark m e (exchanged cr node now (some e)) := by
  have hmarks := startProbation_marks now { e with node := node }
  refine ⟨?_, fun _ => rfl⟩
  rcases m with _ | _ | _
  · rfl
  · exact hmarks.1.trans hm
  · exact hmarks.2.trans hm

theorem keepsMark_proposed (hm : Mark.holds m e.toPeerObservation = true) (pending : Bool)
    (node : NodeInfo) :
    KeepsMark m e (proposed pending node (some e)) := by
  refine ⟨?_, fun htransient => ?_⟩
  · rcases m with _ | _ | _ <;> exact hm
  · simp [proposed, htransient]

/-- An operation that spares a peer keeps its entry and the mark. -/
theorem Touch.keeps_mark {op : Op} {v w : PeerView} (h : Touch cr t nodeID op v w)
    (hspares : t.Spares m nodeID (.call op)) (he : v.entry = some e)
    (hm : Mark.holds m e.toPeerObservation = true) : ∃ e', w.entry = some e' ∧ KeepsMark m e e' := by
  cases h with
  | same => exact ⟨e, he, .refl hm⟩
  | addNode node now _ hid hok => exact ⟨_, rfl, by rw [he]; exact keepsMark_exchanged hm node now⟩
  | promote r now _ hr => exact ⟨_, rfl, by rw [he]; exact keepsMark_exchanged hm (t.node r) now⟩
  | candidate node _ hid htakes => exact ⟨_, rfl, by rw [he]; exact keepsMark_proposed hm _ node⟩
  | lookup => cases he
  | discard _ hdiscards =>
    rw [hspares rfl] at hdiscards
    cases hdiscards
  | forget now _ _ hforgets =>
    rw [hspares rfl] at hforgets
    cases hforgets
  | prune now _ hprunes =>
    have hnot : t.prunes now nodeID = false := hspares
    rw [hnot] at hprunes
    cases hprunes
  | unpin _ _ hunpins =>
    rw [(hspares rfl).2] at hunpins
    cases hunpins
  | pin pinned _ _ =>
    cases he
    refine ⟨_, rfl, ?_, fun htransient => htransient⟩
    rcases m with _ | _ | _
    · rfl
    · exact hm
    · cases pinned with
      | true => rfl
      | false => exact absurd rfl (hspares rfl).1
  | befriend friend _ _ =>
    cases he
    refine ⟨_, rfl, ?_, fun htransient => htransient⟩
    rcases m with _ | _ | _
    · rfl
    · cases friend with
      | true => rfl
      | false => exact absurd rfl (hspares rfl)
    · exact hm
  | use now rtt _ node _ hnode =>
    cases he
    exact ⟨_, rfl, by rcases m with _ | _ | _ <;> exact hm, fun htransient => htransient⟩
  | _ =>
    cases he
    exact ⟨_, rfl, by rcases m with _ | _ | _ <;> exact hm, fun htransient => htransient⟩

/-- What is offered of a known peer has its marks. -/
theorem offered_known (hm : Mark.holds m e.toPeerObservation = true) {node : NodeInfo}
    (he : t.entry node.id = some e) : ∃ e', (t.offered node).entry = some e' ∧ KeepsMark m e e' := by
  unfold offered
  split_ifs
  · exact ⟨_, rfl, by rw [he]; exact keepsMark_proposed hm _ node⟩
  · exact ⟨e, he, .refl hm⟩

/-- A restored peer has the marks that are restored. -/
theorem keepsMark_restored (h : t.Keyed) {peer : PeerObservation} {now : Time}
    (hrestore : t.restoreCandidate cr peer now = some t') (hold : tooOld peer now = false)
    (hm : Mark.holds m e.toPeerObservation = true) (he : t.entry peer.node.id = some e) :
    ∃ e', t'.entry peer.node.id = some e' ∧ Mark.holds m e'.toPeerObservation = Mark.holds m peer ∧
      (e.transient = false → e'.transient = false) := by
  obtain ⟨e₁, he₁, hkeeps⟩ := offered_known hm he
  have hentry := congrArg PeerView.entry ((view_restoreCandidate h hold hrestore).2 peer.node.id)
  rw [if_pos rfl, PeerView.restored, he₁] at hentry
  exact ⟨_, hentry, by rcases m with _ | _ | _ <;> rfl, hkeeps.2⟩

theorem keeps_mark_of_spares (h : t.Keyed) {c : Change} (hchange : t.change cr c = some t')
    (hspares : t.Spares m nodeID c) (he : t.entry nodeID = some e)
    (hm : Mark.holds m e.toPeerObservation = true) : ∃ e', t'.entry nodeID = some e' ∧
    KeepsMark m e e' := by
  cases c with
  | call op =>
    obtain ⟨hstep, hop⟩ := step_of_change hchange
    exact ((touches_step h hstep hop).2 nodeID).keeps_mark hspares he hm
  | restored peer now =>
    cases hold : tooOld peer now with
    | true =>
      rw [restoreCandidate_skip hold hchange]
      exact ⟨e, he, .refl hm⟩
    | false =>
      by_cases hid : nodeID = peer.node.id
      · subst hid
        obtain ⟨e', he', hon, htransient⟩ := keepsMark_restored h hchange hold hm he
        exact ⟨e', he', hon.trans (hspares rfl hold), htransient⟩
      · have hentry := congrArg PeerView.entry ((view_restoreCandidate h hold hchange).2 nodeID)
        rw [if_neg hid] at hentry
        exact ⟨e, hentry.trans he, .refl hm⟩

/-- An operation that keeps a peer with its mark spares it. -/
theorem spares_of_step (h : t.Keyed) {op : Op} {e' : BucketEntry} (hstep : t.step cr op = some t')
    (hop : ∀ peers now, op ≠ .restoreCandidates peers now) (he : t.entry nodeID = some e)
    (he' : t'.entry nodeID = some e') (hon : Mark.holds m e'.toPeerObservation = true) :
    t.Spares m nodeID (.call op) := by
  obtain ⟨r, hr, -⟩ := entry_eq_some.1 he
  cases op with
  | restoreCandidates peers now => exact absurd rfl (hop peers now)
  | setFriend id friend =>
    cases friend with
    | true => trivial
    | false =>
      rintro rfl rfl
      have hview := view_modify h hr (fun e => { e with friend := false }) id
      rw [if_pos rfl] at hview
      rw [Table.step, setFriend, hr] at hstep
      cases hstep
      rw [show (t.modify r fun e => { e with friend := false }).entry id = _ from
        congrArg PeerView.entry hview] at he'
      cases he'
      cases hon
  | setPinned id pinned =>
    cases pinned with
    | true => trivial
    | false =>
      rintro rfl
      have hview := congrArg PeerView.entry ((view_unpin h hr).2 id)
      rw [if_pos rfl] at hview
      cases hstep
      rw [show (t.setPinned id false).1.entry id = _ from hview] at he'
      cases hunpins : t.unpins id with
      | true =>
        rw [hunpins, if_pos rfl] at he'
        cases he'
      | false =>
        rw [hunpins, if_neg Bool.false_ne_true] at he'
        cases he'
        refine ⟨?_, rfl⟩
        rintro rfl
        cases hon
  | discardCandidate id =>
    rintro rfl
    cases hstep
    by_contra hdiscards
    have hview := view_discardCandidate t id id
    rw [if_pos ⟨rfl, Bool.not_eq_false _ ▸ hdiscards⟩] at hview
    rw [show (t.discardCandidate id).entry id = none from congrArg PeerView.entry hview] at he'
    cases he'
  | recordLivenessResult id now alive =>
    cases alive with
    | true => trivial
    | false =>
      rintro rfl
      cases hstep
      by_contra hforgets
      have hview := view_of_forgets (Bool.not_eq_false _ ▸ hforgets)
      rw [show (t.recordLivenessResult id now false).1.entry id =
        none from congrArg PeerView.entry hview] at he'
      cases he'
  | pruneOffline now =>
    show t.prunes now nodeID = false
    cases hstep
    by_contra hprunes
    have hview := view_pruneOffline (t := t) now nodeID
    rw [if_pos (Bool.not_eq_false _ ▸ hprunes)] at hview
    rw [show (t.pruneOffline now).entry nodeID = none from congrArg PeerView.entry hview] at he'
    cases he'
  | _ => trivial

/-- A change keeps a peer with its mark exactly when it spares it. -/
theorem keeps_mark_iff (h : t.Keyed) {c : Change} (hchange : t.change cr c = some t')
    (he : t.entry nodeID = some e) (hm : Mark.holds m e.toPeerObservation = true) :
    (∃ e', t'.entry nodeID = some e' ∧ Mark.holds m e'.toPeerObservation = true) ↔
    t.Spares m nodeID c := by
  refine ⟨fun ⟨e', he', hon⟩ => ?_, fun hspares => ?_⟩
  · cases c with
    | restored peer now =>
      rintro rfl hold
      obtain ⟨e₁, he₁, hon₁, -⟩ := keepsMark_restored h hchange hold hm he
      rw [he₁] at he'
      cases he'
      exact hon₁.symm.trans hon
    | call op =>
      obtain ⟨hstep, hop⟩ := step_of_change hchange
      exact spares_of_step h hstep hop he he' hon
  · obtain ⟨e', he', hkeeps⟩ := keeps_mark_of_spares h hchange hspares he hm
    exact ⟨e', he', hkeeps.1⟩

/-- A call that sets a mark and returns true leaves a marked entry. -/
theorem entry_of_mark {m : Mark} {t₁ : Table} (h : t.Keyed) (hmark : t.mark m nodeID = (t₁, true)) :
    t₁.Keyed ∧ ∃ e e₁, t.entry nodeID = some e ∧ t₁.entry nodeID = some e₁ ∧
      m.on e₁.toPeerObservation = true ∧ e₁.transient = e.transient := by
  cases hr : t.peerByID.lookup nodeID with
  | none =>
    cases m with
    | friend => simp [mark, setFriend, hr] at hmark
    | pinned => simp [mark, setPinned, hr] at hmark
  | some r =>
    -- both calls change one field of the entry
    have hset : ∀ f : BucketEntry → BucketEntry, (∀ e, (f e).node = e.node) →
        (∀ e, m.on (f e).toPeerObservation = true) → (∀ e, (f e).transient = e.transient) →
          t₁ = t.modify r f → t₁.Keyed ∧ ∃ e e₁, t.entry nodeID = some e ∧ t₁.entry nodeID = some e₁ ∧
            m.on e₁.toPeerObservation = true ∧ e₁.transient = e.transient := by
      rintro f hnode hon htransient rfl
      have hview := congrArg PeerView.entry (view_modify h hr f nodeID)
      rw [if_pos rfl] at hview
      exact ⟨h.modify (by rw [hnode]; rfl), _, _, entry_of_lookup hr, hview, hon _, htransient _⟩
    cases m with
    | friend =>
      rw [mark, setFriend, hr] at hmark
      exact hset (fun e => { e with friend := true }) (fun _ => rfl) (fun _ => rfl) (fun _ => rfl)
        (Prod.mk.inj hmark).1.symm
    | pinned =>
      rw [mark, setPinned, hr] at hmark
      exact hset (fun e => { e with pinned := true }) (fun _ => rfl) (fun _ => rfl) (fun _ => rfl)
        (Prod.mk.inj hmark).1.symm

end Marks

/-- From the moment a peer was marked, along every run whose changes spare the mark, the peer stays in
`peerByID` with the mark, `CandidateNodes` offers it unless its list is full, and `SnapshotPeers`
contains it, if it was not held for a lookup only when it was marked. -/
theorem marked_peer_is_kept {cr : Crypto} {selfID nodeID : String} {m : Mark} {t t₁ t' : Table}
    (hbefore : Reach (change cr) (fun _ _ => True) (newRoutingTable cr selfID) t)
    (hmark : t.mark m nodeID = (t₁, true)) (hrun : Reach (change cr) (Spares (some m) nodeID) t₁ t') :
    ∃ e, t'.entry nodeID = some e ∧ m.on e.toPeerObservation = true ∧
      (∀ (sort : SliceSort) (order offlineOrder : List String) (limit : Int) (now : Time),
        order.Perm t'.peerByID.keys →
          (∃ n ∈ t'.candidateNodes sort limit now order offlineOrder, n.id = nodeID) ∨
            (t'.candidateNodes sort limit now order offlineOrder).length = candidateLimit limit) ∧
      ((∀ e, t.entry nodeID = some e → e.transient = false) →
        ∀ (sort : SliceSort) (order : List String), order.Perm t'.peerByID.keys →
          ∃ p ∈ t'.snapshotPeers cr sort order, p.node.id = nodeID ∧ m.on p = true) := by
  obtain ⟨h₁, e₀, e₁, he₀, he₁, hon₁, htransient₁⟩ := entry_of_mark (keyed_of_run hbefore) hmark
  -- the entry and the mark along the run
  have hstep : ∀ (s : Table) (c : Change) (s' : Table),
      (s.Keyed ∧ ∃ e, s.entry nodeID = some e ∧ KeepsMark (some m) e₁ e) → s.Spares (some m) nodeID c →
        s.change cr c = some s' → s'.Keyed ∧ ∃ e, s'.entry nodeID = some e ∧ KeepsMark (some m) e₁ e := by
    rintro s c s' ⟨hs, e, he, hkeeps⟩ hok hchange
    obtain ⟨e', he', hkeeps'⟩ := keeps_mark_of_spares hs hchange hok he hkeeps.1
    exact ⟨hs.change hchange, e', he', hkeeps'.1, fun ht => hkeeps'.2 (hkeeps.2 ht)⟩
  obtain ⟨h', e, he, hkeeps⟩ := Reach.invariant hstep hrun ⟨h₁, e₁, he₁, .refl hon₁⟩
  have hmarked : e.pinned = true ∨ e.friend = true := by
    cases m with
    | friend => exact .inr hkeeps.1
    | pinned => exact .inl hkeeps.1
  have hlisted : ∀ order : List String, order.Perm t'.peerByID.keys → nodeID ∈ order := by
    intro order horder
    obtain ⟨r, hr, -⟩ := entry_eq_some.1 he
    exact horder.mem_iff.2 (Dict.mem_keys_of_lookup hr)
  refine ⟨e, he, hkeeps.1, fun sort order offlineOrder limit now horder =>
    marked_mem_candidateNodes h' (hlisted order horder) he hmarked limit now offlineOrder,
    fun hlasting sort order horder => ?_⟩
  have hstays : e.transient = false := hkeeps.2 (htransient₁.trans (hlasting e₀ he₀))
  have hdurable : durable e = true := by
    rcases hmarked with hpinned | hfriend
    · simp [durable, hstays, hpinned]
    · simp [durable, hstays, hfriend]
  obtain ⟨p, hp, hsame⟩ : ∃ p ∈ t'.snapshotPeers cr sort order, p.unranked =
      e.toPeerObservation.unranked :=
    mem_snapshotPeers (hlisted order horder) he hdurable
  obtain ⟨r, hr, rfl⟩ := entry_eq_some.1 he
  refine ⟨p, hp, ?_, ?_⟩
  · exact (congrArg (fun q => q.node.id) hsame).trans (h' nodeID r hr).2
  · cases m with
    | friend => exact (congrArg PeerObservation.friend hsame).trans hkeeps.1
    | pinned => exact (congrArg PeerObservation.pinned hsame).trans hkeeps.1

/-- A table with one active peer. -/
def oneActive : Table := (newRoutingTable tableCrypto sampleSelf).addNode tableCrypto samplePeer 0

set_option maxRecDepth 4000 in
/-- An active peer that is made a friend stays one when some lookup discards it. -/
theorem marked_peer_is_kept_active :
    ∃ t₁, oneActive.mark .friend samplePeer.id = (t₁, true) ∧
      ∃ e, (t₁.discardCandidate samplePeer.id).entry samplePeer.id = some e ∧ e.friend = true := by
  have hadd : (newRoutingTable tableCrypto sampleSelf).step tableCrypto (.addNode samplePeer 0) =
      some oneActive := rfl
  have hmark : oneActive.mark .friend samplePeer.id = ((oneActive.mark .friend samplePeer.id).1, true) :=
    Prod.ext rfl (by decide)
  have hspares : (oneActive.mark .friend samplePeer.id).1.Spares (some .friend) samplePeer.id
      (.call (.discardCandidate samplePeer.id)) := fun _ => by decide
  obtain ⟨e, he, hon, -⟩ := marked_peer_is_kept (reach_of_step hadd) hmark (.single ⟨_, hspares, rfl⟩)
  exact ⟨_, hmark, e, he, hon⟩

set_option maxRecDepth 4000 in
/-- The friend is one no more when the mark is taken from it. -/
theorem keeps_mark_iff_unmarked :
    ¬ ∃ e, ((oneActive.mark .friend samplePeer.id).1.setFriend samplePeer.id false).1.entry
      samplePeer.id = some e ∧ Mark.holds (some .friend) e.toPeerObservation = true := by
  have hadd : (newRoutingTable tableCrypto sampleSelf).step tableCrypto (.addNode samplePeer 0) =
      some oneActive := rfl
  have hmark : oneActive.mark .friend samplePeer.id = (_, true) := Prod.ext rfl (by decide)
  obtain ⟨hkeyed, _, e, -, he, hon, -⟩ := entry_of_mark (keyed_of_run (reach_of_step hadd)) hmark
  have hchange : (oneActive.mark .friend samplePeer.id).1.change tableCrypto
    (.call (.setFriend samplePeer.id false)) = some _ := rfl
  exact fun hkept => (keeps_mark_iff (m := some .friend) hkeyed hchange he hon).1 hkept rfl rfl

/-- A peer misses three probes. -/
def missedThrice : List Op :=
  [.recordLivenessResult samplePeer.id 0 false, .recordLivenessResult samplePeer.id (5 * minute) false,
    .recordLivenessResult samplePeer.id (10 * minute) false]

set_option maxRecDepth 4000 in
theorem missedThrice_end :
    ((newRoutingTable tableCrypto sampleSelf).addCandidate tableCrypto samplePeer).map (fun t =>
      ((t.mark .friend samplePeer.id).2,
        (missedThrice.foldlM (Table.step tableCrypto) (t.mark .friend samplePeer.id).1).map
          fun t' => t'.peerByID.entries)) = some (true, some []) := by
  decide

/-- A friend that was added but never reached is forgotten at its third miss, and no snapshot contains
it any more. -/
theorem unreached_friend_is_forgotten :
    ∃ t t₁ t', (newRoutingTable tableCrypto sampleSelf).step tableCrypto
      (.addCandidate samplePeer) = some t ∧
      t.mark .friend samplePeer.id = (t₁, true) ∧
      missedThrice.foldlM (Table.step tableCrypto) t₁ = some t' ∧ t'.entry samplePeer.id = none ∧
      ∀ (sort : SliceSort) (order : List String), t'.snapshotPeers tableCrypto sort order = [] := by
  obtain ⟨t, hadd, hend⟩ := Option.map_eq_some_iff.1 missedThrice_end
  obtain ⟨hset, hmissed⟩ := Prod.mk.inj hend
  obtain ⟨t', hrun, hempty⟩ := Option.map_eq_some_iff.1 hmissed
  have hnone : ∀ nodeID, t'.entry nodeID = none := fun nodeID => by
    rw [entry, Dict.entries_eq_nil_iff.1 hempty]
    rfl
  refine ⟨t, _, t', hadd, Prod.ext rfl hset, hrun, hnone _, fun sort order => ?_⟩
  refine List.eq_nil_iff_forall_not_mem.2 fun p hp => ?_
  obtain ⟨nodeID, e, -, he, -⟩ := entry_of_mem_snapshotPeers hp
  rw [hnone] at he
  cases he

end Table

end Vx6.Dht
