import Vx6.Dht.TableIndex

/-!
# What the operations do to one peer

The table as its users see it: for every node ID the entry that `peerByID` holds, if there is one, and
whether the ID is in `offline`. `Touch` lists what each operation can do to this view of one ID, with
the circumstances under which it does so; `touch_step` shows that the operations do nothing else. The
statements about endpoints, marks, offline times and lookups are case distinctions over `Touch`.

The only assumption is `Keyed`: `peerByID` holds for an ID an entry of that ID. Every operation keeps
it, whatever else happens to the indexes.
-/

set_option autoImplicit false

namespace Vx6.Dht.Table

open Vx6.Go Vx6.Lib Vx6.Record

/-- The entry that `peerByID` holds for an ID. -/
def entry (t : Table) (nodeID : String) : Option BucketEntry := (t.peerByID.lookup nodeID).map t.heap

/-- A node ID is in `offline`. -/
def isOffline (t : Table) (nodeID : String) : Bool := (t.offline.lookup nodeID).isSome

/-- What the table says about one ID. -/
structure PeerView where
  entry : Option BucketEntry
  offline : Bool

/-- The view of an ID. -/
def view (t : Table) (nodeID : String) : PeerView := ⟨t.entry nodeID, t.isOffline nodeID⟩

/-- `peerByID` holds for an ID an entry of that ID. -/
def Keyed (t : Table) : Prop :=
  ∀ nodeID r, t.peerByID.lookup nodeID = some r → r < t.nextRef ∧ t.idOf r = nodeID

/-! ## Changes of the view -/

section Changes

variable {t : Table} {r : Ref} {nodeID : String}

theorem entry_eq_some {e : BucketEntry} :
    t.entry nodeID = some e ↔ ∃ r, t.peerByID.lookup nodeID = some r ∧ t.heap r = e :=
  Option.map_eq_some_iff

theorem entry_eq_none : t.entry nodeID = none ↔ t.peerByID.lookup nodeID = none :=
  Option.map_eq_none_iff

theorem entry_of_lookup (hr : t.peerByID.lookup nodeID = some r) : t.entry nodeID = some (t.heap r) := by
  rw [entry, hr]
  rfl

theorem Keyed.ne (h : t.Keyed) (hr : t.peerByID.lookup nodeID = some r) {nodeID' : String} {r' : Ref}
    (hr' : t.peerByID.lookup nodeID' = some r') (hne : nodeID' ≠ nodeID) : r' ≠ r := by
  rintro rfl
  exact hne ((h nodeID' r' hr').2.symm.trans (h nodeID r' hr).2)

theorem Keyed.modify (h : t.Keyed) {f : BucketEntry → BucketEntry}
    (hf : (f (t.heap r)).node.id = t.idOf r) : (t.modify r f).Keyed := by
  intro nodeID r' hr'
  rw [idOf_modify hf]
  exact h nodeID r' hr'

theorem view_modify (h : t.Keyed) (hr : t.peerByID.lookup nodeID = some r) (f : BucketEntry → BucketEntry)
    (nodeID' : String) : (t.modify r f).view nodeID' =
      if nodeID' = nodeID then ⟨some (f (t.heap r)), t.isOffline nodeID⟩ else t.view nodeID' := by
  split_ifs with he
  · subst he
    have hentry : (t.modify r f).entry nodeID' = some (f (t.heap r)) := by
      rw [entry_of_lookup (t := t.modify r f) hr, heap_modify]
    rw [view, hentry]
    rfl
  · have hentry : (t.modify r f).entry nodeID' = t.entry nodeID' := by
      show (t.peerByID.lookup nodeID').map (t.modify r f).heap = _
      cases hr' : t.peerByID.lookup nodeID' with
      | none => rw [entry, hr']; rfl
      | some r' =>
        rw [entry_of_lookup hr', Option.map_some]
        exact congrArg some (Function.update_of_ne (h.ne hr hr' he) _ _)
    rw [view, hentry]
    rfl

section Membership

variable {f : BucketEntry → BucketEntry} (hf : (f (t.heap r)).node.id = t.idOf r)
include hf

theorem inBuckets_modify : (t.modify r f).inBuckets nodeID = t.inBuckets nodeID := by
  rw [inBuckets, idOf_modify hf]
  rfl

theorem inNameBuckets_modify : (t.modify r f).inNameBuckets nodeID = t.inNameBuckets nodeID := by
  rw [inNameBuckets, idOf_modify hf]
  rfl

theorem inPending_modify : (t.modify r f).inPending nodeID = t.inPending nodeID := by
  rw [inPending, idOf_modify hf]
  rfl

end Membership

theorem Keyed.alloc (h : t.Keyed) (entry : BucketEntry) : (t.alloc entry.node.id entry).Keyed := by
  intro nodeID r hr
  rw [lookup_alloc] at hr
  split at hr
  · rename_i hn
    cases hr
    exact ⟨Nat.lt_succ_self _, by rw [idOf_alloc_new, hn]⟩
  · obtain ⟨hlt, hid⟩ := h nodeID r hr
    exact ⟨Nat.lt_succ_of_lt hlt, by rw [idOf_alloc hlt, hid]⟩

theorem view_alloc (h : t.Keyed) (e : BucketEntry) (nodeID : String) :
    (t.alloc e.node.id e).view nodeID =
      if nodeID = e.node.id then ⟨some e, t.isOffline e.node.id⟩ else t.view nodeID := by
  have hentry : (t.alloc e.node.id e).entry nodeID =
      if nodeID = e.node.id then some e else t.entry nodeID := by
    rw [entry, lookup_alloc]
    split_ifs with he
    · simp [alloc]
    · rw [entry]
      cases hr : t.peerByID.lookup nodeID with
      | none => rfl
      | some r =>
        simp only [Option.map_some, Option.some.injEq]
        exact Function.update_of_ne (Nat.ne_of_lt (h nodeID r hr).1) _ _
  rw [view, hentry]
  split_ifs with he
  · rw [he]
    rfl
  · rfl

theorem Keyed.deletePeer (h : t.Keyed) (nodeID : String) : (t.deletePeer nodeID).Keyed := by
  intro nodeID' r hr
  have hr : (t.peerByID.erase nodeID).lookup nodeID' = some r := hr
  rw [Dict.lookup_erase_eq] at hr
  split at hr
  · cases hr
  · exact h nodeID' r hr

theorem view_deletePeer (nodeID nodeID' : String) : (t.deletePeer nodeID).view nodeID' =
    if nodeID' = nodeID then ⟨none, t.isOffline nodeID⟩ else t.view nodeID' := by
  have hentry : (t.deletePeer nodeID).entry nodeID' =
      if nodeID' = nodeID then none else t.entry nodeID' := by
    show ((t.peerByID.erase nodeID).lookup nodeID').map t.heap = _
    rw [Dict.lookup_erase_eq]
    split_ifs <;> rfl
  rw [view, hentry]
  split_ifs with he
  · rw [he]
    rfl
  · rfl

theorem view_deleteOffline (nodeID nodeID' : String) : (t.deleteOffline nodeID).view nodeID' =
    if nodeID' = nodeID then ⟨t.entry nodeID', false⟩ else t.view nodeID' := by
  have hoff : (t.deleteOffline nodeID).isOffline nodeID' =
      if nodeID' = nodeID then false else t.isOffline nodeID' := by
    show ((t.offline.erase nodeID).lookup nodeID').isSome = _
    rw [Dict.lookup_erase_eq]
    split_ifs <;> rfl
  rw [view, hoff]
  split_ifs <;> rfl

theorem view_setOffline (nodeID nodeID' : String) (r : Ref) : (t.setOffline nodeID r).view nodeID' =
    if nodeID' = nodeID then ⟨t.entry nodeID', true⟩ else t.view nodeID' := by
  have hoff : (t.setOffline nodeID r).isOffline nodeID' =
      if nodeID' = nodeID then true else t.isOffline nodeID' := by
    show ((t.offline.insert nodeID r).lookup nodeID').isSome = _
    rw [Dict.lookup_insert_eq]
    split_ifs <;> rfl
  rw [view, hoff]
  split_ifs <;> rfl

theorem Keyed.pruneOffline (h : t.Keyed) (now : Time) : (t.pruneOffline now).Keyed := by
  intro nodeID r hr
  have hr : (t.peerByID.filter fun nodeID _ => !t.prunes now nodeID).lookup nodeID = some r := hr
  rw [Dict.lookup_filter, Option.filter_eq_some_iff] at hr
  exact h nodeID r hr.1

theorem view_pruneOffline (now : Time) (nodeID : String) : (t.pruneOffline now).view nodeID =
    if t.prunes now nodeID then ⟨none, false⟩ else t.view nodeID := by
  have hpeer : (t.pruneOffline now).peerByID.lookup nodeID =
      if t.prunes now nodeID then none else t.peerByID.lookup nodeID := by
    show (t.peerByID.filter fun nodeID _ => !t.prunes now nodeID).lookup nodeID = _
    rw [Dict.lookup_filter]
    cases t.peerByID.lookup nodeID <;> cases t.prunes now nodeID <;> simp [Option.filter]
  have hoff : (t.pruneOffline now).offline.lookup nodeID =
      if t.prunes now nodeID then none else t.offline.lookup nodeID := by
    show (t.offline.filter fun nodeID _ => !t.prunes now nodeID).lookup nodeID = _
    rw [Dict.lookup_filter]
    cases t.offline.lookup nodeID <;> cases t.prunes now nodeID <;> simp [Option.filter]
  rw [view, entry, isOffline, hpeer, hoff]
  split_ifs <;> rfl

end Changes

/-! ## What an operation can do -/

/-- The entry of a peer after `AddNode`. -/
def exchanged (cr : Crypto) (node : NodeInfo) (now : Time) : Option BucketEntry → BucketEntry
  | none => noteExchange cr now { node := node, probationUntil := now + peerProbationPeriod }
  | some e => noteExchange cr now (startProbation now { e with node := node })

/-- The entry of a peer that `AddCandidate` takes. A candidate that is refreshed stays one that is kept
for a lookup only. -/
def proposed (pending : Bool) (node : NodeInfo) : Option BucketEntry → BucketEntry
  | none => { node := node }
  | some e => { e with node := node, transient := e.transient && pending }

/-- `removePeerIfUnindexed` drops the peer. -/
def unindexed (t : Table) (nodeID : String) : Bool :=
  !t.isPinned nodeID && !t.inBuckets nodeID && !t.inNameBuckets nodeID && !t.isOffline nodeID &&
    !t.inPending nodeID

/-- `DiscardCandidate` drops the peer. -/
def discards (t : Table) (nodeID : String) : Bool :=
  t.inPending nodeID && (t.removePending nodeID).unindexed nodeID

/-- `SetPinned` with `false` drops the peer. -/
def unpins (t : Table) (nodeID : String) : Bool :=
  !t.inBuckets nodeID && !t.inNameBuckets nodeID && !t.isOffline nodeID && !t.inPending nodeID

/-- What an operation can do to the view of one ID. `RestoreCandidates` repeats `restoreCandidate`, for
which `view_restoreCandidate` says what it does. -/
inductive Touch (cr : Crypto) (t : Table) (nodeID : String) : Op → PeerView → PeerView → Prop where
  | same (op : Op) (v : PeerView) : Touch cr t nodeID op v v
  | addNode (node : NodeInfo) (now : Time) (v : PeerView) (hid : node.id = nodeID)
      (hok : t.acceptable node = true) :
      Touch cr t nodeID (.addNode node now) v ⟨some (exchanged cr node now v.entry), false⟩
  | promote (r : Ref) (now : Time) (v : PeerView) (hr : t.firstPending nodeID = some r)
      (hok : t.acceptable (t.node r) = true) :
      Touch cr t nodeID (.promoteCandidate nodeID now) v
        ⟨some (exchanged cr (t.node r) now v.entry), false⟩
  | update (node : NodeInfo) (now : Time) (e : BucketEntry) (offline : Bool) (hid : node.id = nodeID)
      (hnewer : endpointRecordNewer (endpointRecordFromNodeInfo node)
        (endpointRecordFromNodeInfo e.node) = true) (hok : t.acceptable node = true) :
      Touch cr t nodeID (.updateKnownNode node now) ⟨some e,
        offline⟩ ⟨some { e with node := node }, offline⟩
  | candidate (node : NodeInfo) (v : PeerView) (hid : node.id = nodeID) (htakes : t.takes node = true) :
      Touch cr t nodeID (.addCandidate node) v
        ⟨some (proposed (t.inPending nodeID) node v.entry), false⟩
  | lookup (node : NodeInfo) (offline : Bool) (hid : node.id = nodeID) (hok : t.acceptable node = true) :
      Touch cr t nodeID (.addLookupCandidate node) ⟨none, offline⟩
        ⟨some { node := node, transient := true }, offline⟩
  | discard (v : PeerView) (hdiscards : t.discards nodeID = true) :
      Touch cr t nodeID (.discardCandidate nodeID) v ⟨none, false⟩
  | failure (now : Time) (e : BucketEntry) (offline : Bool) :
      Touch cr t nodeID (.noteFailureAt nodeID now) ⟨some e, offline⟩
        ⟨some { e with lastFailure := now, failCount := incrementByte e.failCount }, offline⟩
  | probe (order : List String) (now : Time) (e : BucketEntry) (offline : Bool) :
      Touch cr t nodeID (.beginLivenessProbe order now) ⟨some e, offline⟩
        ⟨some (noteProbe now e), offline⟩
  | alive (now : Time) (e : BucketEntry) (offline : Bool) :
      Touch cr t nodeID (.recordLivenessResult nodeID now true) ⟨some e, offline⟩
        ⟨some (noteAlive now (noteProbe now e)), offline⟩
  | soon (now : Time) (e : BucketEntry) (offline : Bool) :
      Touch cr t nodeID (.recordLivenessResult nodeID now false) ⟨some e, offline⟩
        ⟨some (noteProbe now e), offline⟩
  | miss (now : Time) (e : BucketEntry) (offline : Bool) :
      Touch cr t nodeID (.recordLivenessResult nodeID now false) ⟨some e, offline⟩
        ⟨some (noteMiss now (noteProbe now e)), offline⟩
  | away (now : Time) (e : BucketEntry) (offline : Bool) :
      Touch cr t nodeID (.recordLivenessResult nodeID now false) ⟨some e, offline⟩
        ⟨some (noteOffline now (noteMiss now (noteProbe now e))), true⟩
  | forget (now : Time) (e : BucketEntry) (offline : Bool) (hforgets : t.forgets nodeID now = true) :
      Touch cr t nodeID (.recordLivenessResult nodeID now false) ⟨some e, offline⟩ ⟨none, offline⟩
  | use (now : Time) (rtt : Duration) (e : BucketEntry) (node : NodeInfo) (offline : Bool)
      (hnode : node = e.node ∨ node = withNameHash cr e.node) :
      Touch cr t nodeID (.recordUse nodeID now rtt) ⟨some e, offline⟩
        ⟨some { noteUse now rtt e with node := node }, offline⟩
  | pin (pinned : Bool) (e : BucketEntry) (offline : Bool) :
      Touch cr t nodeID (.setPinned nodeID pinned) ⟨some e, offline⟩
        ⟨some { e with pinned := pinned }, offline⟩
  | unpin (e : BucketEntry) (offline : Bool) (hunpins : t.unpins nodeID = true) :
      Touch cr t nodeID (.setPinned nodeID false) ⟨some e, offline⟩ ⟨none, false⟩
  | befriend (friend : Bool) (e : BucketEntry) (offline : Bool) :
      Touch cr t nodeID (.setFriend nodeID friend) ⟨some e, offline⟩
        ⟨some { e with friend := friend }, offline⟩
  | prune (now : Time) (v : PeerView) (hprunes : t.prunes now nodeID = true) :
      Touch cr t nodeID (.pruneOffline now) v ⟨none, false⟩

/-! ## The operations do nothing else -/

section Operations

variable {cr : Crypto} {t t' : Table} {op : Op} {nodeID : String} {r : Ref}

/-- An operation keeps the keys and touches every ID in one of the listed ways. -/
def Touches (cr : Crypto) (t : Table) (op : Op) (t' : Table) : Prop :=
  t'.Keyed ∧ ∀ nodeID, Touch cr t nodeID op (t.view nodeID) (t'.view nodeID)

/-- An operation on one ID. -/
theorem touches_one (nodeID : String) (w : PeerView) (hkeyed : t'.Keyed)
    (hview : ∀ nodeID', t'.view nodeID' = if nodeID' = nodeID then w else t.view nodeID')
    (htouch : Touch cr t nodeID op (t.view nodeID) w) : Touches cr t op t' := by
  refine ⟨hkeyed, fun nodeID' => ?_⟩
  rw [hview]
  split_ifs with he
  · subst he
    exact htouch
  · exact .same op _

/-- An operation that changes neither the entries nor `offline`. -/
theorem touches_none (hkeyed : t'.Keyed) (hview : ∀ nodeID, t'.view nodeID = t.view nodeID) :
    Touches cr t op t' := by
  refine ⟨hkeyed, fun nodeID => ?_⟩
  rw [hview]
  exact .same op _

theorem view_of_lookup (hr : t.peerByID.lookup nodeID = some r) :
    t.view nodeID = ⟨some (t.heap r), t.isOffline nodeID⟩ := by
  rw [view, entry_of_lookup hr]

/-- An operation that changes the entry of one ID. -/
theorem touches_modify (h : t.Keyed) (hr : t.peerByID.lookup nodeID = some r)
    {f : BucketEntry → BucketEntry} (hf : (f (t.heap r)).node.id = t.idOf r)
    (htouch : Touch cr t nodeID op ⟨some (t.heap r), t.isOffline nodeID⟩
      ⟨some (f (t.heap r)), t.isOffline nodeID⟩) : Touches cr t op (t.modify r f) := by
  refine touches_one _ _ (h.modify hf) (view_modify h hr f) ?_
  rw [view_of_lookup hr]
  exact htouch

/-- The peer of an entry answered. -/
theorem view_activate (cr : Crypto) (h : t.Keyed) (hr : t.peerByID.lookup nodeID = some r) (now : Time) :
    (t.activate cr r now).Keyed ∧ ∀ nodeID', (t.activate cr r now).view nodeID' =
      if nodeID' = nodeID then ⟨some (noteExchange cr now (t.heap r)), false⟩ else t.view nodeID' := by
  have hid := (h nodeID r hr).2
  have hkeyed : (t.deleteOffline (t.idOf r)).Keyed := h
  have hwelcome : (t.welcome cr r now).Keyed := hkeyed.modify rfl
  have hview : ∀ nodeID', (t.welcome cr r now).view nodeID' =
      if nodeID' = nodeID then ⟨some (noteExchange cr now (t.heap r)), false⟩ else t.view nodeID' := by
    intro nodeID'
    refine (view_modify (t := t.deleteOffline (t.idOf r)) hkeyed hr (noteExchange cr now) nodeID').trans ?_
    split_ifs with he
    · have hoff : (t.deleteOffline (t.idOf r)).isOffline nodeID = false := by
        have := congrArg PeerView.offline (view_deleteOffline (t := t) (t.idOf r) nodeID)
        rwa [if_pos hid.symm] at this
      rw [hoff]
      rfl
    · rw [view_deleteOffline, hid, if_neg he]
  unfold activate
  simp only
  split_ifs
  · exact ⟨hwelcome, hview⟩
  · exact ⟨hwelcome, hview⟩

theorem keyed_replaceNode (cr : Crypto) (h : t.Keyed) {node : NodeInfo}
    (hr : t.peerByID.lookup node.id = some r) :
    (t.replaceNode cr r node).Keyed ∧ ∀ nodeID', (t.replaceNode cr r node).view nodeID' =
      if nodeID' = node.id then ⟨some { t.heap r with node := node }, t.isOffline node.id⟩
      else t.view nodeID' := by
  have hid : node.id = t.idOf r := (h node.id r hr).2.symm
  unfold replaceNode
  split_ifs
  · have h' : (t.removeNamed node.id).Keyed := h
    exact ⟨h'.modify hid, view_modify h' hr _⟩
  · exact ⟨h.modify hid, view_modify h hr _⟩

/-- `AddNode` on a peer that it takes. -/
theorem view_addNode (cr : Crypto) (h : t.Keyed) {node : NodeInfo} (hok : t.acceptable node = true)
    (now : Time) : (t.addNode cr node now).Keyed ∧ ∀ nodeID', (t.addNode cr node now).view nodeID' =
      if nodeID' = node.id then ⟨some (exchanged cr node now (t.entry node.id)), false⟩
      else t.view nodeID' := by
  unfold addNode
  rw [if_pos hok]
  split
  · rename_i hnone
    have hnew := h.alloc { node := node, probationUntil := now + peerProbationPeriod }
    have hr : (t.alloc node.id
        { node := node, probationUntil := now + peerProbationPeriod }).peerByID.lookup node.id =
        some t.nextRef := by rw [lookup_alloc, if_pos rfl]
    obtain ⟨hkeyed, hview⟩ := view_activate cr hnew hr now
    refine ⟨hkeyed, fun nodeID' => (hview nodeID').trans ?_⟩
    split_ifs with he
    · rw [entry_eq_none.2 hnone]
      simp [alloc, exchanged]
    · exact (view_alloc h _ nodeID').trans (if_neg he)
  · rename_i r hr
    obtain ⟨hkeyed, hview⟩ := keyed_replaceNode cr h hr
    have hr' : (t.replaceNode cr r node).peerByID.lookup node.id = some r := by
      unfold replaceNode
      split_ifs <;> exact hr
    have hheap : (t.replaceNode cr r node).heap r = { t.heap r with node := node } := by
      have := congrArg PeerView.entry (hview node.id)
      rw [if_pos rfl, view, entry_of_lookup hr'] at this
      exact Option.some.inj this
    have hprobation := hkeyed.modify (r := r) (f := startProbation now) (by
      rw [startProbation_node]
      rfl)
    obtain ⟨hkeyed', hview'⟩ := view_activate cr hprobation hr' now
    refine ⟨hkeyed', fun nodeID' => (hview' nodeID').trans ?_⟩
    split_ifs with he
    · rw [entry_of_lookup hr, heap_modify, hheap]
      rfl
    · rw [view_modify hkeyed hr', if_neg he, hview, if_neg he]

theorem touches_addNode (cr : Crypto) (h : t.Keyed) (node : NodeInfo) (now : Time) :
    Touches cr t (.addNode node now) (t.addNode cr node now) := by
  by_cases hok : t.acceptable node = true
  · obtain ⟨hkeyed, hview⟩ := view_addNode cr h hok now
    exact touches_one _ _ hkeyed hview (.addNode node now (t.view node.id) rfl hok)
  · rw [addNode, if_neg hok]
    exact touches_none h fun _ => rfl

theorem touches_updateKnownNode (h : t.Keyed) (node : NodeInfo) (now : Time) :
    Touches cr t (.updateKnownNode node now) (t.updateKnownNode cr node now).1 := by
  unfold updateKnownNode
  split_ifs with hok
  · split
    · exact touches_none h fun _ => rfl
    · rename_i r hr
      split_ifs with hnewer
      · obtain ⟨hkeyed, hview⟩ := keyed_replaceNode cr h hr
        have htouch : Touch cr t node.id (.updateKnownNode node now) (t.view node.id)
            ⟨some { t.heap r with node := node }, t.isOffline node.id⟩ := by
          rw [view_of_lookup hr]
          exact .update node now (t.heap r) _ rfl hnewer (Bool.and_eq_true_iff.1 hok).1
        simp only
        split_ifs
        · exact touches_one _ _
            (show ((t.replaceNode cr r node).insertNamed cr r).Keyed from hkeyed) hview htouch
        · exact touches_one _ _ hkeyed hview htouch
      · exact touches_none h fun _ => rfl
  · exact touches_none h fun _ => rfl

/-- `AddCandidate` on a peer that it takes. -/
theorem view_addCandidate (h : t.Keyed) {node : NodeInfo} (htakes : t.takes node = true)
    (hadd : t.addCandidate cr node = some t') : t'.Keyed ∧ ∀ nodeID', t'.view nodeID' =
      if nodeID' = node.id then ⟨some (proposed (t.inPending node.id) node (t.entry node.id)), false⟩
      else t.view nodeID' := by
  -- the entry is set first, and then the ID leaves `offline`
  have hset : ∀ {s : Table} {e : BucketEntry} {offline : Bool}, (∀ nodeID', s.view nodeID' =
      if nodeID' = node.id then ⟨some e, offline⟩ else t.view nodeID') → ∀ nodeID',
        (s.deleteOffline node.id).view nodeID' =
          if nodeID' = node.id then ⟨some e, false⟩ else t.view nodeID' := by
    intro s e offline hview nodeID'
    rw [view_deleteOffline]
    have := hview nodeID'
    split_ifs at this ⊢ with he
    · exact congrArg (PeerView.mk · false) (congrArg PeerView.entry this)
    · exact this
  rcases addCandidate_cases hadd with ⟨hnot, -⟩ | ⟨-, hbuckets, hnames, i, hi, hcase⟩
  · rw [htakes] at hnot
    cases hnot
  rcases hcase with ⟨r, hr, hpending, rfl⟩ | ⟨r, hr, hpending, -, rfl⟩ | ⟨hnone, -, rfl⟩
  · have hid : node.id = t.idOf r := (h node.id r hr).2.symm
    have hkeyed : (t.removePending node.id).Keyed := h
    rw [entry_of_lookup hr, hpending, proposed, Bool.and_true]
    exact ⟨hkeyed.modify (r := r) (f := fun e => { e with node := node }) hid,
      hset (view_modify hkeyed hr fun e => { e with node := node })⟩
  · have hid : node.id = t.idOf r := (h node.id r hr).2.symm
    rw [entry_of_lookup hr, hpending, proposed, Bool.and_false]
    exact ⟨h.modify (r := r) (f := fun e => { e with node := node, transient := false }) hid,
      hset (view_modify h hr fun e => { e with node := node, transient := false })⟩
  · rw [entry_eq_none.2 hnone, proposed]
    exact ⟨h.alloc { node := node }, hset (view_alloc h { node := node })⟩

theorem addCandidate_idle {node : NodeInfo} (hnot : t.takes node = false)
    (hadd : t.addCandidate cr node = some t') : t' = t := by
  rcases addCandidate_cases hadd with ⟨-, hsame⟩ | ⟨htakes, -⟩
  · exact hsame
  · rw [hnot] at htakes
    cases htakes

theorem touches_addCandidate (h : t.Keyed) {node : NodeInfo} (hadd : t.addCandidate cr node = some t') :
    Touches cr t (.addCandidate node) t' := by
  by_cases htakes : t.takes node = true
  · obtain ⟨hkeyed, hview⟩ := view_addCandidate h htakes hadd
    exact touches_one _ _ hkeyed hview (.candidate node (t.view node.id) rfl htakes)
  · rw [addCandidate_idle (Bool.eq_false_iff.2 htakes) hadd]
    exact touches_none h fun _ => rfl

theorem touches_addLookupCandidate (h : t.Keyed) {node : NodeInfo} {b : Bool}
    (hadd : t.addLookupCandidate cr node = some (t', b)) : Touches cr t (.addLookupCandidate node) t' := by
  by_cases hok : t.acceptable node = true
  swap
  · rw [addLookupCandidate, if_neg hok] at hadd
    cases hadd
    exact touches_none h fun _ => rfl
  rcases addLookupCandidate_cases hadd with ⟨-, rfl⟩ | ⟨-, hnone, -, i, hi, rfl⟩
  · exact touches_none h fun _ => rfl
  · refine touches_one _ _ (show (t.alloc node.id { node := node, transient := true }).Keyed from
      h.alloc { node := node, transient := true }) (view_alloc h { node := node, transient := true }) ?_
    rw [view, entry_eq_none.2 hnone]
    exact .lookup node _ rfl hok

theorem idOf_firstPending (hr : t.firstPending nodeID = some r) : t.idOf r = nodeID := by
  have hfound := List.find?_some hr
  simpa using hfound

theorem touches_promoteCandidate (h : t.Keyed) (nodeID : String) (now : Time) :
    Touches cr t (.promoteCandidate nodeID now) (t.promoteCandidate cr nodeID now) := by
  unfold promoteCandidate
  split
  · exact touches_none h fun _ => rfl
  · rename_i r hr
    have hkeyed : (t.removePending nodeID).Keyed := h
    simp only
    split_ifs
    · obtain ⟨hkeyed', htouch⟩ := touches_addNode cr hkeyed (t.node r) now
      refine ⟨hkeyed', fun nodeID' => ?_⟩
      have hother := htouch nodeID'
      -- the peer of the candidate is added as it is
      generalize ((t.removePending nodeID).addNode cr (t.node r) now).view nodeID' = w at hother ⊢
      have hsame : (t.removePending nodeID).view nodeID' = t.view nodeID' := rfl
      rw [hsame] at hother
      cases hother with
      | same => exact .same _ _
      | addNode _ _ _ hid hok =>
        have hid : t.idOf r = nodeID' := hid
        rw [idOf_firstPending hr] at hid
        subst hid
        exact .promote r now _ hr hok
    · exact touches_none hkeyed fun _ => rfl

theorem removePeerIfUnindexed_eq (t : Table) (nodeID : String) :
    t.removePeerIfUnindexed nodeID = if t.unindexed nodeID then t.deletePeer nodeID else t := by
  unfold removePeerIfUnindexed unindexed isOffline
  cases t.isPinned nodeID <;> cases t.inBuckets nodeID <;> cases t.inNameBuckets nodeID <;>
    cases (t.offline.lookup nodeID).isSome <;> cases t.inPending nodeID <;> rfl

theorem isOffline_of_unindexed (h : t.unindexed nodeID = true) : t.isOffline nodeID = false := by
  unfold unindexed at h
  cases hoff : t.isOffline nodeID with
  | false => rfl
  | true => simp [hoff] at h

theorem Keyed.removePeerIfUnindexed (h : t.Keyed) (nodeID : String) :
    (t.removePeerIfUnindexed nodeID).Keyed := by
  rw [removePeerIfUnindexed_eq]
  split_ifs
  · exact h.deletePeer nodeID
  · exact h

theorem view_removePeerIfUnindexed (t : Table) (nodeID nodeID' : String) :
    (t.removePeerIfUnindexed nodeID).view nodeID' =
      if nodeID' = nodeID ∧ t.unindexed nodeID = true then ⟨none, false⟩ else t.view nodeID' := by
  rw [removePeerIfUnindexed_eq]
  by_cases hout : t.unindexed nodeID = true
  · simp only [hout, if_true, and_true]
    rw [view_deletePeer, isOffline_of_unindexed hout]
  · simp only [hout, Bool.false_eq_true, if_false, and_false]

theorem view_discardCandidate (t : Table) (nodeID nodeID' : String) :
    (t.discardCandidate nodeID).view nodeID' =
      if nodeID' = nodeID ∧ t.discards nodeID = true then ⟨none, false⟩ else t.view nodeID' := by
  unfold discardCandidate discards
  cases t.inPending nodeID with
  | true => exact view_removePeerIfUnindexed (t.removePending nodeID) nodeID nodeID'
  | false => simp

theorem touches_discardCandidate (h : t.Keyed) (nodeID : String) :
    Touches cr t (.discardCandidate nodeID) (t.discardCandidate nodeID) := by
  have hkeyed : (t.discardCandidate nodeID).Keyed := by
    unfold discardCandidate
    split_ifs
    · exact Keyed.removePeerIfUnindexed (t := t.removePending nodeID) h nodeID
    · exact h
  refine ⟨hkeyed, fun nodeID' => ?_⟩
  rw [view_discardCandidate]
  split_ifs with hout
  · obtain ⟨rfl, hdiscards⟩ := hout
    exact .discard _ hdiscards
  · exact .same _ _

theorem touches_noteFailureAt (h : t.Keyed) (nodeID : String) (now : Time) :
    Touches cr t (.noteFailureAt nodeID now) (t.noteFailureAt nodeID now) := by
  unfold noteFailureAt
  split
  · exact touches_none h fun _ => rfl
  · rename_i r hr
    split_ifs
    · exact touches_none h fun _ => rfl
    · exact touches_modify h hr rfl (.failure now _ _)

theorem lookup_dueForProbe {order : List String} {now : Time} (hdue : t.dueForProbe order now = some r) :
    ∃ nodeID, t.peerByID.lookup nodeID = some r := by
  -- the loop selects entries of the list it runs over
  revert r
  unfold dueForProbe
  refine List.foldlRecOn
    (motive := fun selected => ∀ {r}, selected = some r → ∃ nodeID, t.peerByID.lookup nodeID = some r)
    _ _ (fun hr => by cases hr) fun selected hselected a ha r hr => ?_
  obtain ⟨nodeID, -, hlookup⟩ := List.mem_filterMap.1 ha
  split_ifs at hr
  · exact hselected hr
  · cases selected with
    | none =>
      cases hr
      exact ⟨nodeID, hlookup⟩
    | some s =>
      simp only at hr
      split_ifs at hr
      · cases hr
        exact ⟨nodeID, hlookup⟩
      · exact hselected hr

theorem touches_beginLivenessProbe (h : t.Keyed) (order : List String) (now : Time) :
    Touches cr t (.beginLivenessProbe order now) (t.beginLivenessProbe order now).1 := by
  unfold beginLivenessProbe
  split
  · exact touches_none h fun _ => rfl
  · rename_i r hdue
    obtain ⟨nodeID, hr⟩ := lookup_dueForProbe hdue
    exact touches_modify h hr rfl (.probe order now _ _)

theorem touches_setFriend (h : t.Keyed) (nodeID : String) (friend : Bool) :
    Touches cr t (.setFriend nodeID friend) (t.setFriend nodeID friend).1 := by
  unfold setFriend
  split
  · exact touches_none h fun _ => rfl
  · rename_i r hr
    exact touches_modify h hr (f := fun e => { e with friend := friend }) rfl (.befriend friend _ _)

/-- `SetPinned` with `false` on a known peer. -/
theorem setPinned_false (hr : t.peerByID.lookup nodeID = some r) :
    (t.setPinned nodeID false).1 =
      if t.unpins nodeID then (t.modify r fun e => { e with pinned := false }).deletePeer nodeID
      else t.modify r fun e => { e with pinned := false } := by
  -- the entry is not pinned any more, so only the indexes count
  have hpin : (t.modify r fun e => { e with pinned := false }).isPinned nodeID = false := by
    have hr' : (t.modify r fun e => { e with pinned := false }).peerByID.lookup nodeID = some r := hr
    rw [isPinned, hr']
    simp only [heap_modify]
  have hout : (t.modify r fun e => { e with pinned := false }).unindexed nodeID = t.unpins nodeID := by
    rw [unindexed, unpins, hpin, inBuckets_modify rfl, inNameBuckets_modify rfl, inPending_modify rfl]
    rfl
  rw [setPinned, hr]
  exact (removePeerIfUnindexed_eq _ nodeID).trans (by rw [hout])

theorem view_unpin (h : t.Keyed) (hr : t.peerByID.lookup nodeID = some r) :
    (t.setPinned nodeID false).1.Keyed ∧ ∀ nodeID', (t.setPinned nodeID false).1.view nodeID' =
      if nodeID' = nodeID then
        if t.unpins nodeID then ⟨none, false⟩
        else ⟨some { t.heap r with pinned := false }, t.isOffline nodeID⟩
      else t.view nodeID' := by
  have hkeyed : (t.modify r fun e => { e with pinned := false }).Keyed := h.modify rfl
  rw [setPinned_false hr]
  split_ifs with hunpins
  · have hoff : (t.modify r fun e => { e with pinned := false }).isOffline nodeID = false := by
      have hunpins' := hunpins
      simp only [unpins, Bool.and_eq_true, Bool.not_eq_true'] at hunpins'
      exact hunpins'.1.2
    refine ⟨hkeyed.deletePeer nodeID, fun nodeID' => ?_⟩
    rw [view_deletePeer, hoff, view_modify h hr]
    split_ifs <;> rfl
  · exact ⟨hkeyed, view_modify h hr _⟩

theorem touches_setPinned (h : t.Keyed) (nodeID : String) (pinned : Bool) :
    Touches cr t (.setPinned nodeID pinned) (t.setPinned nodeID pinned).1 := by
  cases hr : t.peerByID.lookup nodeID with
  | none =>
    rw [setPinned, hr]
    exact touches_none h fun _ => rfl
  | some r =>
    cases pinned with
    | true =>
      rw [setPinned, hr]
      exact touches_modify h hr (f := fun e => { e with pinned := true }) rfl (.pin true _ _)
    | false =>
      obtain ⟨hkeyed, hview⟩ := view_unpin h hr
      refine touches_one _ _ hkeyed hview ?_
      rw [view_of_lookup hr]
      split_ifs with hunpins
      · exact .unpin _ _ hunpins
      · exact .pin false _ _

theorem touches_pruneOffline (h : t.Keyed) (now : Time) :
    Touches cr t (.pruneOffline now) (t.pruneOffline now) := by
  refine ⟨h.pruneOffline now, fun nodeID => ?_⟩
  rw [view_pruneOffline]
  split_ifs with hprunes
  · exact .prune now _ hprunes
  · exact .same _ _

theorem touches_setSelfNameHash (h : t.Keyed) (hash : String) :
    Touches cr t (.setSelfNameHash hash) (t.setSelfNameHash cr hash) := by
  -- the loop puts the entries back into `NameBuckets` and changes nothing else
  have hloop : (t.setSelfNameHash cr hash).Keyed ∧
      ∀ nodeID, (t.setSelfNameHash cr hash).view nodeID = t.view nodeID := by
    unfold setSelfNameHash
    exact List.foldlRecOn (motive := fun s : Table => s.Keyed ∧ ∀ nodeID, s.view nodeID = t.view nodeID)
      _ _ ⟨h, fun _ => rfl⟩ fun s hs r _ => hs
  exact touches_none hloop.1 hloop.2

theorem touches_recordUse (h : t.Keyed) (nodeID : String) (now : Time) (rtt : Duration) :
    Touches cr t (.recordUse nodeID now rtt) (t.recordUse cr nodeID now rtt) := by
  unfold recordUse
  split
  · exact touches_none h fun _ => rfl
  · rename_i r hr
    have huse : (t.modify r (noteUse now rtt)).Keyed := h.modify rfl
    have hview := view_modify h hr (noteUse now rtt)
    simp only
    split_ifs
    · have hheap : (t.modify r (noteUse now rtt)).heap r = noteUse now rtt (t.heap r) := heap_modify
      have hnamed := view_modify huse hr
        fun e => { e with node := withNameHash cr ((t.modify r (noteUse now rtt)).heap r).node }
      refine touches_one nodeID
        ⟨some { noteUse now rtt (t.heap r) with node := withNameHash cr (t.heap r).node },
          t.isOffline nodeID⟩
        (huse.modify (f := fun e => { e with node := withNameHash cr _ }) rfl) (fun nodeID' => ?_) ?_
      · refine (hnamed nodeID').trans ?_
        rw [hheap, hview]
        split_ifs
        · rfl
        · rfl
      · rw [view_of_lookup hr]
        exact .use now rtt _ _ _ (.inr rfl)
    · refine touches_one _ _ huse hview ?_
      rw [view_of_lookup hr]
      exact .use now rtt _ _ _ (.inl rfl)

/-- The last part of `RecordLivenessResult` sets the peer aside, or forgets it. -/
theorem view_takeOffline (h : t.Keyed) (hr : t.peerByID.lookup nodeID = some r) (now : Time) :
    (t.takeOffline r nodeID now).1.Keyed ∧
      ((∀ nodeID', (t.takeOffline r nodeID now).1.view nodeID' =
          if nodeID' = nodeID then ⟨some (noteOffline now (t.heap r)), true⟩ else t.view nodeID') ∨
        (t.inBuckets nodeID = false ∧ t.inNameBuckets nodeID = false ∧
          ¬ (0 < (t.heap r).successCount ∨ (t.heap r).pinned = true) ∧
            ∀ nodeID', (t.takeOffline r nodeID now).1.view nodeID' =
              if nodeID' = nodeID then ⟨none, t.isOffline nodeID⟩ else t.view nodeID')) := by
  have haway : ∀ {s : Table}, s.Keyed → s.peerByID.lookup nodeID = some r → s.heap r = t.heap r →
      (∀ nodeID', s.view nodeID' = t.view nodeID') →
        ((s.modify r (noteOffline now)).setOffline nodeID r).Keyed ∧
          ∀ nodeID', ((s.modify r (noteOffline now)).setOffline nodeID r).view nodeID' =
            if nodeID' = nodeID then ⟨some (noteOffline now (t.heap r)), true⟩ else t.view nodeID' := by
    intro s hs hsr hheap hsame
    refine ⟨hs.modify rfl, fun nodeID' => ?_⟩
    have hview := view_modify hs hsr (noteOffline now) nodeID'
    rw [view_setOffline]
    split_ifs at hview ⊢ with he
    · rw [← hheap]
      exact congrArg (PeerView.mk · true) (congrArg PeerView.entry hview)
    · rw [hview, hsame]
  unfold takeOffline
  split_ifs with hin
  · obtain ⟨hkeyed, hview⟩ := haway (s := (t.removeActive nodeID).removeNamed nodeID) h hr rfl fun _ => rfl
    -- the peer is in `offline` now, so it is not dropped
    have hkept : ∀ s : Table, s.isOffline nodeID = true → s.removePeerIfUnindexed nodeID = s := by
      intro s hoff
      unfold removePeerIfUnindexed
      have hoff : (s.offline.lookup nodeID).isSome = true := hoff
      split_ifs <;> rfl
    rw [hkept _ (by
      have := congrArg PeerView.offline (hview nodeID)
      rwa [if_pos rfl] at this)]
    exact ⟨hkeyed, .inl hview⟩
  · rw [Bool.or_eq_true, not_or, Bool.not_eq_true, Bool.not_eq_true] at hin
    simp only
    split_ifs with hknown
    · obtain ⟨hkeyed, hview⟩ := haway (s := t.removePending nodeID) h hr rfl fun _ => rfl
      exact ⟨hkeyed, .inl hview⟩
    · have hkeyed : (t.removePending nodeID).Keyed := h
      rw [Bool.or_eq_true, decide_eq_true_eq] at hknown
      exact ⟨hkeyed.deletePeer nodeID,
        .inr ⟨hin.1, hin.2, hknown, view_deletePeer (t := t.removePending nodeID) nodeID⟩⟩

theorem touches_recordLivenessResult (h : t.Keyed) (nodeID : String) (now : Time) (alive : Bool) :
    Touches cr t (.recordLivenessResult nodeID now alive) (t.recordLivenessResult nodeID now alive).1 := by
  unfold recordLivenessResult
  split
  · exact touches_none h fun _ => rfl
  · rename_i r hr
    have hprobe : (t.modify r (noteProbe now)).Keyed := h.modify rfl
    have hheap : (t.modify r (noteProbe now)).heap r = noteProbe now (t.heap r) := heap_modify
    have hview := view_modify h hr (noteProbe now)
    -- a second change of the same entry
    have hnext : ∀ f : BucketEntry → BucketEntry, ∀ nodeID',
        ((t.modify r (noteProbe now)).modify r f).view nodeID' =
          if nodeID' = nodeID then ⟨some (f (noteProbe now (t.heap r))), t.isOffline nodeID⟩
          else t.view nodeID' := by
      intro f nodeID'
      rw [view_modify hprobe hr, hheap, hview]
      split_ifs <;> rfl
    simp only
    cases alive with
    | true =>
      refine touches_one _ _ (hprobe.modify (r := r) (f := noteAlive now) rfl) (hnext _) ?_
      rw [view_of_lookup hr]
      exact .alive now _ _
    | false =>
      simp only [Bool.false_eq_true, if_false]
      split_ifs with hsoon hmisses
      · refine touches_one _ _ hprobe hview ?_
        rw [view_of_lookup hr]
        exact .soon now _ _
      · refine touches_one _ _ (hprobe.modify (r := r) (f := noteMiss now) rfl) (hnext _) ?_
        rw [view_of_lookup hr]
        exact .miss now _ _
      · have hmiss : ((t.modify r (noteProbe now)).modify r (noteMiss now)).Keyed := hprobe.modify rfl
        have hheap' : ((t.modify r (noteProbe now)).modify r (noteMiss now)).heap r =
            noteMiss now (noteProbe now (t.heap r)) := heap_modify.trans (congrArg _ hheap)
        obtain ⟨hkeyed, haway | ⟨hbuckets, hnames, hgone, hdropped⟩⟩ := view_takeOffline hmiss hr now
        · refine touches_one nodeID
            ⟨some (noteOffline now (noteMiss now (noteProbe now (t.heap r)))), true⟩
            hkeyed (fun nodeID' => ?_) ?_
          · rw [haway, hheap', hnext]
            split_ifs <;> rfl
          · rw [view_of_lookup hr]
            exact .away now _ _
        · refine touches_one nodeID ⟨none, t.isOffline nodeID⟩ hkeyed (fun nodeID' => ?_) ?_
          · rw [hdropped, hnext]
            split_ifs <;> rfl
          · rw [view_of_lookup hr]
            rw [hheap'] at hgone hmisses
            rw [hheap] at hsoon
            refine .forget now _ _ (forgets_of hr (Bool.eq_false_iff.2 hsoon) hmisses ?_ ?_ hgone)
            · rwa [inBuckets_modify rfl, inBuckets_modify rfl] at hbuckets
            · rwa [inNameBuckets_modify rfl, inNameBuckets_modify rfl] at hnames

/-- A peer that `RecordLivenessResult` forgets is gone from `peerByID`. -/
theorem view_of_forgets {now : Time} (hforgets : t.forgets nodeID now = true) :
    (t.recordLivenessResult nodeID now false).1.view nodeID = ⟨none, t.isOffline nodeID⟩ := by
  unfold forgets at hforgets
  cases hr : t.peerByID.lookup nodeID with
  | none =>
    rw [hr] at hforgets
    cases hforgets
  | some r =>
    rw [hr] at hforgets
    simp only [Bool.and_eq_true, Bool.not_eq_true', decide_eq_false_iff_not,
      Bool.or_eq_false_iff] at hforgets
    obtain ⟨⟨⟨hsoon, hmisses⟩, hbuckets, hnames⟩, hcount, hpinned⟩ := hforgets
    have hheap : (t.modify r (noteProbe now)).heap r = noteProbe now (t.heap r) := heap_modify
    have hheap' : ((t.modify r (noteProbe now)).modify r (noteMiss now)).heap r =
        noteMiss now (noteProbe now (t.heap r)) := heap_modify.trans (congrArg _ hheap)
    have hsoon' : ¬ tooSoon now ((t.modify r (noteProbe now)).heap r) = true := by
      rw [hheap]
      exact Bool.eq_false_iff.1 hsoon
    have hmisses' : ¬ (((t.modify r (noteProbe now)).modify r (noteMiss now)).heap r).probeMisses <
        staleFailureThreshold := by
      rw [hheap']
      exact hmisses
    rw [recordLivenessResult, hr]
    simp only [Bool.false_eq_true, if_false, if_neg hsoon', if_neg hmisses', takeOffline]
    rw [inBuckets_modify rfl, inBuckets_modify rfl, inNameBuckets_modify rfl,
      inNameBuckets_modify rfl, hbuckets,
      hnames]
    set s := (t.modify r (noteProbe now)).modify r (noteMiss now)
    have hknown : (decide (0 < ((s.removePending nodeID).heap r).successCount) ||
        ((s.removePending nodeID).heap r).pinned) = false := by
      rw [show (s.removePending nodeID).heap r = noteMiss now (noteProbe now (t.heap r)) from hheap',
        Bool.or_eq_false_iff, decide_eq_false_iff_not]
      exact ⟨hcount, hpinned⟩
    rw [hknown]
    exact (view_deletePeer (t := s.removePending nodeID) nodeID nodeID).trans (if_pos rfl)

/-- A peer that answers a probe. -/
theorem view_of_alive (h : t.Keyed) (hr : t.peerByID.lookup nodeID = some r) (now : Time) :
    (t.recordLivenessResult nodeID now true).1.view nodeID =
      ⟨some (noteAlive now (noteProbe now (t.heap r))), t.isOffline nodeID⟩ := by
  have hprobe : (t.modify r (noteProbe now)).Keyed := h.modify rfl
  have hheap : (t.modify r (noteProbe now)).heap r = noteProbe now (t.heap r) := heap_modify
  rw [recordLivenessResult, hr]
  refine (view_modify hprobe hr (noteAlive now) nodeID).trans ((if_pos rfl).trans ?_)
  rw [hheap]
  rfl

/-- What the table says about a peer after `AddCandidate`. -/
def offered (t : Table) (node : NodeInfo) : PeerView :=
  if t.takes node then ⟨some (proposed (t.inPending node.id) node (t.entry node.id)), false⟩
  else t.view node.id

/-- What the table says about a restored peer: its entry, if it has one, takes what is remembered. -/
def PeerView.restored (peer : PeerObservation) (v : PeerView) : PeerView :=
  match v.entry with
  | none => v
  | some e => ⟨some (remember peer e), if isZero peer.offlineSince then v.offline else true⟩

theorem view_offered (h : t.Keyed) {node : NodeInfo} (hadd : t.addCandidate cr node = some t') :
    t'.Keyed ∧ ∀ nodeID', t'.view nodeID' = if nodeID' =
      node.id then t.offered node else t.view nodeID' := by
  unfold offered
  split_ifs with htakes
  · exact view_addCandidate h htakes hadd
  · rw [addCandidate_idle (Bool.eq_false_iff.2 htakes) hadd]
    refine ⟨h, fun nodeID' => ?_⟩
    split_ifs with he
    · rw [he]
    · rfl

/-- A restored peer is offered as a candidate and then takes what is remembered of it. -/
theorem view_restoreCandidate (h : t.Keyed) {peer : PeerObservation} {now : Time}
    (hold : tooOld peer now = false) (hrestore : t.restoreCandidate cr peer now = some t') :
    t'.Keyed ∧ ∀ nodeID', t'.view nodeID' =
      if nodeID' = peer.node.id then (t.offered peer.node).restored peer else t.view nodeID' := by
  unfold restoreCandidate at hrestore
  rw [hold, if_neg Bool.false_ne_true] at hrestore
  simp only [Option.bind_eq_bind, Option.bind_eq_some_iff] at hrestore
  obtain ⟨t₁, hadd, hrestore⟩ := hrestore
  obtain ⟨h₁, hview₁⟩ := view_offered h hadd
  have hthis : t₁.view peer.node.id = t.offered peer.node := by rw [hview₁, if_pos rfl]
  split at hrestore
  · rename_i hnone
    have hsame : t₁ = t' := Option.some.inj hrestore
    subst t'
    refine ⟨h₁, fun nodeID' => ?_⟩
    rw [← hthis, PeerView.restored, show (t₁.view peer.node.id).entry =
      none from entry_eq_none.2 hnone, hthis]
    exact hview₁ nodeID'
  rename_i r hr
  have hremember : (t₁.modify r (remember peer)).Keyed := h₁.modify rfl
  have hview := view_modify h₁ hr (remember peer)
  rw [view_of_lookup (t := t₁) hr] at hthis
  rw [← hthis]
  split at hrestore
  · rename_i hzero
    cases hrestore
    refine ⟨hremember, fun nodeID' => ?_⟩
    rw [hview, hview₁]
    split_ifs with he
    · simp only [PeerView.restored, hzero, if_true]
    · rfl
  · rename_i hzero
    cases hrestore
    refine ⟨hremember, fun nodeID' => ?_⟩
    rw [view_setOffline]
    have hsame : ∀ nodeID', ((t₁.modify r (remember peer)).removePending peer.node.id).view nodeID' =
        (t₁.modify r (remember peer)).view nodeID' := fun _ => rfl
    split_ifs with he
    · subst he
      have hentry := congrArg PeerView.entry (hview peer.node.id)
      rw [if_pos rfl] at hentry
      simp only [PeerView.restored, hzero, Bool.false_eq_true, if_false]
      exact congrArg (PeerView.mk · true) hentry
    · rw [hsame, hview, if_neg he, hview₁, if_neg he]

/-- A peer that is too old is skipped. -/
theorem restoreCandidate_skip {peer : PeerObservation} {now : Time} (hold : tooOld peer now = true)
    (hrestore : t.restoreCandidate cr peer now = some t') : t' = t := by
  unfold restoreCandidate at hrestore
  rw [if_pos hold] at hrestore
  exact (Option.some.inj hrestore).symm

theorem Keyed.restoreCandidate (h : t.Keyed) {peer : PeerObservation} {now : Time}
    (hrestore : t.restoreCandidate cr peer now = some t') : t'.Keyed := by
  by_cases hold : tooOld peer now = true
  · rw [restoreCandidate_skip hold hrestore]
    exact h
  · exact (view_restoreCandidate h (Bool.eq_false_iff.2 hold) hrestore).1

/-- The operations other than `RestoreCandidates` touch every ID in one of the listed ways. -/
theorem touches_step (h : t.Keyed) (hstep : t.step cr op = some t')
    (hop : ∀ peers now, op ≠ .restoreCandidates peers now) : Touches cr t op t' := by
  cases op with
  | addNode node now =>
    cases hstep
    exact touches_addNode cr h node now
  | updateKnownNode node now =>
    cases hstep
    exact touches_updateKnownNode h node now
  | addCandidate node => exact touches_addCandidate h hstep
  | addLookupCandidate node =>
    obtain ⟨⟨t₁, b⟩, hadd, rfl⟩ := Option.map_eq_some_iff.1 hstep
    exact touches_addLookupCandidate h hadd
  | restoreCandidates peers now => exact absurd rfl (hop peers now)
  | promoteCandidate nodeID now =>
    cases hstep
    exact touches_promoteCandidate h nodeID now
  | discardCandidate nodeID =>
    cases hstep
    exact touches_discardCandidate h nodeID
  | noteFailureAt nodeID now =>
    cases hstep
    exact touches_noteFailureAt h nodeID now
  | beginLivenessProbe order now =>
    cases hstep
    exact touches_beginLivenessProbe h order now
  | recordLivenessResult nodeID now alive =>
    cases hstep
    exact touches_recordLivenessResult h nodeID now alive
  | recordUse nodeID now rtt =>
    cases hstep
    exact touches_recordUse h nodeID now rtt
  | setPinned nodeID pinned =>
    cases hstep
    exact touches_setPinned h nodeID pinned
  | setFriend nodeID friend =>
    cases hstep
    exact touches_setFriend h nodeID friend
  | setSelfNameHash hash =>
    cases hstep
    exact touches_setSelfNameHash h hash
  | pruneOffline now =>
    cases hstep
    exact touches_pruneOffline h now

theorem Keyed.step (h : t.Keyed) (hstep : t.step cr op = some t') : t'.Keyed := by
  by_cases hop : ∃ peers now, op = .restoreCandidates peers now
  · obtain ⟨peers, now, rfl⟩ := hop
    exact restoreCandidates_induction (motive := Keyed) hstep h
      fun t peer t' ht hpeer => ht.restoreCandidate hpeer
  · refine (touches_step h hstep fun peers now he => hop ⟨peers, now, he⟩).1

theorem keyed_new (cr : Crypto) (selfID : String) : (newRoutingTable cr selfID).Keyed := by
  intro nodeID r hr
  rw [newRoutingTable, Dict.lookup_empty_eq] at hr
  cases hr

theorem Queued.toKeyed (h : t.Queued cr) : t.Keyed := h.keyed

end Operations

/-! ## Changes -/

/-- One change of the table: a call, or one turn of the loop of `RestoreCandidates`, which takes the lock
anew for every peer. -/
inductive Change where
  | call (op : Op)
  | restored (peer : PeerObservation) (now : Time)

/-- The table after a change. `RestoreCandidates` is no single change. -/
def change (cr : Crypto) (t : Table) : Change → Option Table
  | .call (.restoreCandidates _ _) => none
  | .call op => t.step cr op
  | .restored peer now => t.restoreCandidate cr peer now

section Changes

variable {cr : Crypto} {t t' : Table}

theorem step_of_change {op : Op} (h : t.change cr (.call op) = some t') :
    t.step cr op = some t' ∧ ∀ peers now, op ≠ .restoreCandidates peers now := by
  cases op with
  | restoreCandidates peers now => cases h
  | _ => exact ⟨h, nofun⟩

/-- A call is a run of changes. -/
theorem reach_of_step {op : Op} (hstep : t.step cr op = some t') :
    Reach (change cr) (fun _ _ => True) t t' := by
  by_cases hop : ∃ peers now, op = .restoreCandidates peers now
  · obtain ⟨peers, now, rfl⟩ := hop
    exact restoreCandidates_induction (motive := Reach (change cr) (fun _ _ => True) t) hstep .refl
      fun t₁ peer t₂ ht hpeer => ht.tail ⟨.restored peer now, trivial, hpeer⟩
  · refine .single ⟨.call op, trivial, ?_⟩
    cases op with
    | restoreCandidates peers now => exact absurd ⟨peers, now, rfl⟩ hop
    | _ => exact hstep

/-- Every run of calls is a run of changes. -/
theorem reach_of_calls (hrun : Reach (Table.step cr) (fun _ _ => True) t t') :
    Reach (change cr) (fun _ _ => True) t t' := by
  induction hrun with
  | refl => exact .refl
  | tail _ hlast ih =>
    obtain ⟨op, -, hstep⟩ := hlast
    exact ih.trans (reach_of_step hstep)

theorem Keyed.change (h : t.Keyed) {c : Change} (hchange : t.change cr c = some t') : t'.Keyed := by
  cases c with
  | restored peer now => exact h.restoreCandidate hchange
  | call op => exact h.step (step_of_change hchange).1

/-- Along every run of a table, `peerByID` holds for an ID an entry of that ID. -/
theorem keyed_of_run {selfID : String}
    (hrun : Reach (change cr) (fun _ _ => True) (newRoutingTable cr selfID) t) : t.Keyed := by
  have hstep : ∀ (s : Table) (c : Change) (s' : Table), s.Keyed → True → s.change cr c =
      some s' → s'.Keyed :=
    fun _ _ _ hs _ hchange => hs.change hchange
  exact Reach.invariant hstep hrun (keyed_new cr selfID)

end Changes

end Vx6.Dht.Table
