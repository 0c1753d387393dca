import Vx6.Dht.Restart

/-!
# Warm start

`LoadCandidates` reads whatever is in the database: rows that do not decode, rows that have expired,
index entries without a row and rows without an index entry. A `PeerDatabase` is any such content; a
`PeerStore` is one whose rows have the ID of their peer as their key, which all writes of the
program keep. The candidates are distinct, eligible and as many as the limit and the rows allow, and
those of each category come after all eligible rows of the categories before it (`warm_start`). Only
a row under a foreign key can be lost without being counted (`row_under_foreign_key`).
-/

set_option autoImplicit false

namespace Vx6.Dht

open Vx6.Go Vx6.Lib

/-- What the buckets of the database hold. A row that does not decode is `none`. -/
structure PeerDatabase where
  rows : Dict String (Option PeerObservation)
  index : PeerIndex → Dict String String

namespace PeerStore

/-! ## The loops over the indexes -/

namespace Loading

variable {sort : SliceSort} {all : Dict String PeerObservation} {l : Loading} {limit : Nat}
  {nodeID : String}
  {p : PeerObservation}

/-- What a piece of the loops does to the list and the map, where `visited` are the IDs it visits:
unless the list gets full, their rows are taken. -/
structure Advances (limit : Nat) (before after : Loading) (visited : List String) : Prop where
  grows : before.peers <+: after.peers
  bounded : after.peers.length ≤ limit
  gone : ∀ nodeID, before.byID.lookup nodeID = none → after.byID.lookup nodeID = none
  visited : after.peers.length = limit ∨ ∀ nodeID ∈ visited, after.byID.lookup nodeID = none

theorem Advances.refl (h : l.peers.length ≤ limit) : Advances limit l l [] :=
  ⟨List.prefix_rfl, h, fun _ => id, .inr (List.forall_mem_nil _)⟩

theorem Advances.trans {l₁ l₂ l₃ : Loading} {ids ids' : List String} (h : Advances limit l₁ l₂ ids)
    (h' : Advances limit l₂ l₃ ids') : Advances limit l₁ l₃ (ids ++ ids') := by
  refine ⟨h.grows.trans h'.grows, h'.bounded, fun nodeID hnone => h'.gone nodeID (h.gone nodeID hnone), ?_⟩
  rcases h.visited with hfull | hfirst
  · have hle : limit ≤ l₃.peers.length := hfull.ge.trans h'.grows.length_le
    exact .inl (h'.bounded.antisymm hle)
  · refine h'.visited.imp_right fun hsecond nodeID hmem => ?_
    rcases List.mem_append.1 hmem with hmem | hmem
    · exact h'.gone nodeID (hfirst nodeID hmem)
    · exact hsecond nodeID hmem

/-- A loop that keeps an invariant advances by what its turns visit. -/
theorem Advances.foldl {α : Type} (inv : Loading → Prop) {turn : Loading → α → Loading}
    {visits : α → List String}
    (hturn : ∀ l a, inv l → l.peers.length ≤ limit → inv (turn l a) ∧
      Advances limit l (turn l a) (visits a))
    (items : List α) (l : Loading) (hinv : inv l) (h : l.peers.length ≤ limit) :
    Advances limit l (items.foldl turn l) (items.flatMap visits) := by
  induction items generalizing l with
  | nil => exact Advances.refl h
  | cons a items ih =>
    obtain ⟨hinv, hfirst⟩ := hturn l a hinv h
    exact hfirst.trans (ih _ hinv hfirst.bounded)

theorem advances_take (l : Loading) (p : PeerObservation) (h : l.peers.length ≤ limit) :
    Advances limit l (l.take limit p) [p.node.id] := by
  unfold take
  split_ifs with hfull hleft
  · exact ⟨List.prefix_rfl, h, fun _ => id, .inl hfull⟩
  · refine ⟨List.prefix_append _ _, ?_, fun nodeID hnone => ?_, .inr (List.forall_mem_singleton.2 ?_)⟩
    · rw [List.length_append, List.length_singleton]
      omega
    · rw [Dict.lookup_erase_eq, hnone, ite_self]
    · rw [Dict.lookup_erase_eq, if_pos rfl]
  · exact ⟨List.prefix_rfl, h, fun _ => id,
      .inr (List.forall_mem_singleton.2 (Option.not_isSome_iff_eq_none.1 hleft))⟩

/-- Unless the list gets full, the loop over an index takes all rows that are indexed there. -/
theorem Sound.advances_takeIndex (hsound : l.Sound all) (ids : List String) (h : l.peers.length ≤ limit) :
    Advances limit l (l.takeIndex sort limit ids) ids := by
  have hloop : Advances limit l (l.takeIndex sort limit ids)
      ((sort.slice peerRetentionLess (ids.filterMap l.byID.lookup)).flatMap fun p => [p.node.id]) :=
    Advances.foldl (fun _ => True) (fun l p _ hl => ⟨trivial, advances_take l p hl⟩) _ l trivial h
  refine ⟨hloop.grows, hloop.bounded, hloop.gone, hloop.visited.imp_right fun hvisited nodeID hmem => ?_⟩
  cases hrow : l.byID.lookup nodeID with
  | none => exact hloop.gone nodeID hrow
  | some p =>
    refine hvisited nodeID (List.mem_flatMap.2 ⟨p, (sort.mem_slice _ _).2 ?_, ?_⟩)
    · exact List.mem_filterMap.2 ⟨nodeID, hmem, hrow⟩
    · rw [(hsound.of_left hrow).2.2]
      exact List.mem_singleton_self nodeID

theorem mem_foldl_take {members : List PeerObservation} (h : p ∈ (members.foldl (take limit) l).peers) :
    p ∈ l.peers ∨ p ∈ members := by
  induction members generalizing l with
  | nil => exact .inl h
  | cons q members ih =>
    rcases ih h with hmem | hmem
    · unfold take at hmem
      split_ifs at hmem
      · exact .inl hmem
      · refine (List.mem_append.1 hmem).imp_right fun hq => ?_
        rw [List.mem_singleton.1 hq]
        exact List.mem_cons_self
      · exact .inl hmem
    · exact .inr (List.mem_cons_of_mem q hmem)

/-- The rows that the loop over an index takes are indexed there. -/
theorem Sound.mem_takeIndex (hsound : l.Sound all) {ids : List String}
    (h : p ∈ (l.takeIndex sort limit ids).peers) : p ∈ l.peers ∨ p.node.id ∈ ids := by
  refine (mem_foldl_take h).imp_right fun hmem => ?_
  obtain ⟨nodeID, hid, hrow⟩ := List.mem_filterMap.1 ((sort.mem_slice _ _).1 hmem)
  rwa [(hsound.of_left hrow).2.2]

end Loading

end PeerStore

/-! ## `LoadCandidates` on any content -/

namespace PeerDatabase

open PeerStore (expired hotLimit Loading)

variable (sort : SliceSort)

/-- The rows that decode, in the order of their keys. -/
def decoded (db : PeerDatabase) : List PeerObservation :=
  (inKeyOrder db.rows).filterMap fun key => (db.rows.lookup key).join

/-- The rows that `LoadCandidates` does not skip. -/
def eligible (db : PeerDatabase) (now : Time) : List PeerObservation :=
  db.decoded.filter fun p => !expired peerAddressHintTTL p now

/-- The map `byID` of `LoadCandidates`, as filled from the rows. -/
def byID (db : PeerDatabase) (now : Time) : Dict String PeerObservation :=
  Dict.insertAll (fun p : PeerObservation => p.node.id) id ∅ (db.eligible now)

/-- The IDs in an index: the keys, or the values of the diversity index. -/
def indexedIDs (db : PeerDatabase) (name : PeerIndex) : List String :=
  (inKeyOrder (db.index name)).filterMap fun key =>
    if name = .diversity then (db.index name).lookup key else some key

/-- What the loops over some of the indexes leave. -/
def loadIndexed (db : PeerDatabase) (now : Time) (limit : Nat) (names : List PeerIndex) : Loading :=
  (names.map db.indexedIDs).foldl (Loading.takeIndex sort limit) ⟨[], db.byID now⟩

/-- `LoadCandidates`. -/
def loadCandidates (db : PeerDatabase) (order : RangeOrder) (now : Time) (limit : Int) :
    List PeerObservation :=
  let l := db.loadIndexed sort now (hotLimit limit) loadOrder
  (l.remaining sort order).foldl
    (fun peers p => if peers.length = hotLimit limit then peers else peers ++ [p]) l.peers

end PeerDatabase

/-- The content of a peer store. -/
def PeerStore.database (s : PeerStore) : PeerDatabase := ⟨s.rows, s.index⟩

theorem PeerStore.loadCandidates_database (s : PeerStore) (sort : SliceSort) (order : RangeOrder)
    (now : Time)
    (limit : Int) : s.database.loadCandidates sort order now limit =
    s.loadCandidates sort order now limit := rfl

namespace PeerDatabase

open PeerStore (expired hotLimit Loading)

variable {sort : SliceSort} {db : PeerDatabase} {now : Time} {limit : Nat} {p : PeerObservation}
  {nodeID : String}

theorem row_of_lookup_byID (h : (db.byID now).lookup nodeID = some p) :
    p ∈ db.eligible now ∧ p.node.id = nodeID := by
  rcases Dict.item_of_lookup_insertAll h with ⟨q, hq, hid, rfl⟩ | hempty
  · exact ⟨hq, hid⟩
  · cases hempty

theorem isSome_lookup_byID :
    ((db.byID now).lookup nodeID).isSome = true ↔ nodeID ∈ (db.eligible now).map fun p => p.node.id := by
  constructor
  · intro h
    obtain ⟨p, hp⟩ := Option.isSome_iff_exists.1 h
    exact List.mem_map.2 ⟨p, row_of_lookup_byID hp⟩
  · exact fun h => Dict.isSome_lookup_insertAll (.inl h)

theorem sound_loadIndexed (names : List PeerIndex) :
    (db.loadIndexed sort now limit names).Sound (db.byID now) := by
  refine List.foldlRecOn (motive := fun l : Loading => l.Sound (db.byID now)) _ _ ?_ fun _ hl ids
    _ => hl.takeIndex ids
  exact ⟨fun nodeID p hp => (row_of_lookup_byID hp).2, List.nodup_nil, by simp, by simp⟩

theorem advances_loadIndexed (earlier later : List PeerIndex)
    (h : (db.loadIndexed sort now limit earlier).peers.length ≤ limit) :
    Loading.Advances limit (db.loadIndexed sort now limit earlier)
      (db.loadIndexed sort now limit (earlier ++ later))
      ((later.map db.indexedIDs).flatMap id) := by
  rw [loadIndexed, loadIndexed, List.map_append, List.foldl_append]
  exact Loading.Advances.foldl (fun l => l.Sound (db.byID now))
    (fun _ ids hl hle => ⟨hl.takeIndex ids, hl.advances_takeIndex ids hle⟩) _ _
    (sound_loadIndexed earlier) h

/-- The loops from the start. -/
theorem advances_start (sort : SliceSort) (db : PeerDatabase) (now : Time) (limit : Nat)
    (names : List PeerIndex) :
    Loading.Advances limit ⟨[], db.byID now⟩ (db.loadIndexed sort now limit names)
      ((names.map db.indexedIDs).flatMap id) :=
  advances_loadIndexed [] names (Nat.zero_le limit)

/-- Unless the list is full, all eligible rows that are indexed in one of the categories are in it. -/
theorem indexed_of_not_full {names : List PeerIndex}
    (hroom : (db.loadIndexed sort now limit names).peers.length ≠ limit)
    {name : PeerIndex} (hname : name ∈ names) (hp : p ∈ db.eligible now)
    (hid : p.node.id ∈ db.indexedIDs name) :
    p.node.id ∈ (db.loadIndexed sort now limit names).peers.map fun p => p.node.id := by
  have hgone := (advances_start sort db now limit names).visited.resolve_left hroom p.node.id
    (List.mem_flatMap.2 ⟨_, List.mem_map_of_mem hname, hid⟩)
  have hsome := isSome_lookup_byID.2 (List.mem_map_of_mem (f := fun p : PeerObservation => p.node.id) hp)
  rw [(sound_loadIndexed names).left] at hgone
  by_contra hout
  rw [if_neg hout] at hgone
  rw [hgone] at hsome
  cases hsome

/-- The candidates are what the loops took and what remains, up to the limit. -/
theorem loadCandidates_eq (order : RangeOrder) (db : PeerDatabase) (now : Time) (limit : Int) :
    db.loadCandidates sort order now limit =
      ((db.loadIndexed sort now (hotLimit limit) loadOrder).peers ++
        (db.loadIndexed sort now (hotLimit limit) loadOrder).remaining sort order).take (hotLimit limit) :=
  PeerStore.foldl_fill _ _ (advances_start sort db now _ loadOrder).bounded

/-- What the loops over some categories took stands at the front of the candidates. -/
theorem prefix_loadCandidates {order : RangeOrder} {limit : Int} {earlier : List PeerIndex}
    (h : earlier <+: loadOrder) :
    (db.loadIndexed sort now (hotLimit limit) earlier).peers <+: db.loadCandidates sort order
    now limit := by
  obtain ⟨later, hlater⟩ := h
  have hbounded := (advances_start sort db now (hotLimit limit) earlier).bounded
  have hgrows := (advances_loadIndexed earlier later hbounded).grows
  rw [hlater] at hgrows
  rw [loadCandidates_eq, List.prefix_take_iff]
  exact ⟨hgrows.trans (List.prefix_append _ _), hbounded⟩

/-- As many candidates as there are IDs of eligible rows, up to the limit. -/
theorem length_loadCandidates (order : RangeOrder) (limit : Int) :
    (db.loadCandidates sort order now limit).length =
      min (hotLimit limit) ((db.eligible now).map fun p => p.node.id).dedup.length := by
  have hsound : (db.loadIndexed sort now (hotLimit limit) loadOrder).Sound (db.byID now) :=
    sound_loadIndexed loadOrder
  have hsame : ((((db.loadIndexed sort now (hotLimit limit) loadOrder).peers ++
      (db.loadIndexed sort now (hotLimit limit) loadOrder).remaining sort order).map
        fun p => p.node.id)).Perm
        ((db.eligible now).map fun p => p.node.id).dedup := by
    refine (List.perm_ext_iff_of_nodup (hsound.nodup_all order) (List.nodup_dedup _)).2 fun nodeID => ?_
    rw [List.mem_dedup, ← isSome_lookup_byID, Option.isSome_iff_exists, List.mem_map]
    constructor
    · rintro ⟨p, hp, rfl⟩
      exact ⟨p, hsound.mem_all.1 hp⟩
    · rintro ⟨p, hp⟩
      obtain ⟨-, rfl⟩ := row_of_lookup_byID hp
      exact ⟨p, hsound.mem_all.2 hp, rfl⟩
  rw [loadCandidates_eq, List.length_take, ← hsame.length_eq, List.length_map]

/-- The rows have the IDs of their peers as keys. -/
def Keyed (db : PeerDatabase) : Prop := ∀ key p, db.rows.lookup key = some (some p) → p.node.id = key

theorem Keyed.nodup_eligible (h : db.Keyed) (now : Time) :
    ((db.eligible now).map fun p => p.node.id).Nodup := by
  refine List.Nodup.sublist (List.filter_sublist.map _) ?_
  exact nodup_filterMap_ids (fun hrow => h _ _ (Option.join_eq_some_iff.1 hrow)) (nodup_inKeyOrder db.rows)

/-- `LoadCandidates` on any content: what it returns, and in which order. Of the categories
`earlier`, which come first, all eligible rows stand before every row that was not taken for one of
these categories. -/
theorem warm_start (sort : SliceSort) (order : RangeOrder) (db : PeerDatabase) (now : Time) (limit : Int) :
    ((db.loadCandidates sort order now limit).map fun p => p.node.id).Nodup ∧
    (∀ p ∈ db.loadCandidates sort order now limit, p ∈ db.eligible now) ∧
    (db.loadCandidates sort order now limit).length =
      min (hotLimit limit) ((db.eligible now).map fun p => p.node.id).dedup.length ∧
    (∀ earlier, earlier <+: loadOrder →
      (db.loadIndexed sort now (hotLimit limit) earlier).peers <+: db.loadCandidates sort order now limit ∧
      ∀ p ∈ db.loadCandidates sort order now limit,
        p ∉ (db.loadIndexed sort now (hotLimit limit) earlier).peers →
        ∀ name ∈ earlier, ∀ q ∈ db.eligible now, q.node.id ∈ db.indexedIDs name →
          q.node.id ∈ (db.loadIndexed sort now (hotLimit limit) earlier).peers.map fun p => p.node.id) ∧
    (∀ earlier name, ∀ p ∈ (db.loadIndexed sort now (hotLimit limit) (earlier ++ [name])).peers,
      p ∉ (db.loadIndexed sort now (hotLimit limit) earlier).peers → p.node.id ∈ db.indexedIDs name) ∧
    (db.Keyed → (db.loadCandidates sort order now limit).length =
      min (hotLimit limit) (db.eligible now).length ∧
      ∀ p q, p ∈ db.loadCandidates sort order now limit → q ∈ db.eligible now → p.node.id =
        q.node.id → p = q) := by
  have hsound : (db.loadIndexed sort now (hotLimit limit) loadOrder).Sound (db.byID now) :=
    sound_loadIndexed loadOrder
  have hrows : ∀ p ∈ db.loadCandidates sort order now limit, p ∈ db.eligible now := by
    intro p hp
    rw [loadCandidates_eq] at hp
    exact (row_of_lookup_byID (hsound.mem_all.1 (List.mem_of_mem_take hp))).1
  refine ⟨?_, hrows, length_loadCandidates order limit, fun earlier hearlier => ?_,
    fun earlier name p hp hnew => ?_,
    fun hkeyed => ⟨?_, fun p q hp hq => ?_⟩⟩
  · rw [loadCandidates_eq, List.map_take]
    exact (hsound.nodup_all order).sublist (List.take_sublist _ _)
  · refine ⟨prefix_loadCandidates hearlier, fun p hp hlater name hname q hq hid => ?_⟩
    refine indexed_of_not_full (fun hfull => hlater ?_) hname hq hid
    -- a full list is all that is returned
    have hinitial : _ <+: db.loadCandidates sort order now limit := prefix_loadCandidates hearlier
    have hle : (db.loadCandidates sort order now limit).length ≤ hotLimit limit :=
      (length_loadCandidates order limit).trans_le (Nat.min_le_left _ _)
    rwa [hinitial.eq_of_length_le (hle.trans hfull.ge)]
  · rw [loadIndexed, List.map_append, List.foldl_append] at hp
    exact ((sound_loadIndexed earlier).mem_takeIndex hp).resolve_left hnew
  · rw [length_loadCandidates, (hkeyed.nodup_eligible now).dedup, List.length_map]
  · exact List.inj_on_of_nodup_map (hkeyed.nodup_eligible now) (hrows p hp) hq

/-- A row of a peer that is a friend or not. -/
def savedRow (id : String) (friend : Bool) : PeerObservation :=
  { node := { id, addr := "[2001:db8::1]:4242" }, friend }

/-- A damaged row, a friend with an index entry, a peer without one, and an index entry without a row. -/
def worn : PeerDatabase where
  rows := ((∅ : Dict String (Option PeerObservation)).insert "a" (some (savedRow "a" false))).insert
    "b" none
    |>.insert "c" (some (savedRow "c" true))
  index name := if name =
    .friends then ((∅ : Dict String String).insert "c" "\x01").insert "d" "\x01" else ∅

theorem keyed_worn : worn.Keyed := by
  intro key p h
  simp only [worn, Dict.lookup_insert_eq] at h
  split_ifs at h with hc hb ha
  · cases h
    exact hc.symm
  · cases h
  · cases h
    exact ha.symm
  · cases h

theorem warm_start_worn :
    (worn.loadCandidates SliceSort.insertion RangeOrder.asStored 0 0).length =
    min 512 (worn.eligible 0).length :=
  ((warm_start SliceSort.insertion RangeOrder.asStored worn 0 0).2.2.2.2.2 keyed_worn).1

/-- Two rows of one peer, one of them under a key that is not its ID. -/
def doubled : PeerDatabase where
  rows := ((∅ : Dict String (Option PeerObservation)).insert "a" (some (savedRow "a" false))).insert "b"
    (some (savedRow "a" true))
  index _ := ∅

/-- Both rows are eligible, but only one of them is a candidate. -/
theorem row_under_foreign_key :
    (doubled.eligible 0).Nodup ∧ (doubled.eligible 0).length = 2 ∧
      doubled.loadCandidates SliceSort.insertion RangeOrder.asStored 0 0 = [savedRow "a" true] := by
  decide +kernel

end PeerDatabase

end Vx6.Dht
