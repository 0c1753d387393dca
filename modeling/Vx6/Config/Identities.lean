import Vx6.Config.KnownPeers
import Vx6.Lib.Run

/-!
# Identities in the directory of known peers

`mergeKnownPeerRecord`, `upsertKnownPeerEntry` and `normalizeKnownPeerEntries` all put an entry in the
place of the first one that has its ID, its name or its address. In a directory that is made of records
and plain addresses an entry with a key is always the entry of one record, whatever is merged. An
identity is kept as long as no other identity has its name or its address (`identities_kept`).
`identity_replaced` is a record that takes the place of another identity with its name, and an entry
without a key that leaves a record under another ID.
-/

set_option autoImplicit false

namespace Vx6.Config

open Vx6.Go Vx6.Lib Vx6.Record

/-! ## Steps -/

/-- What happens to the directory. -/
inductive PeerStep where
  | merge (rec : EndpointRecord)
  | upsert (entry : KnownPeerEntry)
  | normalize (sort : SliceSort) (addrs : List String) (legacyEntries : List KnownPeerEntry)
      (legacyAddrs : List String)

/-- The directory after a step. -/
def PeerStep.run (entries : List KnownPeerEntry) : PeerStep → List KnownPeerEntry
  | .merge rec => (mergeKnownPeerRecord rec entries).1
  | .upsert entry => upsertKnownPeerEntry entries entry
  | .normalize sort addrs legacyEntries legacyAddrs =>
    normalizeKnownPeerEntries sort entries addrs legacyEntries legacyAddrs

/-- The directory has an entry for the ID. -/
def HasID (entries : List KnownPeerEntry) (nodeID : String) : Prop := ∃ e ∈ entries, e.nodeID = nodeID

/-- The entry of one of the records, or a plain address. -/
def Made (records : Set EndpointRecord) (entry : KnownPeerEntry) : Prop :=
  (∃ rec ∈ records, entry = entryOf rec) ∨ ∃ addr, entry = addressEntry addr

/-- The step brings in records of the set and plain addresses only. -/
def PeerStep.From (records : Set EndpointRecord) : PeerStep → Prop
  | .merge rec => rec ∈ records
  | .upsert entry => Made records entry
  | .normalize _ _ legacyEntries _ => ∀ e ∈ legacyEntries, Made records e

/-- No two identities have one name or one address. -/
def Apart (records : Set EndpointRecord) : Prop :=
  ∀ rec ∈ records, ∀ other ∈ records, rec.nodeName = other.nodeName ∨ rec.address = other.address →
    rec.nodeID = other.nodeID

/-! ## Records and plain addresses -/

theorem knownPeerEntriesMatch_iff (a b : KnownPeerEntry) : knownPeerEntriesMatch a b = true ↔
    (a.nodeID ≠ "" ∧ b.nodeID ≠ "" ∧ a.nodeID = b.nodeID) ∨
      (a.nodeName ≠ "" ∧ b.nodeName ≠ "" ∧ a.nodeName = b.nodeName) ∨
        (a.address ≠ "" ∧ a.address = b.address) := by
  simp [knownPeerEntriesMatch, and_assoc, or_assoc]

theorem knownPeerRecordMatches_iff (e : KnownPeerEntry) (rec : EndpointRecord) :
    knownPeerRecordMatches e rec = true ↔ (e.nodeID ≠ "" ∧ e.nodeID = rec.nodeID) ∨
      (e.nodeName ≠ "" ∧ e.nodeName = rec.nodeName) ∨ (e.address ≠ "" ∧ e.address = rec.address) := by
  simp [knownPeerRecordMatches, or_assoc]

/-- A record with a key whose entry is normal. -/
structure Keyed (rec : EndpointRecord) : Prop extends Recorded rec where
  publicKey : rec.publicKey ≠ ""

theorem keyed_of_verified {cr : Crypto} {rec : EndpointRecord} {now : Time}
    (hverified : verifyEndpointRecord cr rec now = .ok ())
    (htrimmed : (entryOf rec).trimmed = entryOf rec) : Keyed rec := by
  refine ⟨recorded_of_verified hverified htrimmed, fun hempty => ?_⟩
  obtain ⟨-, ⟨signed⟩⟩ := verifyEndpointRecord_ok hverified
  have hnone : stdEncoding.decodeString rec.publicKey = some [] := by
    rw [hempty]
    decide
  have hkey : [] = signed.key := Option.some.inj (hnone.symm.trans signed.key_eq)
  have hsize := signed.key_size
  rw [← hkey] at hsize
  cases hsize

/-- The entry of a record replaces all of the entry that it is merged into. -/
theorem Keyed.mergeEntry {rec : EndpointRecord} (h : Keyed rec) (old : KnownPeerEntry) :
    mergeEntry old (entryOf rec) = entryOf rec := by
  simp [Config.mergeEntry, entryOf, h.nodeID, h.nodeName, h.publicKey]

/-- A plain address is merged into an entry with that address only, and changes nothing there. -/
theorem mergeEntry_address {old : KnownPeerEntry} {addr : String}
    (h : knownPeerEntriesMatch old (addressEntry addr) = true) :
    mergeEntry old (addressEntry addr) = old := by
  have haddress : old.address = addr := by
    rcases (knownPeerEntriesMatch_iff _ _).1 h with ⟨-, hempty, -⟩ | ⟨-, hempty, -⟩ | ⟨-, haddress⟩
    · exact absurd rfl hempty
    · exact absurd rfl hempty
    · exact haddress
  simp [mergeEntry, addressEntry, ← haddress]

/-- Merging a record is placing its entry. -/
theorem Keyed.merge {rec : EndpointRecord} (h : Keyed rec) (entries : List KnownPeerEntry) :
    (mergeKnownPeerRecord rec entries).1 = placeEntry (entryOf rec) entries := by
  induction entries with
  | nil => rfl
  | cons entry rest ih =>
    have hmatch : knownPeerEntriesMatch entry (entryOf rec) = knownPeerRecordMatches entry rec := by
      rw [Bool.eq_iff_iff, knownPeerEntriesMatch_iff, knownPeerRecordMatches_iff]
      simp [entryOf, h.nodeID, h.nodeName]
    rw [mergeKnownPeerRecord, placeEntry, hmatch, h.mergeEntry]
    split
    · rfl
    · exact congrArg (entry :: ·) ih

theorem normalize_address {addr : String} {entry : KnownPeerEntry}
    (h : normalizeKnownPeerEntry (addressEntry addr) = some entry) :
    entry = addressEntry (trimSpace addr) := by
  have hblank : trimSpace "" = "" := by decide
  simp only [normalizeKnownPeerEntry, addressEntry, KnownPeerEntry.trimmed, hblank] at h
  split_ifs at h
  all_goals exact (Option.some.inj h).symm

section Directory

variable {records : Set EndpointRecord}

/-- Normalizing leaves the entry of a record, and a plain address. -/
theorem Made.normalize (hrecords : ∀ rec ∈ records, Keyed rec) {entry result : KnownPeerEntry}
    (h : Made records entry) (hnormalize : normalizeKnownPeerEntry entry = some result) :
    Made records result := by
  rcases h with ⟨rec, hrec, rfl⟩ | ⟨addr, rfl⟩
  · rw [(hrecords rec hrec).normal.normalize] at hnormalize
    cases hnormalize
    exact .inl ⟨rec, hrec, rfl⟩
  · exact .inr ⟨_, normalize_address hnormalize⟩

/-- Merging leaves one of the two entries. -/
theorem Made.mergeEntry (hrecords : ∀ rec ∈ records, Keyed rec) {old entry : KnownPeerEntry}
    (hentry : Made records entry) (hmatch : knownPeerEntriesMatch old entry = true) :
    mergeEntry old entry = entry ∧ (∃ rec ∈ records, entry = entryOf rec) ∨
      mergeEntry old entry = old ∧ entry.nodeID = "" := by
  rcases hentry with ⟨rec, hrec, rfl⟩ | ⟨addr, rfl⟩
  · exact .inl ⟨(hrecords rec hrec).mergeEntry old, rec, hrec, rfl⟩
  · exact .inr ⟨mergeEntry_address hmatch, rfl⟩

theorem Made.place (hrecords : ∀ rec ∈ records, Keyed rec) {entry : KnownPeerEntry}
    (hentry : Made records entry) {entries : List KnownPeerEntry} (h : ∀ e ∈ entries, Made records e) :
    ∀ e ∈ placeEntry entry entries, Made records e := by
  induction entries with
  | nil => exact List.forall_mem_singleton.2 hentry
  | cons old rest ih =>
    obtain ⟨hold, hrest⟩ := List.forall_mem_cons.1 h
    rw [placeEntry]
    split_ifs with hmatch
    · refine List.forall_mem_cons.2 ⟨?_, hrest⟩
      rcases hentry.mergeEntry hrecords hmatch with ⟨hnew, -⟩ | ⟨hsame, -⟩
      · rwa [hnew]
      · rwa [hsame]
    · exact List.forall_mem_cons.2 ⟨hold, ih hrest⟩

/-- Matching entries that have an ID have the same one. -/
theorem Apart.nodeID_eq (hapart : Apart records) {old : KnownPeerEntry} (hold : Made records old)
    (hid : old.nodeID ≠ "") {rec : EndpointRecord} (hrec : rec ∈ records)
    (hmatch : knownPeerEntriesMatch old (entryOf rec) = true) : old.nodeID = rec.nodeID := by
  rcases hold with ⟨other, hother, rfl⟩ | ⟨addr, rfl⟩
  · rcases (knownPeerEntriesMatch_iff _ _).1 hmatch with ⟨-, -, hsame⟩ | ⟨-, -, hname⟩ | ⟨-, haddress⟩
    · exact hsame
    · exact hapart other hother rec hrec (.inl hname)
    · exact hapart other hother rec hrec (.inr haddress)
  · exact absurd rfl hid

/-- Placing an entry keeps the IDs that are there, and adds its own. -/
theorem hasID_placeEntry (hrecords : ∀ rec ∈ records, Keyed rec) (hapart : Apart records)
    {entry : KnownPeerEntry} (hentry : Made records entry) {entries : List KnownPeerEntry}
    (h : ∀ e ∈ entries, Made records e) {nodeID : String} (hid : nodeID ≠ "")
    (hhas : HasID entries nodeID ∨ entry.nodeID = nodeID) : HasID (placeEntry entry entries) nodeID := by
  induction entries with
  | nil =>
    rcases hhas with ⟨e, he, -⟩ | hnew
    · cases he
    · exact ⟨entry, List.mem_singleton_self _, hnew⟩
  | cons old rest ih =>
    obtain ⟨hold, hrest⟩ := List.forall_mem_cons.1 h
    rw [placeEntry]
    split_ifs with hmatch
    · -- the first entry that matches: it is replaced by a record of its identity, or stays
      have hhead : old.nodeID = nodeID ∨ entry.nodeID = nodeID →
          (mergeEntry old entry).nodeID = nodeID := by
        intro hone
        rcases hentry.mergeEntry hrecords hmatch with ⟨hnew, rec, hrec, rfl⟩ | ⟨hsame, hempty⟩
        · rw [hnew]
          rcases hone with hold' | hnew'
          · rw [← hold'] at hid ⊢
            exact (hapart.nodeID_eq hold hid hrec hmatch).symm
          · exact hnew'
        · rw [hsame]
          rcases hone with hold' | hnew'
          · exact hold'
          · exact absurd (hnew'.symm.trans hempty) hid
      rcases hhas with ⟨e, he, heq⟩ | hnew
      · rcases List.mem_cons.1 he with rfl | he
        · exact ⟨_, List.mem_cons_self, hhead (.inl heq)⟩
        · exact ⟨e, List.mem_cons_of_mem _ he, heq⟩
      · exact ⟨_, List.mem_cons_self, hhead (.inr hnew)⟩
    · rcases hhas with ⟨e, he, heq⟩ | hnew
      · rcases List.mem_cons.1 he with rfl | he
        · exact ⟨e, List.mem_cons_self, heq⟩
        · obtain ⟨e', he', heq'⟩ := ih hrest (.inl ⟨e, he, heq⟩)
          exact ⟨e', List.mem_cons_of_mem _ he', heq'⟩
      · obtain ⟨e', he', heq'⟩ := ih hrest (.inr hnew)
        exact ⟨e', List.mem_cons_of_mem _ he', heq'⟩

theorem Made.upsert (hrecords : ∀ rec ∈ records, Keyed rec) {entry : KnownPeerEntry}
    (hentry : Made records entry) {entries : List KnownPeerEntry} (h : ∀ e ∈ entries, Made records e) :
    ∀ e ∈ upsertKnownPeerEntry entries entry, Made records e := by
  rw [upsertKnownPeerEntry]
  cases hnormalize : normalizeKnownPeerEntry entry with
  | none => exact h
  | some result => exact Made.place hrecords (hentry.normalize hrecords hnormalize) h

theorem hasID_upsert (hrecords : ∀ rec ∈ records, Keyed rec) (hapart : Apart records)
    {entry : KnownPeerEntry} (hentry : Made records entry) {entries : List KnownPeerEntry}
    (h : ∀ e ∈ entries, Made records e) {nodeID : String} (hid : nodeID ≠ "")
    (hhas : HasID entries nodeID ∨ entry.nodeID = nodeID) :
    HasID (upsertKnownPeerEntry entries entry) nodeID := by
  rw [upsertKnownPeerEntry]
  cases hnormalize : normalizeKnownPeerEntry entry with
  | none =>
    rcases hhas with hhas | hnew
    · exact hhas
    · -- an entry with an ID is the entry of a record, which is normal
      rcases hentry with ⟨rec, hrec, rfl⟩ | ⟨addr, rfl⟩
      · rw [(hrecords rec hrec).normal.normalize] at hnormalize
        cases hnormalize
      · exact absurd hnew.symm hid
  | some result =>
    apply hasID_placeEntry hrecords hapart (hentry.normalize hrecords hnormalize) h hid
    rcases hhas with hhas | hnew
    · exact .inl hhas
    · right
      rcases hentry with ⟨rec, hrec, rfl⟩ | ⟨addr, rfl⟩
      · rw [(hrecords rec hrec).normal.normalize] at hnormalize
        cases hnormalize
        exact hnew
      · exact absurd hnew.symm hid

theorem Made.foldl (hrecords : ∀ rec ∈ records, Keyed rec) {given : List KnownPeerEntry}
    (hgiven : ∀ e ∈ given, Made records e) {entries : List KnownPeerEntry}
    (h : ∀ e ∈ entries, Made records e) :
    ∀ e ∈ given.foldl upsertKnownPeerEntry entries, Made records e := by
  induction given generalizing entries with
  | nil => exact h
  | cons entry rest ih =>
    obtain ⟨hentry, hrest⟩ := List.forall_mem_cons.1 hgiven
    exact ih hrest (hentry.upsert hrecords h)

theorem hasID_foldl (hrecords : ∀ rec ∈ records, Keyed rec) (hapart : Apart records)
    {given : List KnownPeerEntry} (hgiven : ∀ e ∈ given, Made records e)
    {entries : List KnownPeerEntry} (h : ∀ e ∈ entries, Made records e) {nodeID : String}
    (hid : nodeID ≠ "") (hhas : HasID entries nodeID ∨ HasID given nodeID) :
    HasID (given.foldl upsertKnownPeerEntry entries) nodeID := by
  induction given generalizing entries with
  | nil =>
    rcases hhas with hhas | ⟨e, he, -⟩
    · exact hhas
    · cases he
  | cons entry rest ih =>
    obtain ⟨hentry, hrest⟩ := List.forall_mem_cons.1 hgiven
    apply ih hrest (hentry.upsert hrecords h)
    rcases hhas with hhas | ⟨e, he, heq⟩
    · exact .inl (hasID_upsert hrecords hapart hentry h hid (.inl hhas))
    · rcases List.mem_cons.1 he with rfl | he
      · exact .inl (hasID_upsert hrecords hapart hentry h hid (.inr heq))
      · exact .inr ⟨e, he, heq⟩

/-! ## Runs -/

theorem made_filterMap (hrecords : ∀ rec ∈ records, Keyed rec) {given : List KnownPeerEntry}
    (h : ∀ e ∈ given, Made records e) : ∀ e ∈ given.filterMap normalizeKnownPeerEntry, Made records e := by
  intro e he
  obtain ⟨source, hsource, hnormalize⟩ := List.mem_filterMap.1 he
  exact (h source hsource).normalize hrecords hnormalize

/-- What is normalized is made of records and addresses again. -/
theorem made_given {entries legacyEntries : List KnownPeerEntry} (h : ∀ e ∈ entries, Made records e)
    (hlegacy : ∀ e ∈ legacyEntries, Made records e) (addrs legacyAddrs : List String) :
    ∀ e ∈ entries ++ addrs.map addressEntry ++ legacyEntries ++ legacyAddrs.map addressEntry,
      Made records e := by
  have haddrs : ∀ l : List String, ∀ e ∈ l.map addressEntry, Made records e := by
    intro l e he
    obtain ⟨addr, -, rfl⟩ := List.mem_map.1 he
    exact .inr ⟨addr, rfl⟩
  simp only [List.forall_mem_append]
  exact ⟨⟨⟨h, haddrs addrs⟩, hlegacy⟩, haddrs legacyAddrs⟩

theorem Made.run (hrecords : ∀ rec ∈ records, Keyed rec) {entries : List KnownPeerEntry}
    (h : ∀ e ∈ entries, Made records e) {step : PeerStep} (hfrom : step.From records) :
    ∀ e ∈ step.run entries, Made records e := by
  cases step with
  | merge rec =>
    rw [PeerStep.run, (hrecords rec hfrom).merge]
    exact Made.place hrecords (.inl ⟨rec, hfrom, rfl⟩) h
  | upsert entry => exact Made.upsert hrecords hfrom h
  | normalize sort addrs legacyEntries legacyAddrs =>
    intro e he
    have hmem := (sort.perm _ _).subset he
    have hgiven := made_filterMap hrecords (made_given h hfrom addrs legacyAddrs)
    exact Made.foldl hrecords hgiven (List.forall_mem_nil _) e hmem

theorem hasID_run (hrecords : ∀ rec ∈ records, Keyed rec) (hapart : Apart records)
    {entries : List KnownPeerEntry} (h : ∀ e ∈ entries, Made records e) {step : PeerStep}
    (hfrom : step.From records) {nodeID : String} (hid : nodeID ≠ "") (hhas : HasID entries nodeID) :
    HasID (step.run entries) nodeID := by
  cases step with
  | merge rec =>
    rw [PeerStep.run, (hrecords rec hfrom).merge]
    exact hasID_placeEntry hrecords hapart (.inl ⟨rec, hfrom, rfl⟩) h hid (.inl hhas)
  | upsert entry => exact hasID_upsert hrecords hapart hfrom h hid (.inl hhas)
  | normalize sort addrs legacyEntries legacyAddrs =>
    have hgiven := made_filterMap hrecords (made_given h hfrom addrs legacyAddrs)
    obtain ⟨e, he, heq⟩ := hhas
    have hlisted : HasID ((entries ++ addrs.map addressEntry ++ legacyEntries ++
        legacyAddrs.map addressEntry).filterMap normalizeKnownPeerEntry) nodeID := by
      refine ⟨e, List.mem_filterMap.2 ⟨e, by simp [he], ?_⟩, heq⟩
      rcases h e he with ⟨rec, hrec, rfl⟩ | ⟨addr, rfl⟩
      · exact (hrecords rec hrec).normal.normalize
      · exact absurd heq.symm hid
    obtain ⟨e', he', heq'⟩ := hasID_foldl hrecords hapart hgiven (List.forall_mem_nil _) hid (.inr hlisted)
    exact ⟨e', (sort.perm _ _).symm.subset he', heq'⟩

/-- In a directory made of verified records and plain addresses, an entry with a key is the entry of one
record after any sequence of steps with such records and addresses. If no two identities have one name
or one address, no ID is lost. -/
theorem identities_kept {cr : Crypto}
    (hverified : ∀ rec ∈ records, ∃ now, verifyEndpointRecord cr rec now = .ok ())
    (htrimmed : ∀ rec ∈ records, (entryOf rec).trimmed = entryOf rec) {entries : List KnownPeerEntry}
    (hmade : ∀ e ∈ entries, Made records e) {result : List KnownPeerEntry}
    (hrun : Reach (fun entries step => some (PeerStep.run entries step))
      (fun _ step => step.From records) entries result) :
    (∀ e ∈ result, e.publicKey ≠ "" → ∃ rec ∈ records, e = entryOf rec) ∧
      (Apart records → ∀ nodeID, nodeID ≠ "" → HasID entries nodeID → HasID result nodeID) := by
  have hrecords : ∀ rec ∈ records, Keyed rec := fun rec hrec => by
    obtain ⟨now, hverify⟩ := hverified rec hrec
    exact keyed_of_verified hverify (htrimmed rec hrec)
  have hkeeps : ∀ s a t, (∀ e ∈ s, Made records e) → PeerStep.From records a →
      some (PeerStep.run s a) = some t → ∀ e ∈ t, Made records e := by
    intro s a t hs hfrom hstep
    cases hstep
    exact Made.run hrecords hs hfrom
  refine ⟨?_, ?_⟩
  · intro e he hkey
    rcases hrun.invariant hkeeps hmade e he with hrecord | ⟨addr, rfl⟩
    · exact hrecord
    · exact absurd rfl hkey
  · intro hapart nodeID hid hhas
    have hboth : ∀ s a t, ((∀ e ∈ s, Made records e) ∧ HasID s nodeID) → PeerStep.From records a →
        some (PeerStep.run s a) = some t → (∀ e ∈ t, Made records e) ∧ HasID t nodeID := by
      intro s a t hs hfrom hstep
      refine ⟨hkeeps s a t hs.1 hfrom hstep, ?_⟩
      cases hstep
      exact hasID_run hrecords hapart hs.1 hfrom hid hs.2
    exact (hrun.invariant hboth ⟨hmade, hhas⟩).2

end Directory

/-- The record of a second node, with the given name and address. -/
def secondRecord (name address : String) : EndpointRecord :=
  { aliceRecord 0 0 with
    nodeID := "vx6_" ++ hexEncode (List.replicate 32 2)
    nodeName := name
    address := address
    publicKey := stdEncoding.encodeToString (List.replicate 32 2) }

theorem secondRecord_verified :
    verifyEndpointRecord (sampleCrypto fun _ => true) (secondRecord "BOB" "[2001:db8::2]:4242") midYear =
      .ok () :=
  ok_of_isOk (by decide +kernel)

theorem trimmed_secondRecord :
    (entryOf (secondRecord "BOB" "[2001:db8::2]:4242")).trimmed =
      entryOf (secondRecord "BOB" "[2001:db8::2]:4242") :=
  KnownPeerEntry.trimmed_eq_iff.2 (by decide +kernel)

/-- `ALICE` is known, the record of `BOB` is merged and the directory is normalized with an address. -/
theorem identities_kept_two :
    ∃ result, result = PeerStep.run (PeerStep.run [entryOf (aliceRecord 0 0)]
        (.merge (secondRecord "BOB" "[2001:db8::2]:4242")))
        (.normalize .insertion ["[2001:db8::1]:4242"] [] []) ∧
      HasID result (aliceRecord 0 0).nodeID ∧
      ∀ e ∈ result, e.publicKey ≠ "" →
        ∃ rec ∈ ({aliceRecord 0 0, secondRecord "BOB" "[2001:db8::2]:4242"} : Set EndpointRecord),
          e = entryOf rec := by
  let records : Set EndpointRecord := {aliceRecord 0 0, secondRecord "BOB" "[2001:db8::2]:4242"}
  have hverified : ∀ rec ∈ records, ∃ now,
      verifyEndpointRecord (sampleCrypto fun _ => true) rec now = .ok () := by
    rintro rec (rfl | rfl)
    · exact ⟨midYear, legacyRecord_verified⟩
    · exact ⟨midYear, secondRecord_verified⟩
  have htrimmed : ∀ rec ∈ records, (entryOf rec).trimmed = entryOf rec := by
    rintro rec (rfl | rfl)
    · exact trimmed_aliceRecord 0 0
    · exact trimmed_secondRecord
  have hapart : Apart records := by
    rintro rec (rfl | rfl) other (rfl | rfl) hsame
    · rfl
    · exact absurd hsame (by decide)
    · exact absurd hsame (by decide)
    · rfl
  have hmade : ∀ e ∈ [entryOf (aliceRecord 0 0)], Made records e :=
    List.forall_mem_singleton.2 (.inl ⟨aliceRecord 0 0, .inl rfl, rfl⟩)
  have hrun : Reach (fun entries step => some (PeerStep.run entries step))
      (fun _ step => step.From records) [entryOf (aliceRecord 0 0)] (PeerStep.run (PeerStep.run
        [entryOf (aliceRecord 0 0)] (.merge (secondRecord "BOB" "[2001:db8::2]:4242")))
        (.normalize .insertion ["[2001:db8::1]:4242"] [] [])) := by
    refine (Relation.ReflTransGen.single ⟨.merge _, .inr rfl, rfl⟩).tail ?_
    exact ⟨.normalize .insertion ["[2001:db8::1]:4242"] [] [], List.forall_mem_nil _, rfl⟩
  obtain ⟨hwhole, hkept⟩ := identities_kept hverified htrimmed hmade hrun
  exact ⟨_, rfl, hkept hapart _ (by decide) ⟨_, List.mem_singleton_self _, rfl⟩, hwhole⟩

/-- Two verified records of different nodes have one name: merging the second drops the first node. And
an entry of another node without a key, at the address of a record, leaves the record under its ID. -/
theorem identity_replaced :
    (∃ rec other : EndpointRecord,
      verifyEndpointRecord (sampleCrypto fun _ => true) rec midYear = .ok () ∧
      verifyEndpointRecord (sampleCrypto fun _ => true) other midYear = .ok () ∧
      rec.nodeID ≠ other.nodeID ∧
      ¬ HasID (PeerStep.run [entryOf rec] (.merge other)) rec.nodeID) ∧
    ∃ (rec : EndpointRecord) (entry : KnownPeerEntry),
      verifyEndpointRecord (sampleCrypto fun _ => true) rec midYear = .ok () ∧
      entry.nodeID ≠ rec.nodeID ∧
      ∃ e ∈ PeerStep.run [entryOf rec, entry] (.normalize .insertion [] [] []),
        e.publicKey = rec.publicKey ∧ e.publicKey ≠ "" ∧ e.nodeID = entry.nodeID := by
  refine ⟨⟨aliceRecord 0 0, secondRecord "ALICE" "[2001:db8::2]:4242", legacyRecord_verified,
    ok_of_isOk (by decide +kernel), by decide, ?_⟩, aliceRecord 0 0,
    { nodeID := "vx6_bob", nodeName := "BOB", address := "[2001:db8::1]:4242" },
    legacyRecord_verified, by decide, ?_⟩
  · rintro ⟨e, he, hid⟩
    have hone : PeerStep.run [entryOf (aliceRecord 0 0)]
        (.merge (secondRecord "ALICE" "[2001:db8::2]:4242")) =
          [entryOf (secondRecord "ALICE" "[2001:db8::2]:4242")] := by decide
    rw [hone, List.mem_singleton] at he
    rw [he] at hid
    exact absurd hid (by decide)
  · refine ⟨{ entryOf (aliceRecord 0 0) with nodeID := "vx6_bob", nodeName := "BOB" }, ?_, rfl,
      by decide, rfl⟩
    decide +kernel

end Vx6.Config
