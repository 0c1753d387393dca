import Vx6.Discovery.Registry

/-!
# Updates of the registry that fail

`handlePublish`, `handlePublishService` and `Import` change the registry in memory and write the file
afterwards. When the file cannot be written, the caller gets an error and the change stays in memory.

So a call that reports an error has changed nothing exactly when the file could be written or the call had
nothing to store that was not stored already (`failed_update_iff`). `Import` asks for a newer record than
the stored one: repeating it after a failed write reports success, writes nothing and tells the observer
nothing (`import_lost`).
-/

set_option autoImplicit false

namespace Vx6.Discovery

open Vx6.Go Vx6.Lib Vx6.Record

/-! ## What a call reports -/

/-- What is asked of the registry, apart from the times and the fate of the file. -/
inductive Asked where
  | publish (rec : EndpointRecord)
  | publishService (rec : ServiceRecord)
  | importRecords (records : List EndpointRecord) (serviceRecords : List ServiceRecord)

def Call.request : Call → Asked
  | .publish rec _ _ _ _ => .publish rec
  | .publishService rec _ _ _ => .publishService rec
  | .importRecords records serviceRecords _ _ =>
    .importRecords (records.map Offered.record) (serviceRecords.map Offered.record)

/-- How writing the registry file ends, should the call come to it. -/
def Call.write : Call → Write
  | .publish _ _ _ _ write => write
  | .publishService _ _ _ write => write
  | .importRecords _ _ _ write => write

/-- `updatedEndpoints` of `Import`: the endpoint records that were stored, in order. -/
def updatedEndpoints (cr : Crypto) : Registry → List (Offered EndpointRecord) → List EndpointRecord
  | _, [] => []
  | r, offer :: rest =>
    let next := importEndpoint cr (r, false) offer
    (if next.2 then [offer.record] else []) ++ updatedEndpoints cr next.1 rest

/-- What a call reports: its error, and the endpoint records that the observer is told of. -/
structure Report where
  error : Option RegistryError
  notified : List EndpointRecord
  deriving DecidableEq

def errorOf {α : Type} : Except RegistryError α → Option RegistryError
  | .error e => some e
  | .ok _ => none

/-- The observer is told after the lock is released, and only of what was saved. -/
def report {α : Type} (result : Except RegistryError α) (stored : List EndpointRecord) : Report :=
  ⟨errorOf result, if (errorOf result).isNone then stored else []⟩

def Call.report (cr : Crypto) (r : Registry) : Call → Report
  | .publish rec checked noted saved write =>
    Discovery.report (handlePublish cr r rec checked noted saved write).2 [rec]
  | .publishService rec checked saved write =>
    Discovery.report (handlePublishService cr r rec checked saved write).2 []
  | .importRecords records serviceRecords saved write =>
    Discovery.report (Discovery.importRecords cr r records serviceRecords saved write).2
      (updatedEndpoints cr r records)

section Failed

variable {cr : Crypto} {r : Registry}

theorem errorOf_map {α β : Type} (x : Except RegistryError α) (f : α → β) :
    errorOf (x.map f) = errorOf x := by
  cases x <;> rfl

/-- Saving fails or not by the file alone. -/
theorem saveLocked_congr (r r' : Registry) (h : r.persistent = r'.persistent) (now : Time)
    (write : Write) :
    (saveLocked r now write).2 = (saveLocked r' now write).2 := by
  unfold saveLocked
  rw [h]
  split_ifs
  · rfl
  · cases write <;> rfl

@[simp] theorem saveLocked_persistent (r : Registry) (now : Time) (write : Write) :
    (saveLocked r now write).1.persistent = r.persistent := by
  unfold saveLocked
  split_ifs
  · rfl
  · cases write <;> rfl

@[simp] theorem upsertEndpointLocked_persistent (r : Registry) (rec : EndpointRecord) (now : Time) :
    (upsertEndpointLocked r rec now).persistent = r.persistent := by
  unfold upsertEndpointLocked rememberAddressLocked
  cases r.byNode.lookup rec.nodeID with
  | none => rfl
  | some existing =>
    simp only
    split_ifs <;> rfl

theorem upsertEndpointLocked_lookup (r : Registry) (rec : EndpointRecord) (now : Time) :
    (upsertEndpointLocked r rec now).byNode.lookup rec.nodeID = some rec :=
  AList.lookup_insert _

theorem upsertEndpointLocked_byNode (r : Registry) (rec : EndpointRecord) (now : Time) :
    (upsertEndpointLocked r rec now).byNode = r.byNode.insert rec.nodeID rec := by
  unfold upsertEndpointLocked rememberAddressLocked
  cases r.byNode.lookup rec.nodeID with
  | none => rfl
  | some existing =>
    simp only
    split_ifs <;> rfl

/-- A record is not newer than itself. -/
theorem endpointRecordNewer_self (rec : EndpointRecord) : endpointRecordNewer rec rec = false := by
  unfold endpointRecordNewer
  rw [if_neg (not_not.2 rfl)]
  split_ifs
  · simp
  · cases parseRFC3339 rec.issuedAt <;> simp

theorem endpointRecordNewer_trans {a b c : EndpointRecord} (hab : endpointRecordNewer a b = true)
    (hbc : endpointRecordNewer b c = true) : endpointRecordNewer a c = true := by
  -- by the version, then by the sequence or the issue time: each of them is a strict order
  unfold endpointRecordNewer at *
  grind

/-- What a publication reports depends on what is stored for the node and on the file. -/
theorem handlePublish_result_congr {r' : Registry} {rec : EndpointRecord}
    (hstale : staleEndpoint cr r rec = staleEndpoint cr r' rec) (hfile : r.persistent = r'.persistent)
    (checked noted saved : Time) (write : Write) :
    (handlePublish cr r rec checked noted saved write).2 =
      (handlePublish cr r' rec checked noted saved write).2 := by
  have hsave := saveLocked_congr (upsertEndpointLocked r rec noted) (upsertEndpointLocked r' rec noted)
    (by simpa using hfile) saved write
  unfold handlePublish
  cases verifyEndpointRecord cr rec checked with
  | error e => rfl
  | ok u =>
    simp only [hstale, hsave]
    split_ifs <;> rfl

theorem handlePublishService_result_congr {r' : Registry} {rec : ServiceRecord}
    (holder : olderService r rec = olderService r' rec) (hfile : r.persistent = r'.persistent)
    (checked saved : Time) (write : Write) :
    (handlePublishService cr r rec checked saved write).2 =
      (handlePublishService cr r' rec checked saved write).2 := by
  have hsave := saveLocked_congr (putService r rec) (putService r' rec) hfile saved write
  unfold handlePublishService
  cases verifyServiceRecord cr rec checked with
  | error e => rfl
  | ok signed =>
    simp only [holder, hsave]
    split_ifs <;> rfl

end Failed

/-! ## What is left in memory -/

/-- The two registries hold the same records and observations in memory. -/
structure SameMemory (r' r : Registry) : Prop where
  byNode : ∀ nodeID, r'.byNode.lookup nodeID = r.byNode.lookup nodeID
  byName : ∀ name, r'.byName.lookup name = r.byName.lookup name
  serviceByName : ∀ name, r'.serviceByName.lookup name = r.serviceByName.lookup name
  addressHistory : ∀ nodeID, r'.addressHistory.lookup nodeID = r.addressHistory.lookup nodeID

/-- `resolve` can answer so: the map yields its records in some order. -/
def Resolves (cr : Crypto) (r : Registry) (name nodeID : String) (now : Time)
    (answer : Except RegistryError EndpointRecord) : Prop :=
  ∃ order : Dict String EndpointRecord, order.entries.Perm r.byNode.entries ∧
    resolve cr { r with byNode := order } name nodeID now = answer

/-- Whatever is asked of the two registries is answered alike. -/
structure SameAnswers (cr : Crypto) (r' r : Registry) : Prop where
  snapshot : snapshot r' = snapshot r
  resolve : ∀ name nodeID now answer,
    Resolves cr r' name nodeID now answer ↔ Resolves cr r name nodeID now answer
  resolveService : ∀ service now,
    handleResolveService cr r' service now = handleResolveService cr r service now

theorem sortedValues_congr {α : Type} {m m' : Dict String α} (h : ∀ k, m.lookup k = m'.lookup k) :
    sortedValues m = sortedValues m' := by
  have hlookup : m.lookup = m'.lookup := funext h
  rw [sortedValues, sortedValues, Dict.sortedKeys_congr (· ≤ ·) h, hlookup]

theorem SameMemory.refl (r : Registry) : SameMemory r r :=
  ⟨fun _ => rfl, fun _ => rfl, fun _ => rfl, fun _ => rfl⟩

/-- Answers are made of what is in memory. -/
theorem SameMemory.answers {r' r : Registry} (h : SameMemory r' r) (cr : Crypto) :
    SameAnswers cr r' r where
  snapshot := by
    rw [snapshot, snapshot, sortedValues_congr h.byNode, sortedValues_congr h.serviceByName]
  resolve name nodeID now answer := by
    have hentries := Dict.entries_perm_of_lookup h.byNode
    constructor
    · rintro ⟨order, horder, hanswer⟩
      exact ⟨order, horder.trans hentries, hanswer⟩
    · rintro ⟨order, horder, hanswer⟩
      exact ⟨order, horder.trans hentries.symm, hanswer⟩
  resolveService service now := by
    rw [handleResolveService, handleResolveService, h.serviceByName]

/-- What a call that reports an error should leave behind: the memory and all answers as they were, and the
same request, whenever it comes again, reported as if the first had not happened. -/
def FailsCleanly (cr : Crypto) (r : Registry) (c : Call) : Prop :=
  (c.report cr r).error ≠ none →
    SameMemory (c.run cr r) r ∧ SameAnswers cr (c.run cr r) r ∧
    ∀ later : Call, later.request = c.request → later.report cr (c.run cr r) = later.report cr r

/-! ## What a call would store -/

/-- The registry has a file, and it cannot be written. -/
def Unwritable (r : Registry) : Write → Prop
  | .done => False
  | .failed _ => r.persistent = true

/-- `Import` would store the endpoint record. -/
def freshEndpoint (cr : Crypto) (r : Registry) (offer : Offered EndpointRecord) : Bool :=
  (verifyEndpointRecord cr offer.record offer.checked).isOk && !knownEndpoint r offer.record

/-- `Import` would store the service record. -/
def freshService (cr : Crypto) (r : Registry) (offer : Offered ServiceRecord) : Bool :=
  (verifyServiceRecord cr offer.record offer.checked).isOk &&
    !(offer.record.isPrivate || offer.record.isHidden || knownService r offer.record)

/-- The call has nothing to store that is not stored: a publication is refused or its record is the stored
one, and no record of an import is valid and newer than the stored one. -/
def Call.StoresNothing (cr : Crypto) (r : Registry) : Call → Prop
  | .publish rec checked _ _ _ =>
    (verifyEndpointRecord cr rec checked).isOk = true → staleEndpoint cr r rec = false →
      r.byNode.lookup rec.nodeID = some rec ∧ r.byName.lookup rec.nodeName = some rec
  | .publishService rec checked _ _ =>
    (verifyServiceRecord cr rec checked).isOk = true → rec.isPrivate = false → rec.isHidden = false →
      olderService r rec = false → r.serviceByName.lookup (serviceLookupKey rec) = some rec
  | .importRecords records serviceRecords _ _ =>
    (∀ offer ∈ records, freshEndpoint cr r offer = false) ∧
      ∀ offer ∈ serviceRecords, freshService cr r offer = false

section Exact

variable {cr : Crypto} {r next : Registry} {c : Call} {saved : Time}

theorem errorOf_saveLocked_iff (r : Registry) (now : Time) (write : Write) :
    errorOf (saveLocked r now write).2 ≠ none ↔ Unwritable r write := by
  unfold saveLocked
  cases write <;> cases hfile : r.persistent <;> simp [errorOf, Unwritable, hfile]

/-- A call after which the registry is the same. -/
theorem failsCleanly_of_run_eq (h : c.run cr r = r) : FailsCleanly cr r c := by
  intro _
  rw [h]
  exact ⟨.refl r, (SameMemory.refl r).answers cr, fun _ _ => rfl⟩

theorem sameMemory_saveLocked_iff (now : Time) (write : Write) :
    SameMemory (saveLocked next now write).1 r ↔ SameMemory next r := by
  have hmemory : (saveLocked next now write).1.byNode = next.byNode ∧
      (saveLocked next now write).1.byName = next.byName ∧
      (saveLocked next now write).1.serviceByName = next.serviceByName ∧
      (saveLocked next now write).1.addressHistory = next.addressHistory := by
    unfold saveLocked
    split_ifs
    · exact ⟨rfl, rfl, rfl, rfl⟩
    · cases write <;> exact ⟨rfl, rfl, rfl, rfl⟩
  obtain ⟨hnode, hname, hservice, hhistory⟩ := hmemory
  constructor
  · rintro ⟨h₁, h₂, h₃, h₄⟩
    exact ⟨hnode ▸ h₁, hname ▸ h₂, hservice ▸ h₃, hhistory ▸ h₄⟩
  · rintro ⟨h₁, h₂, h₃, h₄⟩
    exact ⟨hnode ▸ h₁, hname ▸ h₂, hservice ▸ h₃, hhistory ▸ h₄⟩

/-- A call that comes to writing the file: what it reports by the file, and what it leaves in memory. -/
theorem failsCleanly_iff_of_saved (hrun : c.run cr r = (saveLocked next saved c.write).1)
    (herror : (c.report cr r).error = errorOf (saveLocked next saved c.write).2)
    (hfile : next.persistent = r.persistent)
    (hlater : SameMemory (c.run cr r) r → (c.run cr r).persistent = r.persistent →
      ∀ later : Call, later.request = c.request → later.report cr (c.run cr r) = later.report cr r) :
    FailsCleanly cr r c ↔ (Unwritable r c.write → SameMemory next r) := by
  have hfails : (c.report cr r).error ≠ none ↔ Unwritable r c.write := by
    rw [herror, errorOf_saveLocked_iff]
    cases c.write <;> simp [Unwritable, hfile]
  have hsame : SameMemory (c.run cr r) r ↔ SameMemory next r := by
    rw [hrun, sameMemory_saveLocked_iff]
  unfold FailsCleanly
  rw [hfails]
  constructor
  · intro h hunwritable
    exact hsame.1 (h hunwritable).1
  · intro h hunwritable
    have hmemory := hsame.2 (h hunwritable)
    refine ⟨hmemory, hmemory.answers cr, hlater hmemory ?_⟩
    rw [hrun, saveLocked_persistent, hfile]

/-! ## Publications -/

theorem upsertEndpointLocked_byName (r : Registry) (rec : EndpointRecord) (now : Time) :
    (upsertEndpointLocked r rec now).byName.lookup rec.nodeName = some rec :=
  AList.lookup_insert _

/-- Storing a record leaves the memory as it is exactly when it is the stored one, under its identity and
under its name. -/
theorem sameMemory_upsertEndpointLocked_iff (r : Registry) (rec : EndpointRecord) (now : Time) :
    SameMemory (upsertEndpointLocked r rec now) r ↔
      r.byNode.lookup rec.nodeID = some rec ∧ r.byName.lookup rec.nodeName = some rec := by
  constructor
  · intro h
    rw [← h.byNode, ← h.byName]
    exact ⟨upsertEndpointLocked_lookup r rec now, upsertEndpointLocked_byName r rec now⟩
  · rintro ⟨hnode, hname⟩
    have hupsert : upsertEndpointLocked r rec now =
        { r with byName := r.byName.insert rec.nodeName rec, byNode := r.byNode.insert rec.nodeID rec } := by
      simp [upsertEndpointLocked, hnode]
    rw [hupsert]
    refine ⟨fun k => ?_, fun k => ?_, fun _ => rfl, fun _ => rfl⟩
    · rw [Dict.lookup_insert_eq]
      split_ifs with hk
      · rw [hk, hnode]
      · rfl
    · rw [Dict.lookup_insert_eq]
      split_ifs with hk
      · rw [hk, hname]
      · rfl

theorem sameMemory_putService_iff (r : Registry) (rec : ServiceRecord) :
    SameMemory (putService r rec) r ↔ r.serviceByName.lookup (serviceLookupKey rec) = some rec := by
  constructor
  · intro h
    rw [← h.serviceByName]
    exact AList.lookup_insert _
  · intro h
    refine ⟨fun _ => rfl, fun _ => rfl, fun k => ?_, fun _ => rfl⟩
    rw [putService, Dict.lookup_insert_eq]
    split_ifs with hk
    · rw [hk, h]
    · rfl

theorem staleEndpoint_congr {r' : Registry} (h : SameMemory r' r) (rec : EndpointRecord) :
    staleEndpoint cr r' rec = staleEndpoint cr r rec := by
  rw [staleEndpoint, staleEndpoint, h.byNode]

theorem olderService_congr {r' : Registry} (h : SameMemory r' r) (rec : ServiceRecord) :
    olderService r' rec = olderService r rec := by
  rw [olderService, olderService, h.serviceByName]

/-- A publication is refused, or comes to writing the file. -/
theorem handlePublish_cases (cr : Crypto) (r : Registry) (rec : EndpointRecord) (checked noted saved : Time)
    (write : Write) :
    ((handlePublish cr r rec checked noted saved write).1 = r ∧
      ((verifyEndpointRecord cr rec checked).isOk = true → staleEndpoint cr r rec = true)) ∨
    ((verifyEndpointRecord cr rec checked).isOk = true ∧ staleEndpoint cr r rec = false ∧
      handlePublish cr r rec checked noted saved write =
        ((saveLocked (upsertEndpointLocked r rec noted) saved write).1,
          (saveLocked (upsertEndpointLocked r rec noted) saved write).2.map fun _ => rec)) := by
  unfold handlePublish
  cases verifyEndpointRecord cr rec checked with
  | error e => exact .inl ⟨rfl, fun hok => by cases hok⟩
  | ok _ =>
    simp only
    split_ifs with hstale
    · exact .inl ⟨rfl, fun _ => hstale⟩
    · exact .inr ⟨rfl, Bool.eq_false_iff.2 hstale, rfl⟩

theorem failsCleanly_publish_iff (rec : EndpointRecord) (checked noted saved : Time) (write : Write) :
    FailsCleanly cr r (.publish rec checked noted saved write) ↔
      (Unwritable r write → Call.StoresNothing cr r (.publish rec checked noted saved write)) := by
  rcases handlePublish_cases cr r rec checked noted saved write with
    ⟨hrun, hrefused⟩ | ⟨hok, hstale, hresult⟩
  · refine iff_of_true (failsCleanly_of_run_eq hrun) fun _ hok hstale => ?_
    rw [hrefused hok] at hstale
    cases hstale
  · rw [failsCleanly_iff_of_saved (c := .publish rec checked noted saved write) (congrArg Prod.fst hresult) ?_
      (upsertEndpointLocked_persistent r rec noted) ?_, sameMemory_upsertEndpointLocked_iff]
    · simp only [Call.StoresNothing, Call.write, hok, hstale, forall_const]
    · simp only [Call.report, report, hresult, errorOf_map, Call.write]
    · -- what is stored for the node is as before, so the record is stale or not as before
      intro hsame hpersistent later hrequest
      cases later with
      | publish rec' checked' noted' saved' write' =>
        cases hrequest
        exact congrArg (report · [rec]) (handlePublish_result_congr (staleEndpoint_congr hsame rec)
          hpersistent checked' noted' saved' write')
      | _ => cases hrequest

/-- A publication of a service is refused, or comes to writing the file. -/
theorem handlePublishService_cases (cr : Crypto) (r : Registry) (rec : ServiceRecord)
    (checked saved : Time) (write : Write) :
    ((handlePublishService cr r rec checked saved write).1 = r ∧
      ((verifyServiceRecord cr rec checked).isOk = true → rec.isPrivate = false → rec.isHidden = false →
        olderService r rec = true)) ∨
    ((verifyServiceRecord cr rec checked).isOk = true ∧ rec.isPrivate = false ∧ rec.isHidden = false ∧
      olderService r rec = false ∧
      handlePublishService cr r rec checked saved write =
        ((saveLocked (putService r rec) saved write).1,
          (saveLocked (putService r rec) saved write).2.map fun _ => rec)) := by
  unfold handlePublishService
  cases verifyServiceRecord cr rec checked with
  | error e => exact .inl ⟨rfl, fun hok => by cases hok⟩
  | ok signed =>
    simp only
    split_ifs with hprivate hhidden holder
    · exact .inl ⟨rfl, fun _ hpublic => by rw [hprivate] at hpublic; cases hpublic⟩
    · exact .inl ⟨rfl, fun _ _ hshown => by rw [hhidden] at hshown; cases hshown⟩
    · exact .inl ⟨rfl, fun _ _ _ => holder⟩
    · exact .inr ⟨rfl, Bool.eq_false_iff.2 hprivate, Bool.eq_false_iff.2 hhidden,
        Bool.eq_false_iff.2 holder, rfl⟩

theorem failsCleanly_publishService_iff (rec : ServiceRecord) (checked saved : Time) (write : Write) :
    FailsCleanly cr r (.publishService rec checked saved write) ↔
      (Unwritable r write → Call.StoresNothing cr r (.publishService rec checked saved write)) := by
  rcases handlePublishService_cases cr r rec checked saved write with
    ⟨hrun, hrefused⟩ | ⟨hok, hprivate, hhidden, holder, hresult⟩
  · refine iff_of_true (failsCleanly_of_run_eq hrun) fun _ hok hprivate hhidden holder => ?_
    rw [hrefused hok hprivate hhidden] at holder
    cases holder
  · rw [failsCleanly_iff_of_saved (c := .publishService rec checked saved write)
      (congrArg Prod.fst hresult) ?_ rfl ?_, sameMemory_putService_iff]
    · simp only [Call.StoresNothing, Call.write, hok, hprivate, hhidden, holder, forall_const]
    · simp only [Call.report, report, hresult, errorOf_map, Call.write]
    · intro hsame hpersistent later hrequest
      cases later with
      | publishService rec' checked' saved' write' =>
        cases hrequest
        exact congrArg (report · []) (handlePublishService_result_congr (olderService_congr hsame rec)
          hpersistent checked' saved' write')
      | _ => cases hrequest

/-! ## Imports -/

section Marked

variable {σ α : Type} {step : σ × Bool → α → σ × Bool} {takes : σ → α → Bool} {take : σ → α → σ}

theorem foldl_marked
    (hstep : ∀ s marked a, step (s, marked) a = if takes s a then (take s a, true) else (s, marked))
    (items : List α) (s : σ) : (items.foldl step (s, true)).2 = true := by
  induction items generalizing s with
  | nil => rfl
  | cons a items ih =>
    rw [List.foldl_cons, hstep]
    split_ifs
    · exact ih _
    · exact ih s

/-- A loop that marks its state when it takes up an item ends unmarked exactly when its first state would take
up no item. -/
theorem foldl_unmarked_iff
    (hstep : ∀ s marked a, step (s, marked) a = if takes s a then (take s a, true) else (s, marked))
    (s : σ) (items : List α) :
    (items.foldl step (s, false)).2 = false ↔ ∀ a ∈ items, takes s a = false := by
  induction items with
  | nil => simp
  | cons a items ih =>
    rw [List.foldl_cons, hstep, List.forall_mem_cons]
    cases htakes : takes s a with
    | true => simp [foldl_marked hstep]
    | false => simpa using ih

end Marked

theorem importEndpoint_eq (cr : Crypto) (r : Registry) (changed : Bool) (offer : Offered EndpointRecord) :
    importEndpoint cr (r, changed) offer =
      if freshEndpoint cr r offer then (upsertEndpointLocked r offer.record offer.noted, true)
      else (r, changed) := by
  unfold importEndpoint freshEndpoint
  cases verifyEndpointRecord cr offer.record offer.checked with
  | error e => rfl
  | ok _ => cases knownEndpoint r offer.record <;> simp [Except.isOk, Except.toBool]

theorem importService_eq (cr : Crypto) (r : Registry) (changed : Bool) (offer : Offered ServiceRecord) :
    importService cr (r, changed) offer =
      if freshService cr r offer then (putService r offer.record, true) else (r, changed) := by
  unfold importService freshService
  cases verifyServiceRecord cr offer.record offer.checked with
  | error e => rfl
  | ok _ =>
    generalize (offer.record.isPrivate || offer.record.isHidden || knownService r offer.record) = skipped
    cases skipped <;> rfl

/-- Some record of the later registry is newer than what the earlier one has in its place. -/
inductive Advanced (r later : Registry) : Prop
  | endpoint {nodeID : String} {rec : EndpointRecord} (hlookup : later.byNode.lookup nodeID = some rec)
      (hnewer : ∀ old, r.byNode.lookup nodeID = some old → endpointRecordNewer rec old = true)
  | service {name : String} {rec : ServiceRecord} (hlookup : later.serviceByName.lookup name = some rec)
      (hnewer : ∀ old, r.serviceByName.lookup name = some old → issueTime old < issueTime rec)

theorem Advanced.not_sameMemory {later : Registry} (h : Advanced r later) : ¬ SameMemory later r := by
  intro hsame
  cases h with
  | endpoint hlookup hnewer =>
    have hself := hnewer _ (hsame.byNode _ ▸ hlookup)
    rw [endpointRecordNewer_self] at hself
    cases hself
  | service hlookup hnewer => exact lt_irrefl _ (hnewer _ (hsame.serviceByName _ ▸ hlookup))

/-- What an import has done so far: nothing, or some record is newer. -/
def ImportedFrom (r : Registry) (s : Registry × Bool) : Prop :=
  (s.2 = false → s.1 = r) ∧ (s.2 = true → Advanced r s.1)

theorem knownEndpoint_newer {rec old : EndpointRecord} (h : knownEndpoint r rec = false)
    (hlookup : r.byNode.lookup rec.nodeID = some old) : endpointRecordNewer rec old = true := by
  simpa [knownEndpoint, hlookup] using h

theorem ImportedFrom.importEndpoint {s : Registry × Bool} (h : ImportedFrom r s)
    (offer : Offered EndpointRecord) : ImportedFrom r (importEndpoint cr s offer) := by
  obtain ⟨state, changed⟩ := s
  rw [importEndpoint_eq]
  split_ifs with hfresh
  swap
  · exact h
  have hnew : knownEndpoint state offer.record = false := by
    simp only [freshEndpoint, Bool.and_eq_true, Bool.not_eq_true'] at hfresh
    exact hfresh.2
  refine ⟨fun hfalse => (by cases hfalse), fun _ => ?_⟩
  cases changed with
  | false =>
    -- the first record that is stored is newer than what the registry had
    obtain rfl : state = r := h.1 rfl
    exact .endpoint (upsertEndpointLocked_lookup state offer.record offer.noted)
      fun old hold => knownEndpoint_newer hnew hold
  | true =>
    cases h.2 rfl with
    | @endpoint nodeID rec hlookup hnewer =>
      by_cases hid : nodeID = offer.record.nodeID
      · subst hid
        exact .endpoint (upsertEndpointLocked_lookup state offer.record offer.noted)
          fun old hold => endpointRecordNewer_trans (knownEndpoint_newer hnew hlookup) (hnewer old hold)
      · refine .endpoint ?_ hnewer
        rw [upsertEndpointLocked_byNode, Dict.lookup_insert_eq, if_neg hid]
        exact hlookup
    | service hlookup hnewer =>
      exact .service (by rwa [upsertEndpointLocked_serviceByName]) hnewer

theorem ImportedFrom.importService {s : Registry × Bool} (h : ImportedFrom r s)
    (offer : Offered ServiceRecord) : ImportedFrom r (importService cr s offer) := by
  obtain ⟨state, changed⟩ := s
  rw [importService_eq]
  split_ifs with hfresh
  swap
  · exact h
  have hnew : knownService state offer.record = false := by
    simp only [freshService, Bool.and_eq_true, Bool.not_eq_true', Bool.or_eq_false_iff] at hfresh
    exact hfresh.2.2
  have hstored : (putService state offer.record).serviceByName.lookup (serviceLookupKey offer.record) =
      some offer.record := AList.lookup_insert _
  refine ⟨fun hfalse => (by cases hfalse), fun _ => ?_⟩
  cases changed with
  | false =>
    obtain rfl : state = r := h.1 rfl
    exact .service hstored fun old hold => issueTime_lt_of_not_known hnew hold
  | true =>
    cases h.2 rfl with
    | endpoint hlookup hnewer => exact .endpoint hlookup hnewer
    | @service name rec hlookup hnewer =>
      by_cases hname : name = serviceLookupKey offer.record
      · subst hname
        exact .service hstored
          fun old hold => (hnewer old hold).trans (issueTime_lt_of_not_known hnew hlookup)
      · refine .service ?_ hnewer
        rw [putService, Dict.lookup_insert_eq, if_neg hname]
        exact hlookup

/-- The loops of `Import`: the registry after them, and whether it was changed. -/
def importLoops (cr : Crypto) (r : Registry) (records : List (Offered EndpointRecord))
    (serviceRecords : List (Offered ServiceRecord)) : Registry × Bool :=
  serviceRecords.foldl (importService cr) (records.foldl (importEndpoint cr) (r, false))

theorem importedFrom_endpoints (cr : Crypto) (r : Registry) (records : List (Offered EndpointRecord)) :
    ImportedFrom r (records.foldl (importEndpoint cr) (r, false)) := by
  have hstart : ImportedFrom r (r, false) := ⟨fun _ => rfl, fun h => by cases h⟩
  exact List.foldlRecOn records _ hstart fun s hs offer _ => hs.importEndpoint offer

theorem importedFrom_importLoops (cr : Crypto) (r : Registry) (records : List (Offered EndpointRecord))
    (serviceRecords : List (Offered ServiceRecord)) :
    ImportedFrom r (importLoops cr r records serviceRecords) :=
  List.foldlRecOn serviceRecords _ (importedFrom_endpoints cr r records)
    fun _ hs offer _ => hs.importService offer

theorem importLoops_persistent (cr : Crypto) (r : Registry) (records : List (Offered EndpointRecord))
    (serviceRecords : List (Offered ServiceRecord)) :
    (importLoops cr r records serviceRecords).1.persistent = r.persistent := by
  have hendpoint : ∀ (s : Registry × Bool) (offer : Offered EndpointRecord),
      (importEndpoint cr s offer).1.persistent = s.1.persistent := by
    rintro ⟨state, changed⟩ offer
    rw [importEndpoint_eq]
    split_ifs
    · exact upsertEndpointLocked_persistent state offer.record offer.noted
    · rfl
  have hservice : ∀ (s : Registry × Bool) (offer : Offered ServiceRecord),
      (importService cr s offer).1.persistent = s.1.persistent := by
    rintro ⟨state, changed⟩ offer
    rw [importService_eq]
    split_ifs <;> rfl
  exact (foldl_same (p := fun s : Registry × Bool => s.1.persistent) hservice serviceRecords _).trans
    (foldl_same (p := fun s : Registry × Bool => s.1.persistent) hendpoint records (r, false))

/-- The loops change nothing exactly when the registry, as it is before them, would take up no record. -/
theorem importLoops_unchanged_iff (cr : Crypto) (r : Registry) (records : List (Offered EndpointRecord))
    (serviceRecords : List (Offered ServiceRecord)) :
    (importLoops cr r records serviceRecords).2 = false ↔
      (∀ offer ∈ records, freshEndpoint cr r offer = false) ∧
        ∀ offer ∈ serviceRecords, freshService cr r offer = false := by
  have hendpoints := foldl_unmarked_iff (importEndpoint_eq cr) r records
  have hsame := (importedFrom_endpoints cr r records).1
  unfold importLoops
  generalize records.foldl (importEndpoint cr) (r, false) = s at hendpoints hsame ⊢
  obtain ⟨state, changed⟩ := s
  cases changed with
  | false =>
    obtain rfl : state = r := hsame rfl
    rw [foldl_unmarked_iff (importService_eq cr) state serviceRecords]
    exact (and_iff_right (hendpoints.1 rfl)).symm
  | true =>
    rw [foldl_marked (importService_eq cr) serviceRecords state]
    exact iff_of_false (by decide) fun h => (by cases hendpoints.2 h.1)

theorem failsCleanly_importRecords_iff (records : List (Offered EndpointRecord))
    (serviceRecords : List (Offered ServiceRecord)) (saved : Time) (write : Write) :
    FailsCleanly cr r (.importRecords records serviceRecords saved write) ↔
      (Unwritable r write → Call.StoresNothing cr r (.importRecords records serviceRecords saved write)) := by
  have hloops := importedFrom_importLoops cr r records serviceRecords
  have hnothing := importLoops_unchanged_iff cr r records serviceRecords
  cases hchanged : (importLoops cr r records serviceRecords).2 with
  | false =>
    refine iff_of_true (failsCleanly_of_run_eq ?_) fun _ => hnothing.1 hchanged
    have hrun : Call.run cr r (.importRecords records serviceRecords saved write) =
        (importLoops cr r records serviceRecords).1 := by
      unfold importLoops at hchanged
      simp only [Call.run, importRecords, importLoops, hchanged, Bool.false_eq_true, if_false]
    rw [hrun, hloops.1 hchanged]
  | true =>
    -- a record that was stored is newer than what it replaced, so the memory cannot be as before
    have hadvanced := (hloops.2 hchanged).not_sameMemory
    have hresult : importRecords cr r records serviceRecords saved write =
        saveLocked (importLoops cr r records serviceRecords).1 saved write := by
      unfold importLoops at hchanged ⊢
      simp only [importRecords, hchanged, if_true]
    have hbrings : ¬ Call.StoresNothing cr r (.importRecords records serviceRecords saved write) := by
      intro h
      rw [hnothing.2 h] at hchanged
      cases hchanged
    have hrun : Call.run cr r (.importRecords records serviceRecords saved write) =
        (saveLocked (importLoops cr r records serviceRecords).1 saved write).1 := congrArg Prod.fst hresult
    rw [failsCleanly_iff_of_saved (c := .importRecords records serviceRecords saved write) hrun ?_
      (importLoops_persistent cr r records serviceRecords) fun hsame => ?_]
    · exact imp_congr_right fun _ => iff_of_false hadvanced hbrings
    · simp only [Call.report, report, hresult, Call.write]
    · rw [hrun, sameMemory_saveLocked_iff] at hsame
      exact absurd hsame hadvanced

end Exact

/-- When a call that reports an error has changed nothing in memory, nor in what is resolved or listed, nor
in how the same request is answered later: exactly when the file could be written or the call has nothing
to store. A publication has nothing to store when it is refused or its record is the stored one, an import
when none of its records is valid and newer than the stored one. -/
theorem failed_update_iff (cr : Crypto) (r : Registry) (c : Call) :
    FailsCleanly cr r c ↔ (Unwritable r c.write → c.StoresNothing cr r) := by
  cases c with
  | publish rec checked noted saved write => exact failsCleanly_publish_iff rec checked noted saved write
  | publishService rec checked saved write => exact failsCleanly_publishService_iff rec checked saved write
  | importRecords records serviceRecords saved write =>
    exact failsCleanly_importRecords_iff records serviceRecords saved write

/-! ## A record that could not be saved -/

/-- A registry with a path, before its first record. -/
def fileRegistry : Registry where
  persistent := true

section Unsaved

variable {cr : Crypto} {rec : EndpointRecord} {t : Time}

theorem importEndpoint_of_verified (hverified : verifyEndpointRecord cr rec t = .ok ()) (r : Registry)
    (changed : Bool) :
    importEndpoint cr (r, changed) ⟨rec, t, t⟩ =
      if knownEndpoint r rec then (r, changed) else (upsertEndpointLocked r rec t, true) := by
  simp only [importEndpoint, hverified]

/-- `Import` of one record. -/
def importOne (rec : EndpointRecord) (t : Time) (write : Write) :
    Call := .importRecords [⟨rec, t, t⟩] [] t write

/-- Importing a record into the new registry stores it. -/
theorem importOne_stored (hverified : verifyEndpointRecord cr rec t = .ok ()) (write : Write) :
    Call.run cr fileRegistry (importOne rec t write) =
        (saveLocked (upsertEndpointLocked fileRegistry rec t) t write).1 ∧
      Call.report cr fileRegistry (importOne rec t write) =
        report (saveLocked (upsertEndpointLocked fileRegistry rec t) t write).2 [rec] := by
  have hknown : ¬ knownEndpoint fileRegistry rec = true := Bool.false_ne_true
  simp only [Call.run, Call.report, importOne, importRecords, updatedEndpoints, List.foldl_cons,
    List.foldl_nil,
    importEndpoint_of_verified hverified, if_neg hknown, if_true]
  exact ⟨trivial, rfl⟩

/-- Importing a record that is stored does nothing. -/
theorem importOne_known {r : Registry} (hverified : verifyEndpointRecord cr rec t = .ok ())
    (hlookup : r.byNode.lookup rec.nodeID = some rec) (write : Write) :
    Call.run cr r (importOne rec t write) = r ∧ Call.report cr r (importOne rec t write) = ⟨none, []⟩ := by
  have hknown : knownEndpoint r rec = true := by
    simp [knownEndpoint, hlookup, endpointRecordNewer_self]
  simp only [Call.run, Call.report, importOne, importRecords, updatedEndpoints, List.foldl_cons,
    List.foldl_nil,
    importEndpoint_of_verified hverified, if_pos hknown]
  exact ⟨rfl, rfl⟩

/-- A stored record that verifies is resolved by its identity. -/
theorem resolve_of_lookup {r : Registry} (hverified : verifyEndpointRecord cr rec t = .ok ())
    (hlookup : r.byNode.lookup rec.nodeID = some rec) (hid : rec.nodeID ≠ "") :
    resolve cr r "" rec.nodeID t = .ok rec := by
  have hfind : findRecord r "" rec.nodeID = .ok (some rec) := by
    rw [findRecord, if_neg (not_not.2 rfl), if_pos hid, hlookup]
  simp only [resolve, hfind, hverified]

end Unsaved

/-- An endpoint record of the node `ALICE`. -/
def aliceEndpoint : EndpointRecord where
  nodeID := nodeIDFromPublicKey sampleCrypto (List.replicate 32 1)
  nodeName := "ALICE"
  address := "[2001:db8::1]:4242"
  publicKey := stdEncoding.encodeToString (List.replicate 32 1)
  issuedAt := "2024-06-01T00:00:00Z"
  expiresAt := "2024-12-01T00:00:00Z"
  signature := stdEncoding.encodeToString (List.replicate 64 0)

theorem aliceEndpoint_verified : verifyEndpointRecord sampleCrypto aliceEndpoint publishedAt = .ok () :=
  ok_of_isOk (by decide +kernel)

/-- An endpoint record of the node `BOB`. -/
def bobEndpoint : EndpointRecord where
  nodeID := nodeIDFromPublicKey sampleCrypto (List.replicate 32 2)
  nodeName := "BOB"
  address := "[2001:db8::2]:4242"
  publicKey := stdEncoding.encodeToString (List.replicate 32 2)
  issuedAt := "2024-06-01T00:00:00Z"
  expiresAt := "2024-12-01T00:00:00Z"
  signature := stdEncoding.encodeToString (List.replicate 64 0)

/-- A registry with a record of each of the two nodes. -/
def twoNodes : Registry :=
  upsertEndpointLocked (upsertEndpointLocked fileRegistry aliceEndpoint publishedAt) bobEndpoint publishedAt

/-- Beside a node with another name, the name resolves and has its identity. -/
theorem resolve_name_one_identity_alice :
    ∃ rec, resolve sampleCrypto twoNodes "alice" "" publishedAt = .ok rec ∧
      aliceEndpoint.nodeID = rec.nodeID := by
  have hresolve : resolve sampleCrypto twoNodes "alice" "" publishedAt = .ok aliceEndpoint := by
    decide +kernel
  have hname : normalizeNodeName "alice" = .ok "ALICE" := by decide
  have hids : aliceEndpoint.nodeID ≠ bobEndpoint.nodeID := by decide
  have hlookup : twoNodes.byNode.lookup aliceEndpoint.nodeID = some aliceEndpoint := by
    rw [twoNodes, upsertEndpointLocked_byNode, Dict.lookup_insert_eq, if_neg hids]
    exact upsertEndpointLocked_lookup fileRegistry aliceEndpoint publishedAt
  exact ⟨_, hresolve, resolve_name_one_identity hname (by decide) hresolve hlookup rfl⟩

/-- The import fails and its record resolves all the same. Repeating it reports success, writes no file and
tells the observer nothing, though without the failed one it would have told of the record. -/
theorem import_lost :
    let unsaved := importOne aliceEndpoint publishedAt (.failed none)
    let again := importOne aliceEndpoint publishedAt .done
    let left := Call.run sampleCrypto fileRegistry unsaved
    Call.report sampleCrypto fileRegistry unsaved = ⟨some .save, []⟩ ∧
    resolve sampleCrypto fileRegistry "" aliceEndpoint.nodeID publishedAt = .error .notFound ∧
    resolve sampleCrypto left "" aliceEndpoint.nodeID publishedAt = .ok aliceEndpoint ∧
    Call.report sampleCrypto left again = ⟨none, []⟩ ∧
    (Call.run sampleCrypto left again).file.isNone = true ∧
    Call.report sampleCrypto fileRegistry again = ⟨none, [aliceEndpoint]⟩ := by
  intro unsaved again left
  have hleft : left = { upsertEndpointLocked fileRegistry aliceEndpoint publishedAt with file := none } :=
    (importOne_stored aliceEndpoint_verified (.failed none)).1
  have hlookup : left.byNode.lookup aliceEndpoint.nodeID = some aliceEndpoint := by
    rw [hleft]
    exact upsertEndpointLocked_lookup fileRegistry aliceEndpoint publishedAt
  obtain ⟨hrun, hreport⟩ := importOne_known aliceEndpoint_verified hlookup .done
  have hid : aliceEndpoint.nodeID ≠ "" := by decide
  refine ⟨(importOne_stored aliceEndpoint_verified (.failed none)).2, ?_,
    resolve_of_lookup aliceEndpoint_verified hlookup hid, hreport, ?_,
    (importOne_stored aliceEndpoint_verified .done).2⟩
  · have hfind : findRecord fileRegistry "" aliceEndpoint.nodeID = .ok none := by
      rw [findRecord, if_neg (not_not.2 rfl), if_pos hid]
      rfl
    simp only [resolve, hfind]
  · rw [hrun, hleft]
    rfl

end Vx6.Discovery
