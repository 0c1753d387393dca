import Vx6.Lib.Dict
import Vx6.Lib.Run
import Vx6.Record.Service

/-!
# The registry

`internal/discovery/discovery.go`: the shared registry of endpoint and service records, with
publication, `Import` and resolution. The clock each time it is read and the outcome of writing the
registry file are arguments.

A service is stored under its full name, whoever signed it, and replaced by any record that is not
older (`publish_service`) or newer (`Import`) by the issue times that the signers chose. So the
owner of a name stays its owner while the records of others for the name are issued before the
stored one (`service_owner_kept`), and loses it to a record dated in the future
(`service_name_taken`). Names of nodes are resolved differently: `resolve_name_one_identity`.
-/

set_option autoImplicit false

namespace Vx6.Discovery

open Vx6.Go Vx6.Lib Vx6.Record

/-! ## State -/

/-- `addressObservation`. -/
structure AddressObservation where
  address : String
  observed : Time
  deriving DecidableEq

/-- The contents of the registry file. -/
structure RegistryFile where
  records : List EndpointRecord
  serviceRecords : List ServiceRecord
  localHistory : Dict String (List AddressObservation)

/-- `Registry`. A registry with a path is `persistent`; `file` is what stands there. -/
structure Registry where
  persistent : Bool := false
  byName : Dict String EndpointRecord := ∅
  byNode : Dict String EndpointRecord := ∅
  serviceByName : Dict String ServiceRecord := ∅
  addressHistory : Dict String (List AddressObservation) := ∅
  file : Option RegistryFile := none

/-- The errors of the registry. -/
inductive RegistryError where
  | record (e : RecordError)
  /-- `new record does not advance the stored record sequence` -/
  | notAdvanced
  /-- `private services are not published through the shared registry` -/
  | privateService
  /-- `hidden services are not published through the shared registry` -/
  | hiddenService
  /-- `new service record is older than stored record` -/
  | older
  /-- `service record not found` -/
  | serviceNotFound
  /-- `stored service record invalid: %v` -/
  | serviceInvalid (e : RecordError)
  /-- `node name %q has multiple identities; resolve by NodeID` -/
  | multipleIdentities (name : String)
  /-- `resolve requires name or node_id` -/
  | noQuery
  /-- `record not found` -/
  | notFound
  /-- `stored record invalid: %v` -/
  | invalid (e : RecordError)
  /-- The registry file could not be written. -/
  | save
  deriving DecidableEq

/-! ## Address history -/

/-- `localAddressHistoryTTL`. -/
def localAddressHistoryTTL : Duration := 30 * 24 * hour

/-- `maxLocalAddressHistory`. -/
def maxLocalAddressHistory : Nat := 3

/-- The observations that `cleanAddressHistory` may keep. -/
def keepsObservation (now : Time) (item : AddressObservation) : Bool :=
  !(item.address = "" || isZero item.observed ||
    decide (localAddressHistoryTTL < sub now item.observed)) &&
    (validateIPv6Address item.address).isOk

/-- `cleanAddressHistory` for one node: the first observations of the first addresses. -/
def cleanEntries (entries : List AddressObservation) (now : Time) : List AddressObservation :=
  entries.foldl (fun kept item =>
    if kept.length < maxLocalAddressHistory && keepsObservation now item &&
        item.address ∉ kept.map AddressObservation.address then kept ++ [item]
    else kept) []

/-- `cleanAddressHistory`. -/
def cleanAddressHistory (input : Dict String (List AddressObservation)) (now : Time) :
    Dict String (List AddressObservation) :=
  (input.mapVal fun _ entries => cleanEntries entries now).filter fun _ entries => !entries.isEmpty

/-- `rememberAddressLocked`. -/
def rememberAddressLocked (r : Registry) (nodeID address : String) (now : Time) : Registry :=
  if address = "" then r
  else
    let history := cleanEntries ((r.addressHistory.lookup nodeID).getD []) now
    let history := ⟨address, now⟩ :: history.eraseP fun item => item.address = address
    { r with addressHistory := r.addressHistory.insert nodeID (history.take maxLocalAddressHistory) }

/-! ## Storing -/

/-- How writing the registry file ends, and what a failure leaves there. -/
inductive Write where
  | done
  | failed (left : Option RegistryFile)

/-- The values of a map in the order of its keys. -/
def sortedValues {α : Type} (m : Dict String α) : List α :=
  (m.keys.insertionSort (· ≤ ·)).filterMap m.lookup

/-- `Snapshot`. -/
def snapshot (r : Registry) : List EndpointRecord × List ServiceRecord :=
  (sortedValues r.byNode, sortedValues r.serviceByName)

/-- `saveLocked`. -/
def saveLocked (r : Registry) (now : Time) (write : Write) : Registry × Except RegistryError Unit :=
  if !r.persistent then (r, .ok ())
  else
    match write with
    | .failed left => ({ r with file := left }, .error .save)
    | .done =>
      ({ r with file := some ⟨(snapshot r).1, (snapshot r).2, cleanAddressHistory r.addressHistory now⟩ },
        .ok ())

/-- `upsertEndpointLocked`. -/
def upsertEndpointLocked (r : Registry) (rec : EndpointRecord) (now : Time) : Registry :=
  let r := match r.byNode.lookup rec.nodeID with
    | none => r
    | some existing =>
      let r := if existing.address ≠ rec.address then
          rememberAddressLocked r rec.nodeID existing.address now
        else r
      if existing.nodeName ≠ "" && existing.nodeName ≠ rec.nodeName &&
          ((r.byName.lookup existing.nodeName).getD {}).nodeID = rec.nodeID then
        { r with byName := r.byName.erase existing.nodeName }
      else r
  { r with byName := r.byName.insert rec.nodeName rec, byNode := r.byNode.insert rec.nodeID rec }

/-- A record that is offered to the registry, with the time at which it is verified and the time at
which it is stored. -/
structure Offered (α : Type) where
  record : α
  checked : Time
  noted : Time

/-- The issue time that the registry compares. -/
def issueTime (rec : ServiceRecord) : Time := (parseRFC3339 rec.issuedAt).getD zeroTime

section Requests

variable (cr : Crypto)

/-- The stored endpoint of the node is not advanced by the record, and is another one: `handlePublish`. -/
def staleEndpoint (r : Registry) (rec : EndpointRecord) : Bool :=
  match r.byNode.lookup rec.nodeID with
  | some existing => !endpointRecordNewer rec existing && fingerprint cr rec ≠ fingerprint cr existing
  | none => false

/-- `handlePublish`. -/
def handlePublish (r : Registry) (rec : EndpointRecord) (checked noted saved : Time) (write : Write) :
    Registry × Except RegistryError EndpointRecord :=
  match verifyEndpointRecord cr rec checked with
  | .error e => (r, .error (.record e))
  | .ok () =>
    if staleEndpoint cr r rec then (r, .error .notAdvanced)
    else
      let result := saveLocked (upsertEndpointLocked r rec noted) saved write
      (result.1, result.2.map fun _ => rec)

/-- A service record under its name. -/
def putService (r : Registry) (rec : ServiceRecord) : Registry :=
  { r with serviceByName := r.serviceByName.insert (serviceLookupKey rec) rec }

/-- The stored record of the name was issued after the record: `handlePublishService`. -/
def olderService (r : Registry) (rec : ServiceRecord) : Bool :=
  match r.serviceByName.lookup (serviceLookupKey rec) with
  | some existing => decide (issueTime rec < issueTime existing)
  | none => false

/-- `handlePublishService`. -/
def handlePublishService (r : Registry) (rec : ServiceRecord) (checked saved : Time) (write : Write) :
    Registry × Except RegistryError ServiceRecord :=
  match verifyServiceRecord cr rec checked with
  | .error e => (r, .error (.record e))
  | .ok _ =>
    if rec.isPrivate then (r, .error .privateService)
    else if rec.isHidden then (r, .error .hiddenService)
    else if olderService r rec then (r, .error .older)
    else
      let result := saveLocked (putService r rec) saved write
      (result.1, result.2.map fun _ => rec)

/-- The stored endpoint of the node is not advanced by the record: `Import`. -/
def knownEndpoint (r : Registry) (rec : EndpointRecord) : Bool :=
  match r.byNode.lookup rec.nodeID with
  | some existing => !endpointRecordNewer rec existing
  | none => false

/-- `Import` for one endpoint record, and whether it changed anything. -/
def importEndpoint (s : Registry × Bool) (offer : Offered EndpointRecord) : Registry × Bool :=
  match verifyEndpointRecord cr offer.record offer.checked with
  | .error _ => s
  | .ok () =>
    if knownEndpoint s.1 offer.record then s
    else (upsertEndpointLocked s.1 offer.record offer.noted, true)

/-- The record was not issued after the stored one of the name: `Import`. -/
def knownService (r : Registry) (rec : ServiceRecord) : Bool :=
  match r.serviceByName.lookup (serviceLookupKey rec) with
  | some existing => !decide (issueTime existing < issueTime rec)
  | none => false

/-- `Import` for one service record, and whether it changed anything. -/
def importService (s : Registry × Bool) (offer : Offered ServiceRecord) : Registry × Bool :=
  match verifyServiceRecord cr offer.record offer.checked with
  | .error _ => s
  | .ok _ =>
    if offer.record.isPrivate || offer.record.isHidden || knownService s.1 offer.record then s
    else (putService s.1 offer.record, true)

/-- `Import`. -/
def importRecords (r : Registry) (records : List (Offered EndpointRecord))
    (serviceRecords : List (Offered ServiceRecord)) (saved : Time) (write : Write) :
    Registry × Except RegistryError Unit :=
  let imported := serviceRecords.foldl (importService cr) (records.foldl (importEndpoint cr) (r, false))
  if imported.2 then saveLocked imported.1 saved write else (imported.1, .ok ())

/-! ## Resolving -/

/-- `handleResolveService`. -/
def handleResolveService (r : Registry) (service : String) (now : Time) :
    Except RegistryError ServiceRecord :=
  match r.serviceByName.lookup (canonicalServiceLookupKey service) with
  | none => .error .serviceNotFound
  | some rec =>
    match verifyServiceRecord cr rec now with
    | .error e => .error (.serviceInvalid e)
    | .ok _ => .ok rec

/-- The loop of `resolve` over the records of a name, in the order in which the map yields them. -/
def pickNamed (name : String) :
    List EndpointRecord → Option EndpointRecord → Except RegistryError (Option EndpointRecord)
  | [], found => .ok found
  | candidate :: rest, found =>
    if candidate.nodeName ≠ name then pickNamed name rest found
    else
      match found with
      | some rec =>
        if rec.nodeID ≠ candidate.nodeID then .error (.multipleIdentities name)
        else pickNamed name rest (some candidate)
      | none => pickNamed name rest (some candidate)

/-- The record that `resolve` finds. -/
def findRecord (r : Registry) (name nodeID : String) : Except RegistryError (Option EndpointRecord) :=
  if name ≠ "" then
    match normalizeNodeName name with
    | .error e => .error (.record e)
    | .ok canonical => pickNamed canonical (r.byNode.entries.map fun e => e.2) none
  else if nodeID ≠ "" then .ok (r.byNode.lookup nodeID)
  else .error .noQuery

/-- `resolve`. -/
def resolve (r : Registry) (name nodeID : String) (now : Time) : Except RegistryError EndpointRecord :=
  match findRecord r name nodeID with
  | .error e => .error e
  | .ok none => .error .notFound
  | .ok (some rec) =>
    match verifyEndpointRecord cr rec now with
    | .error e => .error (.invalid e)
    | .ok () => .ok rec

end Requests

/-- A service that resolves is the stored one. -/
theorem lookup_of_resolveService {cr : Crypto} {r : Registry} {service : String} {now : Time}
    {found : ServiceRecord} (h : handleResolveService cr r service now = .ok found) :
    r.serviceByName.lookup (canonicalServiceLookupKey service) = some found := by
  unfold handleResolveService at h
  split at h
  · cases h
  · rename_i rec hlookup
    split at h
    · cases h
    · cases h
      exact hlookup

/-- A public record that verifies and is not older than the stored one is stored. -/
theorem handlePublishService_stored {cr : Crypto} {r : Registry} {rec : ServiceRecord}
    {checked saved : Time}
    {write : Write} (hverified : (verifyServiceRecord cr rec checked).isOk = true)
    (hprivate : rec.isPrivate = false) (hhidden : rec.isHidden = false) (hnew : olderService r rec = false)
    (hplain : r.persistent = false) :
    handlePublishService cr r rec checked saved write = (putService r rec, .ok rec) := by
  cases hverify : verifyServiceRecord cr rec checked with
  | error e =>
    rw [hverify] at hverified
    cases hverified
  | ok signed =>
    have hsave : saveLocked (putService r rec) saved write = (putService r rec, .ok ()) :=
      if_pos (by simp [putService, hplain])
    simp only [handlePublishService, hverify, hprivate, hhidden, hnew, hsave]
    rfl

/-- A stored service that verifies resolves. -/
theorem resolveService_of_lookup {cr : Crypto} {r : Registry} {service : String} {now : Time}
    {rec : ServiceRecord} (hlookup : r.serviceByName.lookup (canonicalServiceLookupKey service) = some rec)
    (hverified : (verifyServiceRecord cr rec now).isOk = true) :
    handleResolveService cr r service now = .ok rec := by
  unfold handleResolveService
  rw [hlookup]
  cases hverify : verifyServiceRecord cr rec now with
  | error e =>
    rw [hverify] at hverified
    cases hverified
  | ok signed => simp only [hverify]

/-! ## Names of nodes -/

/-- The records of a name that the loop of `resolve` accepts all have the identity that it finds. -/
theorem pickNamed_one_identity {name : String} {rec : EndpointRecord} :
    ∀ {candidates : List EndpointRecord} {found : Option EndpointRecord},
      pickNamed name candidates found = .ok (some rec) →
        (∀ c ∈ candidates, c.nodeName = name → c.nodeID = rec.nodeID) ∧
          ∀ rec' ∈ found, rec'.nodeID = rec.nodeID := by
  intro candidates
  induction candidates with
  | nil =>
    intro found h
    cases h
    exact ⟨nofun, fun rec' hrec' => by cases hrec'; rfl⟩
  | cons c rest ih =>
    intro found h
    unfold pickNamed at h
    split_ifs at h with hname
    · obtain ⟨hrest, hfound⟩ := ih h
      exact ⟨List.forall_mem_cons.2 ⟨fun hc => absurd hc hname, hrest⟩, hfound⟩
    · -- the candidate has the name, so it must have the identity that was found before
      have hkeep : pickNamed name rest (some c) = .ok (some rec) →
          (∀ x ∈ c :: rest, x.nodeName = name → x.nodeID = rec.nodeID) ∧ c.nodeID = rec.nodeID := by
        intro h'
        obtain ⟨hrest, hfound⟩ := ih h'
        have hc := hfound c rfl
        exact ⟨List.forall_mem_cons.2 ⟨fun _ => hc, hrest⟩, hc⟩
      cases found with
      | none => exact ⟨(hkeep h).1, nofun⟩
      | some rec' =>
        simp only at h
        split_ifs at h with hid
        obtain ⟨hall, hc⟩ := hkeep h
        refine ⟨hall, fun x hx => ?_⟩
        cases hx
        exact (not_not.1 hid).trans hc

/-- A node name that resolves has one identity in the registry. -/
theorem resolve_name_one_identity {cr : Crypto} {r : Registry} {name canonical nodeID : String}
    {now : Time}
    {rec : EndpointRecord} (hname : normalizeNodeName name = .ok canonical) (hne : name ≠ "")
    (h : resolve cr r name nodeID now = .ok rec) {key : String} {other : EndpointRecord}
    (hother : r.byNode.lookup key = some other) (hsame : other.nodeName = canonical) :
    other.nodeID = rec.nodeID := by
  have hpick : pickNamed canonical (r.byNode.entries.map fun e => e.2) none = .ok (some rec) := by
    simp only [resolve, findRecord, if_pos hne, hname] at h
    split at h
    · cases h
    · cases h
    · rename_i found hfind
      split at h
      · cases h
      · cases h
        exact hfind
  have hmem : other ∈ r.byNode.entries.map fun e => e.2 :=
    List.mem_map.2 ⟨⟨key, other⟩, AList.mem_lookup_iff.1 hother, rfl⟩
  exact (pickNamed_one_identity hpick).1 other hmem hsame

/-! ## Runs -/

/-- The requests and calls that change a registry. -/
inductive Call where
  | publish (rec : EndpointRecord) (checked noted saved : Time) (write : Write)
  | publishService (rec : ServiceRecord) (checked saved : Time) (write : Write)
  | importRecords (records : List (Offered EndpointRecord)) (serviceRecords : List (Offered ServiceRecord))
      (saved : Time) (write : Write)

/-- The registry after a call. -/
def Call.run (cr : Crypto) (r : Registry) : Call → Registry
  | .publish rec checked noted saved write => (handlePublish cr r rec checked noted saved write).1
  | .publishService rec checked saved write => (handlePublishService cr r rec checked saved write).1
  | .importRecords records serviceRecords saved write =>
    (Discovery.importRecords cr r records serviceRecords saved write).1

/-- The service records that a call offers. -/
def Call.offers : Call → List ServiceRecord
  | .publish _ _ _ _ _ => []
  | .publishService rec _ _ _ => [rec]
  | .importRecords _ serviceRecords _ _ => serviceRecords.map Offered.record

/-! ## Owners of services -/

section Owners

variable {cr : Crypto} {r : Registry} {rec : ServiceRecord} {name owner : String} {t : Time}

@[simp] theorem saveLocked_serviceByName (r : Registry) (now : Time) (write : Write) :
    (saveLocked r now write).1.serviceByName = r.serviceByName := by
  unfold saveLocked
  split_ifs
  · rfl
  · split <;> rfl

@[simp] theorem upsertEndpointLocked_serviceByName (r : Registry) (rec : EndpointRecord) (now : Time) :
    (upsertEndpointLocked r rec now).serviceByName = r.serviceByName := by
  unfold upsertEndpointLocked rememberAddressLocked
  cases r.byNode.lookup rec.nodeID with
  | none => rfl
  | some existing =>
    simp only
    split_ifs <;> rfl

/-- The record is signed by the identity. -/
structure IssuedBy (cr : Crypto) (rec : ServiceRecord) (owner : String) : Prop where
  nodeID : rec.nodeID = owner
  signed : Nonempty (SignedText cr owner (serviceSigningPayload rec) rec.publicKey rec.signature)

theorem issuedBy_of_verified {now : Time} (h : (verifyServiceRecord cr rec now).isOk = true) :
    IssuedBy cr rec rec.nodeID := by
  cases hverify : verifyServiceRecord cr rec now with
  | error e =>
    rw [hverify] at h
    cases h
  | ok signed => exact ⟨rfl, ⟨signed⟩⟩

/-- The name is stored with a record of the owner that was not issued before the given time. -/
def Owned (cr : Crypto) (name owner : String) (t : Time) (r : Registry) : Prop :=
  ∃ rec, r.serviceByName.lookup name = some rec ∧ IssuedBy cr rec owner ∧ t ≤ issueTime rec

/-- A record of another identity for the name was issued before the given time. -/
def Predates (name owner : String) (t : Time) (rec : ServiceRecord) : Prop :=
  serviceLookupKey rec = name → rec.nodeID ≠ owner → issueTime rec < t

/-- A record of another identity for the name was issued before the one that is stored. -/
def YieldsTo (name owner : String) (r : Registry) (rec : ServiceRecord) : Prop :=
  ∀ stored, r.serviceByName.lookup name = some stored → Predates name owner (issueTime stored) rec

theorem Owned.congr {r' : Registry} (h : Owned cr name owner t r)
    (hsame : r'.serviceByName = r.serviceByName) : Owned cr name owner t r' := by
  unfold Owned
  rwa [hsame]

/-- Storing a record that verifies and is not older than the one it replaces. -/
theorem Owned.putService (h : Owned cr name owner t r) (hsigned : IssuedBy cr rec rec.nodeID)
    (hyields : Predates name owner t rec)
    (hage : ∀ existing, r.serviceByName.lookup (serviceLookupKey rec) = some existing →
      issueTime existing ≤ issueTime rec) :
    Owned cr name owner t (putService r rec) := by
  obtain ⟨existing, hlookup, hissued, ht⟩ := h
  by_cases hkey : serviceLookupKey rec = name
  · subst hkey
    have hnew : t ≤ issueTime rec := ht.trans (hage existing hlookup)
    have howner : rec.nodeID = owner := by
      by_contra hother
      exact absurd hnew (not_le.2 (hyields rfl hother))
    subst howner
    exact ⟨rec, AList.lookup_insert _, hsigned, hnew⟩
  · refine ⟨existing, ?_, hissued, ht⟩
    rw [Discovery.putService, Dict.lookup_insert_eq, if_neg (Ne.symm hkey)]
    exact hlookup

theorem issueTime_le_of_not_older (h : olderService r rec = false) {existing : ServiceRecord}
    (hlookup : r.serviceByName.lookup (serviceLookupKey rec) = some existing) :
    issueTime existing ≤ issueTime rec := by
  simpa [olderService, hlookup] using h

theorem issueTime_lt_of_not_known (h : knownService r rec = false) {existing : ServiceRecord}
    (hlookup : r.serviceByName.lookup (serviceLookupKey rec) = some existing) :
    issueTime existing < issueTime rec := by
  simpa [knownService, hlookup] using h

theorem Owned.handlePublishService (h : Owned cr name owner t r) (hyields : Predates name owner t rec)
    (checked saved : Time) (write : Write) :
    Owned cr name owner t (handlePublishService cr r rec checked saved write).1 := by
  unfold Discovery.handlePublishService
  split
  · exact h
  · rename_i signed hverify
    split_ifs with hprivate hhidden holder
    · exact h
    · exact h
    · exact h
    · refine Owned.congr (h.putService ⟨rfl, ⟨signed⟩⟩ hyields fun existing hlookup => ?_)
        (saveLocked_serviceByName _ _ _)
      exact issueTime_le_of_not_older (Bool.eq_false_iff.2 holder) hlookup

theorem Owned.importService {s : Registry × Bool} {offer : Offered ServiceRecord}
    (h : Owned cr name owner t s.1) (hyields : Predates name owner t offer.record) :
    Owned cr name owner t (importService cr s offer).1 := by
  unfold Discovery.importService
  split
  · exact h
  · rename_i signed hverify
    split_ifs with hskip
    · exact h
    · refine h.putService ⟨rfl, ⟨signed⟩⟩ hyields fun existing hlookup => ?_
      simp only [Bool.or_eq_true, not_or, Bool.not_eq_true] at hskip
      exact (issueTime_lt_of_not_known hskip.2 hlookup).le

theorem importEndpoint_serviceByName (cr : Crypto) (s : Registry × Bool) (offer : Offered EndpointRecord) :
    (importEndpoint cr s offer).1.serviceByName = s.1.serviceByName := by
  unfold importEndpoint
  split
  · rfl
  · split_ifs
    · rfl
    · exact upsertEndpointLocked_serviceByName _ _ _

theorem handlePublish_serviceByName (cr : Crypto) (r : Registry) (rec : EndpointRecord)
    (checked noted saved : Time) (write : Write) :
    (handlePublish cr r rec checked noted saved write).1.serviceByName = r.serviceByName := by
  unfold handlePublish
  split
  · rfl
  · split_ifs
    · rfl
    · exact (saveLocked_serviceByName _ _ _).trans (upsertEndpointLocked_serviceByName _ _ _)

theorem Owned.importRecords (h : Owned cr name owner t r) (records : List (Offered EndpointRecord))
    {serviceRecords : List (Offered ServiceRecord)}
    (hyields : ∀ offer ∈ serviceRecords, Predates name owner t offer.record) (saved : Time)
    (write : Write) :
    Owned cr name owner t (importRecords cr r records serviceRecords saved write).1 := by
  have hendpoints : Owned cr name owner t (records.foldl (importEndpoint cr) (r, false)).1 :=
    h.congr (foldl_same (p := fun s : Registry × Bool => s.1.serviceByName)
      (importEndpoint_serviceByName cr) records (r, false))
  have hservices : ∀ (offers : List (Offered ServiceRecord)) (s : Registry × Bool),
      (∀ offer ∈ offers, Predates name owner t offer.record) → Owned cr name owner t s.1 →
        Owned cr name owner t (offers.foldl (Discovery.importService cr) s).1 := by
    intro offers
    induction offers with
    | nil => exact fun s _ hs => hs
    | cons offer offers ih =>
      intro s hoffers hs
      rw [List.forall_mem_cons] at hoffers
      exact ih _ hoffers.2 (hs.importService hoffers.1)
  have himported := hservices serviceRecords _ hyields hendpoints
  unfold Discovery.importRecords
  simp only
  split_ifs
  · exact himported.congr (saveLocked_serviceByName _ _ _)
  · exact himported

theorem Owned.run_of_predates (h : Owned cr name owner t r) (c : Call)
    (hyields : ∀ rec ∈ c.offers, Predates name owner t rec) : Owned cr name owner t (c.run cr r) := by
  cases c with
  | publish rec checked noted saved write =>
    exact h.congr (handlePublish_serviceByName cr r rec checked noted saved write)
  | publishService rec checked saved write =>
    exact h.handlePublishService (hyields rec List.mem_cons_self) checked saved write
  | importRecords records serviceRecords saved write =>
    refine h.importRecords records (fun offer hoffer => ?_) saved write
    exact hyields offer.record (List.mem_map_of_mem hoffer)

/-- One call keeps the owner. -/
theorem Owned.run (h : Owned cr name owner t r) (c : Call)
    (hyields : ∀ rec ∈ c.offers, YieldsTo name owner r rec) : Owned cr name owner t (c.run cr r) := by
  obtain ⟨stored, hlookup, hissued, ht⟩ := h
  -- the stored record can be replaced within the call, but only by one that is not older
  have hstored : Owned cr name owner (issueTime stored) r := ⟨stored, hlookup, hissued, le_refl _⟩
  obtain ⟨rec, hrec, hsigned, hle⟩ :=
    hstored.run_of_predates c fun offered hoffered => hyields offered hoffered stored hlookup
  exact ⟨rec, hrec, hsigned, ht.trans hle⟩

end Owners

/-- The owner of a service name stays its owner. In every run of publications and imports in which
each record of another identity for the name was issued before the record that is stored when the
call comes in, the stored record stays one that the owner signed, and resolving the name finds no
other. -/
theorem service_owner_kept {cr : Crypto} {start r : Registry} {name owner : String}
    {stored : ServiceRecord}
    (hstored : start.serviceByName.lookup name = some stored) (howner : IssuedBy cr stored owner)
    (hrun : Reach (fun r c => some (Call.run cr r c))
      (fun before c => ∀ rec ∈ c.offers, YieldsTo name owner before rec) start r) :
    (∃ rec, r.serviceByName.lookup name = some rec ∧ IssuedBy cr rec owner ∧
      issueTime stored ≤ issueTime rec) ∧
    ∀ service now found, canonicalServiceLookupKey service = name →
      handleResolveService cr r service now = .ok found → IssuedBy cr found owner := by
  have howned : Owned cr name owner (issueTime stored) r := by
    refine Reach.invariant ?_ hrun ⟨stored, hstored, howner, le_refl _⟩
    intro s c s' hs hyields hstep
    cases hstep
    exact hs.run c hyields
  refine ⟨howned, fun service now found hservice hresolve => ?_⟩
  obtain ⟨rec, hlookup, hissued, -⟩ := howned
  have hfound := lookup_of_resolveService hresolve
  rw [hservice, hlookup, Option.some.injEq] at hfound
  exact hfound ▸ hissued

/-! ## Samples -/

/-- Signatures that all verify, and a hash that tells the keys of the samples apart. -/
def sampleCrypto : Crypto where
  sha256 bs := Vector.replicate 32 (bs.headD 0)
  ed25519Verify _ _ _ := true

/-- The service `web` of a node with the name `ALICE`, by the identity with the given key. -/
def webService (key : UInt8) (issuedAt expiresAt : String) : ServiceRecord where
  nodeID := nodeIDFromPublicKey sampleCrypto (List.replicate 32 key)
  nodeName := "ALICE"
  serviceName := "web"
  address := "[2001:db8::1]:80"
  publicKey := stdEncoding.encodeToString (List.replicate 32 key)
  issuedAt := issuedAt
  expiresAt := expiresAt
  signature := stdEncoding.encodeToString (List.replicate 64 0)

/-- The record of the owner. -/
def ownerService : ServiceRecord := webService 1 "2024-06-01T00:00:00Z" "2024-12-01T00:00:00Z"

/-- The record of another identity, dated in the future. -/
def futureService : ServiceRecord := webService 2 "2030-01-01T00:00:00Z" "2031-01-01T00:00:00Z"

/-- 2024-07-01T00:00:00Z, when both records are in force. -/
def publishedAt : Time := 1719792000 * second

/-- The registry after the owner published. -/
def ownedRegistry : Registry :=
    (handlePublishService sampleCrypto {} ownerService publishedAt publishedAt .done).1

theorem ownerService_verified :
    (verifyServiceRecord sampleCrypto ownerService publishedAt).isOk = true := by
  decide +kernel

theorem futureService_verified :
    (verifyServiceRecord sampleCrypto futureService publishedAt).isOk = true := by
  decide +kernel

/-- Every sample is stored under the same name. -/
theorem webService_key (key : UInt8) (issuedAt expiresAt : String) :
    serviceLookupKey (webService key issuedAt expiresAt) = "ALICE.web" := by
  have hkey : serviceLookupKey (webService key issuedAt expiresAt) = fullServiceName "ALICE" "web" :=
    if_neg Bool.false_ne_true
  rw [hkey]
  decide

theorem ownedRegistry_eq : ownedRegistry = putService {} ownerService := by
  have hpublished : handlePublishService sampleCrypto {} ownerService publishedAt publishedAt .done =
      (putService {} ownerService, .ok ownerService) :=
    handlePublishService_stored ownerService_verified rfl rfl rfl rfl
  rw [ownedRegistry, hpublished]

theorem ownedRegistry_lookup : ownedRegistry.serviceByName.lookup "ALICE.web" = some ownerService := by
  rw [ownedRegistry_eq, putService, ownerService, webService_key]
  exact AList.lookup_insert _

/-- The record with which the owner replaces its first one. -/
def renewedService : ServiceRecord := webService 1 "2024-06-20T00:00:00Z" "2024-12-01T00:00:00Z"

/-- The record of another identity, issued between the two of the owner. -/
def lateService : ServiceRecord := webService 2 "2024-06-10T00:00:00Z" "2024-12-01T00:00:00Z"

theorem renewedService_published :
    Call.run sampleCrypto ownedRegistry (.publishService renewedService publishedAt publishedAt .done) =
      putService ownedRegistry renewedService := by
  have hnew : olderService ownedRegistry renewedService = false := by
    rw [olderService, renewedService, webService_key, ownedRegistry_lookup]
    decide
  have hverified : (verifyServiceRecord sampleCrypto renewedService publishedAt).isOk = true := by
    decide +kernel
  exact congrArg Prod.fst (handlePublishService_stored hverified rfl rfl hnew
    (by rw [ownedRegistry_eq]; rfl))

/-- The owner renews its record; then another identity publishes one for the name that is newer than
the first record of the owner and older than the renewed one. -/
theorem service_owner_kept_sample :
    ∃ rec, (Call.run sampleCrypto (putService ownedRegistry renewedService)
        (.publishService lateService publishedAt publishedAt .done)).serviceByName.lookup "ALICE.web" =
          some rec ∧
      IssuedBy sampleCrypto rec ownerService.nodeID ∧ issueTime ownerService ≤ issueTime rec := by
  have hrenewed : ∀ rec ∈ [renewedService],
      YieldsTo "ALICE.web" ownerService.nodeID ownedRegistry rec :=
    List.forall_mem_singleton.2 fun _ _ _ hother => absurd rfl hother
  have hlate : ∀ rec ∈ [lateService],
      YieldsTo "ALICE.web" ownerService.nodeID (putService ownedRegistry renewedService) rec := by
    refine List.forall_mem_singleton.2 fun stored hstored _ _ => ?_
    have hlookup : (putService ownedRegistry renewedService).serviceByName.lookup "ALICE.web" =
        some renewedService := by
      rw [putService, show serviceLookupKey renewedService = "ALICE.web" from webService_key _ _ _]
      exact AList.lookup_insert _
    rw [hlookup, Option.some.injEq] at hstored
    rw [← hstored]
    decide
  refine (service_owner_kept ownedRegistry_lookup (issuedBy_of_verified ownerService_verified)
    (.tail (.single ⟨.publishService renewedService publishedAt publishedAt .done, hrenewed, ?_⟩)
      ⟨.publishService lateService publishedAt publishedAt .done, hlate, rfl⟩)).1
  exact congrArg some renewedService_published

/-- Another identity publishes a record for the name that is dated in the future, and resolving the
name finds it, without a conflict, while the record of the owner is in force. -/
theorem service_name_taken :
    ownedRegistry.serviceByName.lookup "ALICE.web" = some ownerService ∧
    (verifyServiceRecord sampleCrypto ownerService publishedAt).isOk = true ∧
    futureService.nodeID ≠ ownerService.nodeID ∧
    (handlePublishService sampleCrypto ownedRegistry futureService publishedAt publishedAt .done).2 =
      .ok futureService ∧
    handleResolveService sampleCrypto
      (handlePublishService sampleCrypto ownedRegistry futureService publishedAt publishedAt
        .done).1 "ALICE.web"
      publishedAt = .ok futureService := by
  have hnew : olderService ownedRegistry futureService = false := by
    rw [olderService, futureService, webService_key, ownedRegistry_lookup]
    decide
  have hpublished : handlePublishService sampleCrypto ownedRegistry futureService publishedAt
    publishedAt .done =
      (putService ownedRegistry futureService, .ok futureService) :=
    handlePublishService_stored futureService_verified rfl rfl hnew (by rw [ownedRegistry_eq]; rfl)
  refine ⟨ownedRegistry_lookup, ownerService_verified, by decide, by rw [hpublished], ?_⟩
  rw [hpublished]
  refine resolveService_of_lookup ?_ futureService_verified
  rw [show canonicalServiceLookupKey "ALICE.web" = serviceLookupKey futureService from by
    rw [futureService, webService_key]; decide]
  exact AList.lookup_insert _

end Vx6.Discovery
