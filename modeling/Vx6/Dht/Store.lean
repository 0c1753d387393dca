import Vx6.Dht.ValueOrder
import Vx6.Lib.Dict
import Vx6.Lib.Run

/-!
# The value store

The part of `dht.Server` that holds values: the in-memory map, the version log of each key, the
persisted rows and the store rate counters, with `AttachValuePersistence`, `admitStoreValue` and
`storeValidated`. The clock and the outcome of each `PutValue` are arguments.

`storeValidated_step` says once what a call can do; every result about the store is derived from it.
-/

set_option autoImplicit false

namespace Vx6.Dht

open Vx6.Go Vx6.Lib Vx6.Record

/-! ## State -/

/-- `StoredVersion`. -/
structure StoredVersion where
  family : String := ""
  fingerprint : String := ""
  publisherNodeID : String := ""
  version : UInt64 := 0
  issuedAt : String := ""
  expiresAt : String := ""
  deriving DecidableEq, Repr

/-- `StoredValueState`. -/
structure StoredValueState where
  current : StoredVersion := {}
  previous : List StoredVersion := []
  conflicts : List StoredVersion := []
  deriving DecidableEq, Repr

/-- `rateWindow`. -/
structure RateWindow where
  windowStart : Time := zeroTime
  count : Int := 0
  deriving DecidableEq, Repr

/-- The fields of `Server` that hold values. `rows` is the content of the attached value
persistence, if there is one. -/
structure Server where
  values : Dict String String := ∅
  versions : Dict String StoredValueState := ∅
  rows : Option (Dict String String) := none
  storeRates : Dict String RateWindow := ∅

/-- `storedVersionFromValidated`. -/
def storedVersionFromValidated (value : ValidatedValue) : StoredVersion :=
  { family := value.family
    fingerprint := value.fingerprint
    publisherNodeID := value.publisherNodeID
    version := value.version
    issuedAt := formatRFC3339 value.issuedAt
    expiresAt := formatRFC3339 value.expiresAt }

/-! ## The version log -/

/-- `maxTrackedVersions`. -/
def maxTrackedVersions : Nat := 6

/-- The fields by which `appendBoundedVersion` recognises a version it already holds. -/
def StoredVersion.mark (v : StoredVersion) : String × UInt64 × String :=
  (v.fingerprint, v.version, v.publisherNodeID)

/-- `appendBoundedVersion`: the oldest entries fall out. -/
def appendBoundedVersion (values : List StoredVersion) (incoming : StoredVersion) :
    List StoredVersion :=
  if values.any fun existing => existing.mark = incoming.mark then values
  else (values ++ [incoming]).drop (values.length + 1 - maxTrackedVersions)

/-- The server with another log for a key. -/
def setState (s : Server) (key : String) (state : StoredValueState) : Server :=
  { s with versions := s.versions.insert key state }

/-- `recordVersionLocked`. An incoming value with an empty text leaves the log alone. -/
def recordVersionLocked (s : Server) (key : String) (previous incoming : ValidatedValue)
    (changed : Bool) : Server :=
  let state := (s.versions.lookup key).getD {}
  if incoming.raw = "" then s
  else if changed then
    setState s key
      { state with
        previous :=
          if previous.raw ≠ "" then
            appendBoundedVersion state.previous (storedVersionFromValidated previous)
          else state.previous
        current := storedVersionFromValidated incoming }
  else if state.current.fingerprint = "" then
    setState s key { state with current := storedVersionFromValidated incoming }
  else s

/-- `recordConflictLocked`. -/
def recordConflictLocked (s : Server) (key : String) (incoming : ValidatedValue) : Server :=
  let state := (s.versions.lookup key).getD {}
  if incoming.raw = "" then s
  else
    setState s key
      { state with
        conflicts := appendBoundedVersion state.conflicts (storedVersionFromValidated incoming) }

/-! ## Storing -/

/-- Whether a change is written to the value persistence. -/
def persists (s : Server) (key : String) (incoming : ValidatedValue) : Bool :=
  s.rows.isSome && incoming.verified && !hasPrefix key "hidden-desc/v1/"

/-- The row and the map entry of a change. -/
def writeValue (s : Server) (key chosen : String) (incoming : ValidatedValue) : Server :=
  { s with
    rows := if persists s key incoming then s.rows.map fun rows => rows.insert key chosen else s.rows
    values := s.values.insert key chosen }

/-- The results of `storeValidated`. -/
structure StoreResult where
  chosen : String
  changed : Bool
  err : Option StoreError

/-- `storeValidated`; `putOk` says whether a `PutValue` made by the call succeeds. -/
def storeValidated (rt : Runtime) (s : Server) (key value : String) (now : Time) (putOk : Bool) :
    Server × StoreResult :=
  let current := (s.values.lookup key).getD ""
  let choice := chooseStoredValue rt key current value now
  match choice.err with
  | some e =>
      (if choice.incoming.raw ≠ "" then recordConflictLocked s key choice.incoming else s,
        ⟨current, false, some e⟩)
  | none =>
      if choice.changed then
        if persists s key choice.incoming && !putOk then (s, ⟨current, false, some .persist⟩)
        else
          (recordVersionLocked (writeValue s key choice.chosen choice.incoming) key choice.previous
            choice.incoming true, ⟨choice.chosen, true, none⟩)
      else
        (recordVersionLocked s key choice.previous choice.incoming false,
          ⟨choice.chosen, false, none⟩)

/-! ## Persistence -/

/-- Whether `AttachValuePersistence` keeps a row. -/
def keepsRow (rt : Runtime) (now : Time) (key raw : String) : Bool :=
  !hasPrefix key "hidden-desc/v1/" &&
    match validateLookupValue rt key raw now with
    | .ok value => value.verified
    | .error _ => false

/-- The log of a row that is kept. -/
def loadedState (rt : Runtime) (now : Time) (key raw : String) : StoredValueState :=
  match validateLookupValue rt key raw now with
  | .ok value => { current := storedVersionFromValidated value }
  | .error _ => {}

/-- `AttachValuePersistence` on a server without values, when the deletions of refused rows
succeed: the rows that are kept become the values and the version log. -/
def attachValuePersistence (rt : Runtime) (rows : Dict String String) (now : Time) : Server :=
  let valid := rows.filter (keepsRow rt now)
  { values := valid
    versions := valid.mapVal (loadedState rt now)
    rows := some valid }

/-! ## Admission -/

/-- The reasons for which a store request is refused. -/
inductive AdmitError where
  | rateLimit (key host : String)
  | familyRateLimit (key host : String)
  | invalid (e : ValueError)
  | nonAuthoritative (key : String)
  | stale (key : String)
  deriving DecidableEq, Repr

/-- `hiddenDescriptorStoreRateWindow`. -/
def hiddenDescriptorStoreRateWindow : Duration := 30 * second

/-- `hiddenDescriptorStoreRateLimit`. -/
def hiddenDescriptorStoreRateLimit : Int := 24

/-- `storeFamily`. -/
def storeFamily (key : String) : String :=
  if hasPrefix key "node/name/" then "node"
  else if hasPrefix key "node/id/" then "node"
  else if hasPrefix key "service/" then "service"
  else if hasPrefix key "private-catalog/" then "private-catalog"
  else if hasPrefix key "hidden-desc/v1/" then "hidden-desc"
  else "other"

/-- `allowRateWindowLocked`: the counters after the request, and whether it is allowed. -/
def allowRateWindowLocked (rates : Dict String RateWindow) (key : String) (now : Time)
    (window : Duration) (limit : Int) : Dict String RateWindow × Bool :=
  let counter := (rates.lookup key).getD {}
  if isZero counter.windowStart || window ≤ sub now counter.windowStart then
    (rates.insert key ⟨now, 1⟩, true)
  else if limit ≤ counter.count then (rates, false)
  else (rates.insert key { counter with count := counter.count + 1 }, true)

/-- `allowStoreRequest`. -/
def allowStoreRequest (s : Server) (remoteAddr key : String) (trusted : Bool) (now : Time) :
    Server × Except AdmitError Unit :=
  let window := hiddenDescriptorStoreRateWindow
  let limit := if trusted then hiddenDescriptorStoreRateLimit else hiddenDescriptorStoreRateLimit * 2
  let host := trim (match splitHostPort remoteAddr with
    | some (h, _) => h
    | none => remoteAddr) "[]"
  let rates := s.storeRates.filter fun _ counter => !decide (window * 2 < sub now counter.windowStart)
  match allowRateWindowLocked rates ("store\n" ++ host ++ "\n" ++ key) now window limit with
  | (rates, false) => ({ s with storeRates := rates }, .error (.rateLimit key host))
  | (rates, true) =>
      match allowRateWindowLocked rates ("store-family\n" ++ host ++ "\n" ++ storeFamily key) now
          window (limit * 2) with
      | (rates, false) => ({ s with storeRates := rates }, .error (.familyRateLimit key host))
      | (rates, true) => ({ s with storeRates := rates }, .ok ())

/-- `rejectStaleStoreValue`. -/
def rejectStaleStoreValue (rt : Runtime) (s : Server) (key value : String) (now : Time) :
    Except AdmitError Unit :=
  match validateLookupValue rt key value now with
  | .error e => .error (.invalid e)
  | .ok incomingValue =>
      let current := (s.values.lookup key).getD ""
      if current = "" then .ok ()
      else
        match validateLookupValue rt key current now with
        | .error _ => .ok ()
        | .ok currentValue =>
            if !currentValue.verified || !incomingValue.verified then .ok ()
            else if currentValue.family ≠ incomingValue.family then .ok ()
            else if !isNewerValue incomingValue currentValue then .error (.stale key)
            else .ok ()

/-- The checks `admitStoreValue` adds for trusted keys. -/
def admitTrusted (rt : Runtime) (s : Server) (key value : String) (now : Time) :
    Except AdmitError Unit :=
  match validateLookupValue rt key value now with
  | .error e => .error (.invalid e)
  | .ok incomingValue =>
      if incomingValue.verified && incomingValue.enveloped && !incomingValue.authoritativePublisher
      then .error (.nonAuthoritative key)
      else rejectStaleStoreValue rt s key value now

/-- `admitStoreValue`. -/
def admitStoreValue (rt : Runtime) (s : Server) (remoteAddr key value : String) (now : Time) :
    Server × Except AdmitError Unit :=
  let trusted := isTrustedLookupKey key
  match allowStoreRequest s remoteAddr key trusted now with
  | (s, .error e) => (s, .error e)
  | (s, .ok ()) => if trusted then (s, admitTrusted rt s key value now) else (s, .ok ())

/-! ## What one call does -/

section Step

variable {rt : Runtime} {s : Server} {key value : String} {now : Time}

/-- The value a key holds that still validates. An empty text counts as no value. -/
def Holds (rt : Runtime) (s : Server) (key : String) (now : Time) (v : ValidatedValue) : Prop :=
  ∃ raw, s.values.lookup key = some raw ∧ raw ≠ "" ∧ validateLookupValue rt key raw now = .ok v

/-- Why an incoming value replaces what a key holds, and the value recorded as the previous one:
there is nothing valid to keep, or the values are unverified and differ, or they are of one family
and the incoming one is newer. -/
inductive Replaces (rt : Runtime) (s : Server) (key value : String) (now : Time)
    (w : ValidatedValue) : ValidatedValue → Prop
  | fresh (h : ∀ v, ¬ Holds rt s key now v) : Replaces rt s key value now w {}
  | unverified (v : ValidatedValue) (h : Holds rt s key now v)
      (hw : w.verified = false ∨ v.verified = false) : Replaces rt s key value now w v
  | newer (v : ValidatedValue) (h : Holds rt s key now v) (hw : w.verified = true)
      (hv : v.verified = true) (hfamily : v.family = w.family)
      (hfp : w.fingerprint ≠ v.fingerprint) (hnewer : Newer w v) : Replaces rt s key value now w v

/-- Why a valid incoming value does not replace the value a key holds. -/
inductive Keeps (rt : Runtime) (s : Server) (key value : String) (now : Time)
    (v w : ValidatedValue) : Prop
  | repeated (h : s.values.lookup key = some value) (hw : w.verified = false)
  | older (hw : w.verified = true) (hv : v.verified = true) (hfamily : v.family = w.family)
      (h : w.fingerprint = v.fingerprint ∨ ¬ Newer w v)

/-- What a call of `storeValidated` can do to the server, with the error it returns. -/
inductive StoreStep (rt : Runtime) (s : Server) (key value : String) (now : Time) (putOk : Bool) :
    Server → Option StoreError → Prop
  | invalid (e : ValueError) (h : validateLookupValue rt key value now = .error e) :
      StoreStep rt s key value now putOk s (some (.invalid e))
  | conflict (v w : ValidatedValue) (hv : Holds rt s key now v)
      (hw : validateLookupValue rt key value now = .ok w) (hvv : v.verified = true)
      (hwv : w.verified = true) (hfamily : v.family ≠ w.family) :
      StoreStep rt s key value now putOk (recordConflictLocked s key w)
        (some (.conflict v.family w.family))
  | unpersisted (w previous : ValidatedValue) (hw : validateLookupValue rt key value now = .ok w)
      (h : Replaces rt s key value now w previous) (hput : putOk = false) :
      StoreStep rt s key value now putOk s (some .persist)
  | replaced (w previous : ValidatedValue) (hw : validateLookupValue rt key value now = .ok w)
      (h : Replaces rt s key value now w previous) :
      StoreStep rt s key value now putOk
        (recordVersionLocked (writeValue s key value w) key previous w true) none
  | kept (v w : ValidatedValue) (hv : Holds rt s key now v)
      (hw : validateLookupValue rt key value now = .ok w) (h : Keeps rt s key value now v w) :
      StoreStep rt s key value now putOk (recordVersionLocked s key v w false) none

theorem current_eq_empty_or_holds :
    ((s.values.lookup key).getD "" = "" ∧ ∀ v, ¬ Holds rt s key now v) ∨
      s.values.lookup key = some ((s.values.lookup key).getD "") ∧
        (s.values.lookup key).getD "" ≠ "" := by
  cases h : s.values.lookup key with
  | none =>
    refine Or.inl ⟨rfl, ?_⟩
    rintro v ⟨raw, hraw, -⟩
    rw [h] at hraw
    cases hraw
  | some raw =>
    by_cases hr : raw = ""
    · refine Or.inl ⟨hr, ?_⟩
      rintro v ⟨raw', hraw, hne, -⟩
      rw [h] at hraw
      cases hraw
      exact hne hr
    · exact Or.inr ⟨rfl, hr⟩

/-- The choice for a valid incoming value, in the three ways it can end. -/
theorem chooseStoredValue_cases {w : ValidatedValue}
    (hw : validateLookupValue rt key value now = .ok w) :
    (∃ previous, Replaces rt s key value now w previous ∧
      chooseStoredValue rt key ((s.values.lookup key).getD "") value now =
        ⟨value, true, previous, w, none⟩) ∨
    (∃ v, Holds rt s key now v ∧ v.verified = true ∧ w.verified = true ∧ v.family ≠ w.family ∧
      chooseStoredValue rt key ((s.values.lookup key).getD "") value now =
        ⟨(s.values.lookup key).getD "", false, v, w, some (.conflict v.family w.family)⟩) ∨
    ∃ v, Holds rt s key now v ∧ Keeps rt s key value now v w ∧
      chooseStoredValue rt key ((s.values.lookup key).getD "") value now =
        ⟨(s.values.lookup key).getD "", false, v, w, none⟩ := by
  unfold chooseStoredValue
  simp only [hw]
  rcases @current_eq_empty_or_holds rt s key now with ⟨hempty, hnone⟩ | ⟨hsome, hne⟩
  · rw [if_pos hempty]
    exact Or.inl ⟨{}, .fresh hnone, rfl⟩
  · rw [if_neg hne]
    cases hv : validateLookupValue rt key ((s.values.lookup key).getD "") now with
    | error e =>
      refine Or.inl ⟨{}, .fresh ?_, rfl⟩
      rintro v ⟨raw, hraw, -, hval⟩
      rw [hraw] at hv
      simp only [Option.getD_some, hval] at hv
      cases hv
    | ok v =>
      have hholds : Holds rt s key now v := ⟨_, hsome, hne, hv⟩
      unfold chooseValidated
      cases hwv : w.verified with
      | false =>
        by_cases heq : (s.values.lookup key).getD "" = value
        · exact Or.inr (Or.inr ⟨v, hholds, .repeated (heq ▸ hsome) hwv, by simp [heq]⟩)
        · exact Or.inl ⟨v, .unverified v hholds (Or.inl hwv), by simp [heq]⟩
      | true =>
        cases hvv : v.verified with
        | false => exact Or.inl ⟨v, .unverified v hholds (Or.inr hvv), by simp [hvv]⟩
        | true =>
          by_cases hfam : v.family = w.family
          · by_cases hfp : w.fingerprint = v.fingerprint
            · refine Or.inr (Or.inr ⟨v, hholds, .older hwv hvv hfam (Or.inl hfp), ?_⟩)
              simp [hvv, hfam, hfp]
            · by_cases hnew : Newer w v
              · refine Or.inl ⟨v, .newer v hholds hwv hvv hfam hfp hnew, ?_⟩
                simp [hvv, hfam, hfp, show isNewerValue w v = true from hnew]
              · refine Or.inr (Or.inr ⟨v, hholds, .older hwv hvv hfam (Or.inr hnew), ?_⟩)
                have hnew' : isNewerValue w v = false := Bool.eq_false_iff.2 hnew
                simp [hvv, hfam, hfp, hnew']
          · exact Or.inr (Or.inl ⟨v, hholds, hvv, rfl, hfam, by simp [hvv, hfam]⟩)

theorem not_holds_empty_text {v w : ValidatedValue} (hv : Holds rt s key now v)
    (hvv : v.verified = true) (hw : validateLookupValue rt key value now = .ok w) : w.raw ≠ "" := by
  obtain ⟨raw, -, -, hval⟩ := hv
  have hk : keyFamily key ≠ .other := by
    simpa [hvv] using (validateLookupValue_verified hval).symm
  refine validateLookupValue_raw_ne hw ?_
  rintro rfl
  exact validateLookupValue_empty hk hw

/-- A call does one of the things `StoreStep` lists. -/
theorem storeValidated_step (putOk : Bool) :
    StoreStep rt s key value now putOk (storeValidated rt s key value now putOk).1
      (storeValidated rt s key value now putOk).2.err := by
  cases hw : validateLookupValue rt key value now with
  | error e =>
    simp only [storeValidated, chooseStoredValue, hw]
    exact .invalid e hw
  | ok w =>
    rcases chooseStoredValue_cases (s := s) hw with
      ⟨previous, hrep, hc⟩ | ⟨v, hholds, hvv, hwv, hfam, hc⟩ | ⟨v, hholds, hkeeps, hc⟩
    · simp only [storeValidated, hc, if_true]
      split_ifs with hput
      · rw [Bool.and_eq_true, Bool.not_eq_true'] at hput
        exact .unpersisted w previous hw hrep hput.2
      · exact .replaced w previous hw hrep
    · simp only [storeValidated, hc, if_pos (not_holds_empty_text hholds hvv hw)]
      exact .conflict v w hholds hw hvv hwv hfam
    · simp only [storeValidated, hc]
      exact .kept v w hholds hw hkeeps

end Step

/-! ## What an update leaves alone -/

section Frame

variable {s : Server} {key k : String} {previous incoming : ValidatedValue} {changed : Bool}

@[simp] theorem allowStoreRequest_values {remoteAddr : String} {trusted : Bool} {now : Time} :
    (allowStoreRequest s remoteAddr key trusted now).1.values = s.values := by
  simp only [allowStoreRequest]
  split
  · rfl
  · split <;> rfl

@[simp] theorem setState_versions (s : Server) (key k : String) (state : StoredValueState) :
    (setState s key state).versions.lookup k =
      if k = key then some state else s.versions.lookup k :=
  Dict.lookup_insert_eq _ _ _ _

@[simp] theorem recordVersionLocked_values :
    (recordVersionLocked s key previous incoming changed).values = s.values := by
  simp only [recordVersionLocked]
  split_ifs <;> rfl

@[simp] theorem recordConflictLocked_values :
    (recordConflictLocked s key incoming).values = s.values := by
  simp only [recordConflictLocked]
  split_ifs <;> rfl

@[simp] theorem recordConflictLocked_rows :
    (recordConflictLocked s key incoming).rows = s.rows := by
  simp only [recordConflictLocked]
  split_ifs <;> rfl

@[simp] theorem writeValue_values (s : Server) (key k chosen : String) (w : ValidatedValue) :
    (writeValue s key chosen w).values.lookup k = if k = key then some chosen else s.values.lookup k :=
  Dict.lookup_insert_eq _ _ _ _

@[simp] theorem writeValue_versions (s : Server) (key chosen : String) (w : ValidatedValue) :
    (writeValue s key chosen w).versions = s.versions := rfl

/-- The first valid value of a key is stored. -/
theorem storeValidated_of_absent {rt : Runtime} {value : String} {now : Time} {w : ValidatedValue}
    (hnone : s.values.lookup key = none) (hrows : s.rows = none)
    (hw : validateLookupValue rt key value now = .ok w) (putOk : Bool) :
    (storeValidated rt s key value now putOk).1.values.lookup key = some value := by
  simp [storeValidated, chooseStoredValue, hw, hnone, persists, hrows]

/-- A bounded list holds the mark it was asked to append. -/
theorem exists_mark_appendBoundedVersion (values : List StoredVersion) (v : StoredVersion) :
    ∃ u ∈ appendBoundedVersion values v, u.mark = v.mark := by
  unfold appendBoundedVersion
  split_ifs with h
  · obtain ⟨u, hu, hm⟩ := List.any_eq_true.1 h
    exact ⟨u, hu, by simpa using hm⟩
  · refine ⟨v, ?_, rfl⟩
    rw [List.drop_append_of_le_length (by simp [maxTrackedVersions])]
    simp

theorem length_appendBoundedVersion (values : List StoredVersion) (v : StoredVersion)
    (h : values.length ≤ maxTrackedVersions) :
    (appendBoundedVersion values v).length ≤ maxTrackedVersions := by
  unfold appendBoundedVersion
  split_ifs
  · exact h
  · rw [List.length_drop, List.length_append, List.length_singleton]
    omega

theorem nodup_appendBoundedVersion (values : List StoredVersion) (v : StoredVersion)
    (h : (values.map StoredVersion.mark).Nodup) :
    ((appendBoundedVersion values v).map StoredVersion.mark).Nodup := by
  unfold appendBoundedVersion
  split_ifs with hany
  · exact h
  · rw [List.map_drop]
    refine List.Nodup.sublist (List.drop_sublist _ _) ?_
    rw [List.map_append, List.nodup_append]
    refine ⟨h, by simp, ?_⟩
    intro m hm m' hm' he
    obtain ⟨u, hu, rfl⟩ := List.mem_map.1 hm
    rw [List.map_singleton, List.mem_singleton] at hm'
    subst hm'
    exact hany (List.any_eq_true.2 ⟨u, hu, by simpa using he⟩)

end Frame

end Vx6.Dht
