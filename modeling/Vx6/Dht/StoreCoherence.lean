import Vx6.Dht.StoreSafety

/-!
# Coherence of memory, version log and disk

`storeValidated` updates three stores in sequence: the persisted row, the in-memory value and the
version log. `store_coherent` shows that they agree in every state reached from
`AttachValuePersistence` on an empty server, whatever the calls and whichever `PutValue` fails, as
long as no call stores the empty text under a key of no record family. `empty_text_incoherent` shows
that such a call leaves the log behind.
-/

set_option autoImplicit false

namespace Vx6.Dht

open Vx6.Go Vx6.Lib Vx6.Record

/-- A call of `storeValidated` on any key. -/
structure KeyedCall extends StoreCall where
  key : String

/-- The server after a call. -/
def keyedCall (rt : Runtime) (s : Server) (c : KeyedCall) : Option Server :=
  some (storeValidated rt s c.key c.value c.now c.putOk).1

/-- The call does not store the empty text under a key of no record family. -/
def StoresText (_ : Server) (c : KeyedCall) : Prop := c.value ≠ "" ∨ keyFamily c.key ≠ .other

/-- The keys whose values are written to the value persistence. -/
def persistable (key : String) : Bool :=
  keyFamily key ≠ .other && !hasPrefix key "hidden-desc/v1/"

/-- A log that is bounded and has no duplicates. -/
def BoundedLog (l : List StoredVersion) : Prop :=
  l.length ≤ maxTrackedVersions ∧ (l.map StoredVersion.mark).Nodup

/-- The log of a key describes the text the key holds. -/
def Describes (rt : Runtime) (key raw : String) (state : StoredValueState) : Prop :=
  ∃ now v, validateLookupValue rt key raw now = .ok v ∧
    state.current = storedVersionFromValidated v

/-- Memory, version log and disk agree. -/
structure Coherent (rt : Runtime) (s : Server) : Prop where
  current : ∀ key raw, s.values.lookup key = some raw →
    ∃ state, s.versions.lookup key = some state ∧ Describes rt key raw state
  absent : ∀ key, s.values.lookup key = none → s.versions.lookup key = none
  disk : ∃ rows, s.rows = some rows ∧
    ∀ key, rows.lookup key = if persistable key then s.values.lookup key else none
  bounded : ∀ key state, s.versions.lookup key = some state →
    BoundedLog state.previous ∧ BoundedLog state.conflicts

theorem BoundedLog.append {l : List StoredVersion} (h : BoundedLog l) (v : StoredVersion) :
    BoundedLog (appendBoundedVersion l v) :=
  ⟨length_appendBoundedVersion l v h.1, nodup_appendBoundedVersion l v h.2⟩

theorem BoundedLog.nil : BoundedLog [] := ⟨Nat.zero_le _, List.nodup_nil⟩

section Coherence

variable {rt : Runtime} {s : Server} {key value : String} {now : Time}

/-- The rows that are kept make a coherent server. -/
theorem attachValuePersistence_coherent (rt : Runtime) (rows : Dict String String) (now : Time) :
    Coherent rt (attachValuePersistence rt rows now) := by
  have hkept : ∀ key raw, (rows.filter (keepsRow rt now)).lookup key = some raw →
      keepsRow rt now key raw = true := by
    intro key raw h
    rw [Dict.lookup_filter, Option.filter_eq_some_iff] at h
    exact h.2
  constructor
  · intro key raw hraw
    have hk := hkept key raw hraw
    refine ⟨loadedState rt now key raw, ?_, ?_⟩
    · show (Dict.mapVal _ _).lookup key = _
      rw [Dict.lookup_mapVal, show (rows.filter _).lookup key = some raw from hraw]
      rfl
    · simp only [keepsRow, Bool.and_eq_true] at hk
      cases hv : validateLookupValue rt key raw now with
      | error e => simp [hv] at hk
      | ok v => exact ⟨now, v, hv, by simp [loadedState, hv]⟩
  · intro key hnone
    show (Dict.mapVal _ _).lookup key = _
    rw [Dict.lookup_mapVal, show (rows.filter _).lookup key = none from hnone]
    rfl
  · refine ⟨_, rfl, fun key => ?_⟩
    cases hp : persistable key with
    | true => rfl
    | false =>
      cases hr : (rows.filter (keepsRow rt now)).lookup key with
      | none => simp
      | some raw =>
        have hk := hkept key raw hr
        simp only [keepsRow, Bool.and_eq_true] at hk
        cases hv : validateLookupValue rt key raw now with
        | error e => simp [hv] at hk
        | ok v =>
          have hver := validateLookupValue_verified hv
          simp only [hv] at hk
          rw [hk.2] at hver
          simp [persistable, hk.1, ← hver] at hp
  · intro key state hstate
    change (Dict.mapVal _ _).lookup key = _ at hstate
    rw [Dict.lookup_mapVal, Option.map_eq_some_iff] at hstate
    obtain ⟨raw, -, rfl⟩ := hstate
    unfold loadedState
    split <;> exact ⟨BoundedLog.nil, BoundedLog.nil⟩

/-- A change of the log of a key that keeps it bounded and describing keeps the server coherent. -/
theorem Coherent.setState (hs : Coherent rt s) {raw : String} {state : StoredValueState}
    (hraw : s.values.lookup key = some raw) (hdesc : Describes rt key raw state)
    (hprev : BoundedLog state.previous) (hconf : BoundedLog state.conflicts) :
    Coherent rt (setState s key state) := by
  refine ⟨fun k r hr => ?_, fun k hk => ?_, hs.disk, fun k st hst => ?_⟩
  · rw [setState_versions]
    split_ifs with h
    · subst h
      change s.values.lookup k = some r at hr
      rw [hraw] at hr
      cases hr
      exact ⟨state, rfl, hdesc⟩
    · exact hs.current k r hr
  · rw [setState_versions, if_neg]
    · exact hs.absent k hk
    · rintro rfl
      change s.values.lookup k = none at hk
      rw [hraw] at hk
      cases hk
  · rw [setState_versions] at hst
    split_ifs at hst
    · cases hst
      exact ⟨hprev, hconf⟩
    · exact hs.bounded k st hst

theorem Coherent.recordConflictLocked (hs : Coherent rt s) {v w : ValidatedValue}
    (hv : Holds rt s key now v) : Coherent rt (recordConflictLocked s key w) := by
  obtain ⟨raw, hraw, -, -⟩ := hv
  obtain ⟨state, hstate, hdesc⟩ := hs.current key raw hraw
  obtain ⟨hprev, hconf⟩ := hs.bounded key state hstate
  simp only [Dht.recordConflictLocked, hstate, Option.getD_some]
  split_ifs
  · exact hs
  · exact hs.setState hraw hdesc hprev (hconf.append _)

/-- A call that changes nothing leaves the log alone: it already describes what the key holds. -/
theorem Coherent.recordVersionLocked_unchanged (hs : Coherent rt s) {v w : ValidatedValue}
    (hv : Holds rt s key now v) : recordVersionLocked s key v w false = s := by
  obtain ⟨raw, hraw, -, -⟩ := hv
  obtain ⟨state, hstate, now', v', hv', hcur⟩ := hs.current key raw hraw
  have hfp : state.current.fingerprint ≠ "" := by
    rw [hcur]
    exact validateLookupValue_fingerprint_ne hv'
  simp [recordVersionLocked, hstate, hfp]

/-- The log after a change describes the new text. -/
theorem Coherent.replaced (hs : Coherent rt s) {w previous : ValidatedValue}
    (hw : validateLookupValue rt key value now = .ok w) (hraw : w.raw ≠ "") :
    Coherent rt (recordVersionLocked (writeValue s key value w) key previous w true) := by
  have hbound : BoundedLog ((s.versions.lookup key).getD {}).previous ∧
      BoundedLog ((s.versions.lookup key).getD {}).conflicts := by
    cases h : s.versions.lookup key with
    | none => exact ⟨BoundedLog.nil, BoundedLog.nil⟩
    | some state => exact hs.bounded key state h
  obtain ⟨rows, hrows, hdisk⟩ := hs.disk
  have hver := validateLookupValue_verified hw
  simp only [Dht.recordVersionLocked, writeValue_versions, if_neg hraw, if_true]
  refine ⟨fun k r hr => ?_, fun k hk => ?_, ?_, fun k st hst => ?_⟩
  · rw [setState_versions]
    change (writeValue s key value w).values.lookup k = some r at hr
    rw [writeValue_values] at hr
    by_cases h : k = key
    · subst h
      rw [if_pos rfl] at hr
      cases hr
      exact ⟨_, if_pos rfl, now, w, hw, rfl⟩
    · rw [if_neg h] at hr ⊢
      exact hs.current k r hr
  · change (writeValue s key value w).values.lookup k = none at hk
    rw [writeValue_values] at hk
    rw [setState_versions]
    split_ifs at hk ⊢
    exact hs.absent k hk
  · change ∃ rows, (writeValue s key value w).rows = some rows ∧ ∀ k, rows.lookup k =
      if persistable k then (writeValue s key value w).values.lookup k else none
    have hpersists : persists s key w = persistable key := by
      simp [persists, persistable, hrows, hver]
    simp only [writeValue_values]
    simp only [writeValue, hpersists, hrows]
    cases hp : persistable key with
    | true =>
      refine ⟨rows.insert key value, rfl, fun k => ?_⟩
      rw [Dict.lookup_insert_eq, hdisk k]
      by_cases h : k = key
      · simp [h, hp]
      · simp [h]
    | false =>
      refine ⟨rows, rfl, fun k => ?_⟩
      rw [hdisk k]
      by_cases h : k = key
      · simp [h, hp]
      · simp [h]
  · rw [setState_versions] at hst
    by_cases h : k = key
    · rw [if_pos h] at hst
      cases hst
      refine ⟨?_, hbound.2⟩
      dsimp only
      split_ifs
      · exact hbound.1.append _
      · exact hbound.1
    · rw [if_neg h] at hst
      exact hs.bounded k st hst

/-- One call keeps the three stores in agreement. -/
theorem StoreStep.coherent {t : Server} {putOk : Bool} {err : Option StoreError}
    (h : StoreStep rt s key value now putOk t err) (hs : Coherent rt s)
    (hc : value ≠ "" ∨ keyFamily key ≠ .other) : Coherent rt t := by
  cases h with
  | invalid e he => exact hs
  | conflict v w hv hw _ _ _ => exact hs.recordConflictLocked hv
  | unpersisted w previous hw _ _ => exact hs
  | replaced w previous hw _ =>
    refine hs.replaced hw (validateLookupValue_raw_ne hw ?_)
    rintro rfl
    exact validateLookupValue_empty (hc.resolve_left fun hne => hne rfl) hw
  | kept v w hv hw _ =>
    rw [hs.recordVersionLocked_unchanged hv]
    exact hs

/-- A call that returns an error leaves the values and the rows alone. -/
theorem StoreStep.error_unchanged {t : Server} {putOk : Bool} {err : Option StoreError}
    (h : StoreStep rt s key value now putOk t err) (herr : err ≠ none) :
    t.values = s.values ∧ t.rows = s.rows := by
  cases h with
  | invalid e he => exact ⟨rfl, rfl⟩
  | conflict v w hv hw _ _ _ => exact ⟨by simp, by simp⟩
  | unpersisted w previous hw _ _ => exact ⟨rfl, rfl⟩
  | replaced w previous hw _ => exact absurd rfl herr
  | kept v w hv hw _ => exact absurd rfl herr

/-- Every run from `AttachValuePersistence` on an empty server whose calls store texts ends in a
coherent server: each key's log describes the text it holds, the row of each trusted key that is not
a descriptor key is the text it holds, no descriptor is persisted and the logs are bounded without
duplicates. From there, a call that returns an error changes neither values nor rows. -/
theorem store_coherent {rows : Dict String String} {start : Time}
    (h : Reach (keyedCall rt) StoresText (attachValuePersistence rt rows start) s) :
    (∀ key raw, s.values.lookup key = some raw →
        ∃ state, s.versions.lookup key = some state ∧ Describes rt key raw state) ∧
      (∀ key, s.values.lookup key = none → s.versions.lookup key = none) ∧
      (∃ disk, s.rows = some disk ∧
        (∀ key, isTrustedLookupKey key = true → hasPrefix key "hidden-desc/v1/" = false →
          disk.lookup key = s.values.lookup key) ∧
        ∀ key, hasPrefix key "hidden-desc/v1/" = true → disk.lookup key = none) ∧
      (∀ key state, s.versions.lookup key = some state →
        (state.previous.length ≤ 6 ∧ state.conflicts.length ≤ 6) ∧
        (state.previous.map StoredVersion.mark).Nodup ∧
        (state.conflicts.map StoredVersion.mark).Nodup) ∧
      ∀ c : KeyedCall, (storeValidated rt s c.key c.value c.now c.putOk).2.err ≠ none →
        (storeValidated rt s c.key c.value c.now c.putOk).1.values = s.values ∧
        (storeValidated rt s c.key c.value c.now c.putOk).1.rows = s.rows := by
  have hs : Coherent rt s := by
    refine h.invariant (fun s c t hs hc hstep => ?_) (attachValuePersistence_coherent rt rows start)
    simp only [keyedCall, Option.some.injEq] at hstep
    subst hstep
    exact (storeValidated_step c.putOk).coherent hs hc
  obtain ⟨disk, hdisk, hlookup⟩ := hs.disk
  refine ⟨hs.current, hs.absent, ⟨disk, hdisk, fun key hk hp => ?_, fun key hp => ?_⟩,
    fun key state hstate => ?_, fun c herr => ?_⟩
  · rw [hlookup key, if_pos]
    simpa [persistable, hp] using isTrustedLookupKey_family hk
  · rw [hlookup key, if_neg]
    simp [persistable, hp]
  · obtain ⟨hprev, hconf⟩ := hs.bounded key state hstate
    exact ⟨⟨hprev.1, hconf.1⟩, hprev.2, hconf.2⟩
  · exact (storeValidated_step c.putOk).error_unchanged herr

end Coherence

/-! ## The empty text -/

/-- A text is stored under a key of no record family. -/
def putText : KeyedCall := { key := "app/x", value := "v", now := sampleNow, putOk := true }

/-- The empty text is stored under the same key. -/
def putEmpty : KeyedCall := { key := "app/x", value := "", now := sampleNow, putOk := true }

/-- The server after the first call. -/
def afterText : Server :=
  (storeValidated forgedRuntime (attachValuePersistence forgedRuntime ∅ sampleNow) "app/x" "v"
    sampleNow true).1

/-- `store_coherent` after one call. -/
theorem store_coherent_afterText :
    StoresText (attachValuePersistence forgedRuntime ∅ sampleNow) putText ∧
      ∃ state, afterText.versions.lookup "app/x" = some state ∧
        Describes forgedRuntime "app/x" "v" state := by
  have hc : StoresText (attachValuePersistence forgedRuntime ∅ sampleNow) putText :=
    Or.inl (by decide)
  have hreach : Reach (keyedCall forgedRuntime) StoresText
      (attachValuePersistence forgedRuntime ∅ sampleNow) afterText :=
    .single ⟨putText, hc, rfl⟩
  exact ⟨hc, (store_coherent hreach).1 "app/x" "v" (by decide +kernel)⟩

/-- After the empty text is stored, the log still describes the text before it. -/
theorem empty_text_incoherent :
    ∃ s, Reach (keyedCall forgedRuntime) (fun _ _ => True)
        (attachValuePersistence forgedRuntime ∅ sampleNow) s ∧
      s.values.lookup "app/x" = some "" ∧
      ∃ state, s.versions.lookup "app/x" = some state ∧
        ¬ Describes forgedRuntime "app/x" "" state := by
  refine ⟨(storeValidated forgedRuntime afterText "app/x" "" sampleNow true).1,
    .tail (.single ⟨putText, trivial, rfl⟩) ⟨putEmpty, trivial, rfl⟩, by decide +kernel,
    { current := storedVersionFromValidated (plainValue forgedRuntime.toCrypto "v") },
    by decide +kernel, ?_⟩
  rintro ⟨now, v, hv, hcur⟩
  have hempty : validateLookupValue forgedRuntime "app/x" "" sampleNow =
      .ok (plainValue forgedRuntime.toCrypto "") := ok_of_toOption (by decide +kernel)
  rw [validateLookupValue_unique hv hempty] at hcur
  exact absurd (congrArg StoredVersion.fingerprint hcur) (by decide +kernel)

end Vx6.Dht
