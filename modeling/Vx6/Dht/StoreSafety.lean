import Vx6.Dht.Store

/-!
# Safety of the value store

Two results about writes to trusted keys.

* `store_no_rollback`: while the value a key holds still validates, a call of `storeValidated` keeps
  it or replaces it by a newer value of its family, whatever the incoming text; a value of another
  family only reaches the conflict log. Along a run the version number does not decrease.
* `accepted_signed_iff`: a write that is admitted and stored carries a signature that verifies under
  a key of the origin of the value, except for a hidden descriptor that comes without an envelope.
-/

set_option autoImplicit false

namespace Vx6.Dht

open Vx6.Go Vx6.Lib Vx6.Record

/-! ## No rollback -/

/-- One call of `storeValidated` on a fixed key. -/
structure StoreCall where
  value : String
  now : Time
  putOk : Bool

/-- The server after a call. -/
def storeCall (rt : Runtime) (key : String) (s : Server) (c : StoreCall) : Option Server :=
  some (storeValidated rt s key c.value c.now c.putOk).1

/-- The value the key holds when the call is made still validates. -/
def Live (rt : Runtime) (key : String) (s : Server) (c : StoreCall) : Prop :=
  ∃ raw v, s.values.lookup key = some raw ∧ validateLookupValue rt key raw c.now = .ok v

/-- The conflict log of a key has an entry for a value. -/
def ConflictLogged (s : Server) (key : String) (w : ValidatedValue) : Prop :=
  ∃ state, s.versions.lookup key = some state ∧
    ∃ u ∈ state.conflicts, u.mark = (storedVersionFromValidated w).mark

section NoRollback

variable {rt : Runtime} {key : String} {s : Server} {value raw : String} {now : Time}
  {v w : ValidatedValue}

theorem conflictLogged_recordConflictLocked (hraw : w.raw ≠ "") :
    ConflictLogged (recordConflictLocked s key w) key w := by
  unfold ConflictLogged recordConflictLocked
  simp only [if_neg hraw]
  exact ⟨_, (setState_versions _ _ _ _).trans (if_pos rfl), exists_mark_appendBoundedVersion _ _⟩

theorem holds_of_trusted (hk : isTrustedLookupKey key = true)
    (hraw : s.values.lookup key = some raw) (hv : validateLookupValue rt key raw now = .ok v) :
    Holds rt s key now v := by
  refine ⟨raw, hraw, ?_, hv⟩
  rintro rfl
  exact validateLookupValue_empty (isTrustedLookupKey_family hk) hv

theorem Holds.unique {v' : ValidatedValue} (h : Holds rt s key now v) (h' : Holds rt s key now v') :
    v = v' := by
  obtain ⟨raw, hraw, -, hv⟩ := h
  obtain ⟨raw', hraw', -, hv'⟩ := h'
  rw [hraw] at hraw'
  cases hraw'
  exact validateLookupValue_unique hv hv'

theorem verified_of_trusted (hk : isTrustedLookupKey key = true)
    (hv : validateLookupValue rt key raw now = .ok v) : v.verified = true := by
  rw [validateLookupValue_verified hv]
  simpa using isTrustedLookupKey_family hk

/-- On a trusted key that holds a valid value, only a newer value of its family replaces it. -/
theorem Replaces.newer_of_trusted {previous : ValidatedValue}
    (h : Replaces rt s key value now w previous) (hk : isTrustedLookupKey key = true)
    (hv : Holds rt s key now v) (hw : validateLookupValue rt key value now = .ok w) :
    w.family = v.family ∧ Newer w v := by
  cases h with
  | fresh hnone => exact absurd hv (hnone v)
  | unverified v₁ hv₁ hunv =>
    obtain ⟨raw, -, -, hval⟩ := hv₁
    rcases hunv with hunv | hunv
    · rw [verified_of_trusted hk hw] at hunv
      cases hunv
    · rw [verified_of_trusted hk hval] at hunv
      cases hunv
  | newer v₁ hv₁ _ _ hfam _ hnew =>
    rw [hv.unique hv₁]
    exact ⟨hfam.symm, hnew⟩

/-- What a call leaves of a value that still validates. -/
theorem StoreStep.keeps_or_renews {s' : Server} {putOk : Bool} {err : Option StoreError}
    (h : StoreStep rt s key value now putOk s' err) (hk : isTrustedLookupKey key = true)
    (hraw : s.values.lookup key = some raw) (hv : validateLookupValue rt key raw now = .ok v) :
    ∃ raw' v', s'.values.lookup key = some raw' ∧ validateLookupValue rt key raw' now = .ok v' ∧
      v'.family = v.family ∧ (raw' = raw ∨ Newer v' v) ∧
      ∀ w, validateLookupValue rt key value now = .ok w → w.family ≠ v.family →
        raw' = raw ∧ ConflictLogged s' key w := by
  have hholds := holds_of_trusted hk hraw hv
  cases h with
  | invalid e he =>
    refine ⟨raw, v, hraw, hv, rfl, Or.inl rfl, fun w hw => ?_⟩
    rw [he] at hw
    cases hw
  | conflict v₁ w₁ hv₁ hw₁ hvv hwv hfam =>
    refine ⟨raw, v, by simpa using hraw, hv, rfl, Or.inl rfl, fun w hw _ => ⟨rfl, ?_⟩⟩
    rw [validateLookupValue_unique hw hw₁]
    exact conflictLogged_recordConflictLocked (not_holds_empty_text hv₁ hvv hw₁)
  | unpersisted w₁ previous hw₁ hrep _ =>
    refine ⟨raw, v, hraw, hv, rfl, Or.inl rfl, fun w hw hne => absurd ?_ hne⟩
    rw [validateLookupValue_unique hw hw₁]
    exact (hrep.newer_of_trusted hk hholds hw₁).1
  | replaced w₁ previous hw₁ hrep =>
    obtain ⟨hfam, hnew⟩ := hrep.newer_of_trusted hk hholds hw₁
    refine ⟨value, w₁, by simp, hw₁, hfam, Or.inr hnew, fun w hw hne => absurd ?_ hne⟩
    rw [validateLookupValue_unique hw hw₁, hfam]
  | kept v₁ w₁ hv₁ hw₁ hkeep =>
    have hvv₁ := hholds.unique hv₁
    subst hvv₁
    refine ⟨raw, v, by simpa using hraw, hv, rfl, Or.inl rfl, fun w hw hne => ?_⟩
    cases hkeep with
    | repeated _ hwv =>
      rw [verified_of_trusted hk hw₁] at hwv
      cases hwv
    | older _ _ hfam _ => exact absurd (by rw [validateLookupValue_unique hw hw₁, hfam]) hne

/-- The run invariant: the key holds a value of the family with at least the version. -/
theorem storeCall_keeps_version (hk : isTrustedLookupKey key = true) {family : String}
    {version : UInt64} {t : Server} {c : StoreCall}
    (hs : ∃ raw v now, s.values.lookup key = some raw ∧ validateLookupValue rt key raw now = .ok v ∧
      v.family = family ∧ version ≤ v.version)
    (hlive : Live rt key s c) (hstep : storeCall rt key s c = some t) :
    ∃ raw v now, t.values.lookup key = some raw ∧ validateLookupValue rt key raw now = .ok v ∧
      v.family = family ∧ version ≤ v.version := by
  obtain ⟨raw, v, now, hraw, hv, hfam, hver⟩ := hs
  obtain ⟨raw', v', hraw', hv'⟩ := hlive
  rw [hraw] at hraw'
  cases hraw'
  have hvv := validateLookupValue_unique hv hv'
  subst hvv
  simp only [storeCall, Option.some.injEq] at hstep
  subst hstep
  obtain ⟨raw', v', hraw', hval', hfam', hnew, -⟩ :=
    (storeValidated_step c.putOk).keeps_or_renews hk hraw hv'
  refine ⟨raw', v', c.now, hraw', hval', hfam'.trans hfam, ?_⟩
  rcases hnew with rfl | hnew
  · rwa [validateLookupValue_unique hval' hv']
  · exact UInt64.le_trans hver (UInt64.le_iff_toNat_le.2 (version_le_of_newer hnew))

/-- No rollback. For one call on a trusted key whose value still validates: the key holds the same
text afterwards or a newer value of its family, and a valid value of another family leaves it and is
logged as a conflict. For a run of calls whose stored value always still validates: the key keeps its
family and its version number does not decrease. The times of the calls are arbitrary. -/
theorem store_no_rollback (hk : isTrustedLookupKey key = true) :
    (∀ (s : Server) (value : String) (now : Time) (putOk : Bool) (raw : String) (v : ValidatedValue),
      s.values.lookup key = some raw → validateLookupValue rt key raw now = .ok v →
      ∃ raw' v', (storeValidated rt s key value now putOk).1.values.lookup key = some raw' ∧
        validateLookupValue rt key raw' now = .ok v' ∧ v'.family = v.family ∧
        (raw' = raw ∨ isNewerValue v' v = true) ∧
        ∀ w, validateLookupValue rt key value now = .ok w → w.family ≠ v.family →
          raw' = raw ∧ ConflictLogged (storeValidated rt s key value now putOk).1 key w) ∧
    ∀ (s t : Server) (raw : String) (v : ValidatedValue) (now : Time),
      Reach (storeCall rt key) (Live rt key) s t → s.values.lookup key = some raw →
      validateLookupValue rt key raw now = .ok v →
      ∃ raw' v' now', t.values.lookup key = some raw' ∧
        validateLookupValue rt key raw' now' = .ok v' ∧ v'.family = v.family ∧
        v.version ≤ v'.version := by
  refine ⟨fun s value now putOk raw v hraw hv =>
    (storeValidated_step putOk).keeps_or_renews hk hraw hv, ?_⟩
  intro s t raw v now hreach hraw hv
  exact hreach.invariant (fun _ _ _ hi hl hs => storeCall_keeps_version hk hi hl hs)
    ⟨raw, v, now, hraw, hv, rfl, UInt64.le_refl _⟩

end NoRollback

set_option maxRecDepth 4000 in
theorem sampleKey_trusted : isTrustedLookupKey sampleKey = true := by decide

/-- A server that holds one text. -/
def serverWith (key raw : String) : Server := { values := (∅ : Dict String String).insert key raw }

/-- `store_no_rollback` where the late record of the sample identity arrives over the first one. -/
theorem store_no_rollback_sample :
    isTrustedLookupKey sampleKey = true ∧
      ∃ raw v, (storeValidated sampleRuntime
          (serverWith sampleKey (marshalEnvelope (sampleEnvelope firstRecord firstSignature)))
          sampleKey (marshalEnvelope (sampleEnvelope lateRecord lateSignature)) sampleNow
          true).1.values.lookup sampleKey = some raw ∧
        validateLookupValue sampleRuntime sampleKey raw sampleNow = .ok v ∧
        v.family = (sampleValue firstRecord firstSignature).family := by
  obtain ⟨raw, v, hraw, hv, hfam, -⟩ := (store_no_rollback sampleKey_trusted).1
    (serverWith sampleKey (marshalEnvelope (sampleEnvelope firstRecord firstSignature)))
    (marshalEnvelope (sampleEnvelope lateRecord lateSignature)) sampleNow true _ _
    (AList.lookup_insert ∅) (validateLookupValue_sample first_mem)
  exact ⟨sampleKey_trusted, raw, v, hraw, hv, hfam⟩

/-! ## Signatures of stored values -/

/-- A signature that a text carries: what it signs, and the key it comes with. -/
structure CarriedSignature where
  text : String
  publicKey : String
  signature : String

/-- The signature verifies under a public key with the node ID. -/
def CarriedSignature.VerifiesFor (cr : Crypto) (c : CarriedSignature) (nodeID : String) : Prop :=
  Nonempty (SignedText cr nodeID c.text c.publicKey c.signature)

/-- The signature of an endpoint record. -/
def endpointSignature (rec : EndpointRecord) : CarriedSignature :=
  ⟨signingPayload rec, rec.publicKey, rec.signature⟩

/-- The signature of a service record. -/
def serviceSignature (rec : ServiceRecord) : CarriedSignature :=
  ⟨serviceSigningPayload rec, rec.publicKey, rec.signature⟩

/-- The signature of a catalog. -/
def catalogSignature (rt : Runtime) (catalog : PrivateServiceCatalog) : CarriedSignature :=
  ⟨privateCatalogSigningPayload rt catalog, catalog.publicKey, catalog.signature⟩

/-- The signature of an envelope. -/
def envelopeSignature (env : SignedEnvelope) : CarriedSignature :=
  ⟨envelopeSigningPayload env, env.publisherPublicKey, env.signature⟩

/-- The signature inside the record of a key's family. A hidden descriptor has none. -/
def recordSignature (rt : Runtime) (key raw : String) : Option CarriedSignature :=
  match keyFamily key with
  | .nodeName => (rt.decodeEndpoint raw).map endpointSignature
  | .nodeID => (rt.decodeEndpoint raw).map endpointSignature
  | .service => (rt.unmarshalService raw).map serviceSignature
  | .privateCatalog => (rt.unmarshalCatalog raw).map (catalogSignature rt)
  | .hidden => (rt.unmarshalService raw).map serviceSignature
  | .hiddenDescriptor =>
      match parseHiddenDescriptor rt raw with
      | .ok _ => none
      | .error _ => (rt.unmarshalService raw).map serviceSignature
  | .other => none

/-- The signatures a text carries: that of its envelope, if it has one, and that of its record. -/
def carriedSignatures (rt : Runtime) (key raw : String) : List CarriedSignature :=
  match maybeDecodeEnvelope rt raw with
  | .ok (some env) => envelopeSignature env :: (recordSignature rt key env.value).toList
  | _ => (recordSignature rt key raw).toList

/-- A hidden descriptor without an envelope. -/
def BareDescriptor (rt : Runtime) (key raw : String) : Prop :=
  keyFamily key = .hiddenDescriptor ∧ maybeDecodeEnvelope rt raw = .ok none ∧
    ∃ desc, parseHiddenDescriptor rt raw = .ok desc

/-- The family of a value names its origin. -/
def InFamilyOf (v : ValidatedValue) : Prop :=
  ∃ tag ∈ ["endpoint:", "service:", "private-catalog:", "hidden:"], ∃ rest,
    v.family = tag ++ v.originNodeID ++ rest

/-- No signature verifies that the holder of the key did not make. `signed id text` says that the
holder of a private key with node ID `id` has signed `text`. -/
def Unforgeable (cr : Crypto) (signed : String → String → Prop) : Prop :=
  ∀ key text sig, cr.ed25519Verify key (bytes text) sig = true →
    signed (nodeIDFromPublicKey cr key) text

section Signatures

variable {rt : Runtime} {key raw value : String} {now : Time} {v : ValidatedValue}

theorem validateService_signed {e : ValueError} {check : ServiceRecord → Except ValueError Unit}
    {family : ServiceRecord → String} (h : validateService rt e check family raw now = .ok v) :
    ∃ rec, rt.unmarshalService raw = some rec ∧ v.family = family rec ∧ v.originNodeID = rec.nodeID ∧
      (serviceSignature rec).VerifiesFor rt.toCrypto v.originNodeID := by
  obtain ⟨rec, times, hdec, ⟨signed, -⟩, -, -, rfl⟩ := validateService_ok h
  exact ⟨rec, hdec, rfl, rfl, ⟨signed⟩⟩

theorem validateEndpoint_signed {check : EndpointRecord → Except ValueError Unit}
    (h : validateEndpoint rt check raw now = .ok v) :
    ∃ rec, rt.decodeEndpoint raw = some rec ∧ v.family = "endpoint:" ++ rec.nodeID ∧
      v.originNodeID = rec.nodeID ∧
      (endpointSignature rec).VerifiesFor rt.toCrypto v.originNodeID := by
  obtain ⟨rec, times, hdec, hver, -, -, rfl⟩ := validateEndpoint_ok h
  exact ⟨rec, hdec, rfl, rfl, (verifyEndpointRecord_ok hver).2⟩

/-- A record of a family names its origin, and it carries a signature of its origin unless it is a
hidden descriptor. -/
theorem validateInnerLookupValue_signed (hk : keyFamily key ≠ .other)
    (h : validateInnerLookupValue rt key raw now = .ok v) :
    InFamilyOf v ∧
      ((keyFamily key = .hiddenDescriptor ∧ (∃ desc, parseHiddenDescriptor rt raw = .ok desc) ∧
          recordSignature rt key raw = none) ∨
        (¬ (keyFamily key = .hiddenDescriptor ∧ ∃ desc, parseHiddenDescriptor rt raw = .ok desc)) ∧
          ∃ c, recordSignature rt key raw = some c ∧
            c.VerifiesFor rt.toCrypto v.originNodeID) := by
  unfold validateInnerLookupValue at h
  unfold recordSignature
  cases hf : keyFamily key with
  | nodeName =>
    rw [hf] at h
    obtain ⟨rec, hdec, hfam, horigin, hsig⟩ := validateEndpoint_signed h
    exact ⟨⟨"endpoint:", by simp, "", by simp [hfam, horigin]⟩,
      Or.inr ⟨by simp, _, by simp [hdec], hsig⟩⟩
  | nodeID =>
    rw [hf] at h
    obtain ⟨rec, hdec, hfam, horigin, hsig⟩ := validateEndpoint_signed h
    exact ⟨⟨"endpoint:", by simp, "", by simp [hfam, horigin]⟩,
      Or.inr ⟨by simp, _, by simp [hdec], hsig⟩⟩
  | service =>
    rw [hf] at h
    obtain ⟨rec, hdec, hfam, horigin, hsig⟩ := validateService_signed h
    exact ⟨⟨"service:", by simp, _, by rw [hfam, horigin, String.append_assoc]⟩,
      Or.inr ⟨by simp, _, by simp [hdec], hsig⟩⟩
  | hidden =>
    rw [hf] at h
    obtain ⟨rec, hdec, hfam, horigin, hsig⟩ := validateService_signed h
    exact ⟨⟨"hidden:", by simp, _, by rw [hfam, horigin, String.append_assoc]⟩,
      Or.inr ⟨by simp, _, by simp [hdec], hsig⟩⟩
  | privateCatalog =>
    rw [hf] at h
    obtain ⟨catalog, times, hdec, ⟨signed, -⟩, -, rfl⟩ := validateCatalog_ok h
    exact ⟨⟨"private-catalog:", by simp, _, by rw [signedValue, String.append_assoc]⟩,
      Or.inr ⟨by simp, catalogSignature rt catalog, by simp [hdec], ⟨signed⟩⟩⟩
  | hiddenDescriptor =>
    rw [hf] at h
    rcases validateDescriptor_ok h with ⟨desc, hp, hd⟩ | ⟨epoch, hno, -, hs⟩
    · obtain ⟨times, -, rfl⟩ := descriptorValue_ok hd
      exact ⟨⟨"hidden:", by simp, _, by rw [signedValue, String.append_assoc]⟩,
        Or.inl ⟨rfl, ⟨desc, hp⟩, by simp [hp]⟩⟩
    · obtain ⟨rec, hdec, hfam, horigin, hsig⟩ := validateService_signed hs
      refine ⟨⟨"hidden:", by simp, _, by rw [hfam, horigin, String.append_assoc]⟩,
        Or.inr ⟨fun h => hno _ h.2.choose_spec, serviceSignature rec, ?_, hsig⟩⟩
      cases hp : parseHiddenDescriptor rt raw with
      | ok desc => exact absurd hp (hno desc)
      | error e => simp [hdec]
  | other => exact absurd hf hk

/-- A valid text of a family whose envelope, if it has one, is its origin's own carries a signature
of its origin exactly when it is not a bare descriptor. -/
theorem carriedSignatures_iff (hk : keyFamily key ≠ .other)
    (h : validateLookupValue rt key raw now = .ok v)
    (hauth : v.enveloped = true → v.authoritativePublisher = true) :
    InFamilyOf v ∧
      ((∃ c ∈ carriedSignatures rt key raw, c.VerifiesFor rt.toCrypto v.originNodeID) ↔
        ¬ BareDescriptor rt key raw) := by
  unfold carriedSignatures BareDescriptor
  rcases validateLookupValue_ok h with ⟨ho, hi⟩ | ⟨env, inner, ho, ⟨signed, -⟩, hi, -, rfl⟩
  · obtain ⟨hfam, hsig⟩ := validateInnerLookupValue_signed hk hi
    refine ⟨hfam, ?_⟩
    rcases hsig with ⟨hf, hdesc, hnone⟩ | ⟨hno, c, hc, hver⟩
    · simp [ho, hf, hdesc, hnone]
    · simp only [ho, hc, Option.toList_some, List.mem_singleton, exists_eq_left]
      exact iff_of_true hver fun hbare => hno ⟨hbare.1, hbare.2.2⟩
  · obtain ⟨hfam, -⟩ := validateInnerLookupValue_signed hk hi
    refine ⟨hfam, ?_⟩
    have hpub : env.publisherNodeID = inner.originNodeID := by
      have := hauth rfl
      simp only [wrapValue, Bool.and_eq_true, decide_eq_true_eq] at this
      exact this.2
    simp only [ho]
    refine iff_of_true ⟨envelopeSignature env, List.mem_cons_self, ?_⟩ (by simp)
    show Nonempty (SignedText rt.toCrypto inner.originNodeID _ _ _)
    rw [← hpub]
    exact ⟨signed⟩

/-- What admission establishes about a write to a trusted key. -/
theorem admitStoreValue_ok {s : Server} {remoteAddr : String}
    (hk : isTrustedLookupKey key = true)
    (h : (admitStoreValue rt s remoteAddr key value now).2 = .ok ()) :
    ∃ v, validateLookupValue rt key value now = .ok v ∧
      (v.enveloped = true → v.authoritativePublisher = true) := by
  unfold admitStoreValue at h
  simp only [hk] at h
  split at h
  · cases h
  · simp only [if_true, admitTrusted] at h
    cases hv : validateLookupValue rt key value now with
    | error e =>
      rw [hv] at h
      cases h
    | ok v =>
      rw [hv] at h
      refine ⟨v, rfl, fun henv => ?_⟩
      by_contra hauth
      simp [verified_of_trusted hk hv, henv, Bool.eq_false_iff.2 hauth] at h

/-- A value of its own publisher is admitted for a key that holds nothing. -/
theorem admitStoreValue_of_absent {s : Server} {remoteAddr : String}
    (hk : isTrustedLookupKey key = true)
    (hallow : (allowStoreRequest s remoteAddr key true now).2 = .ok ())
    (hnone : s.values.lookup key = none) (hv : validateLookupValue rt key value now = .ok v)
    (hauth : v.authoritativePublisher = true) :
    (admitStoreValue rt s remoteAddr key value now).2 = .ok () := by
  have hpair : allowStoreRequest s remoteAddr key true now =
      ((allowStoreRequest s remoteAddr key true now).1, .ok ()) := Prod.ext rfl hallow
  simp only [admitStoreValue, hk, if_true]
  rw [hpair]
  simp [admitTrusted, rejectStaleStoreValue, hv, hauth, hnone]

/-- The text a key holds after a call that changed it validates at the time of the call. -/
theorem StoreStep.valid_of_changed {s s' : Server} {putOk : Bool} {err : Option StoreError}
    (h : StoreStep rt s key value now putOk s' err) (hbefore : s.values.lookup key ≠ some value)
    (hafter : s'.values.lookup key = some value) :
    ∃ v, validateLookupValue rt key value now = .ok v := by
  cases h with
  | invalid e he => exact absurd hafter hbefore
  | conflict v w hv hw _ _ _ => exact ⟨w, hw⟩
  | unpersisted w previous hw _ _ => exact ⟨w, hw⟩
  | replaced w previous hw _ => exact ⟨w, hw⟩
  | kept v w hv hw _ => exact ⟨w, hw⟩

/-- A write to a trusted key that is admitted and then changes the stored text carries a signature
that verifies under a public key of the value's origin, exactly when it is not a hidden descriptor
without an envelope. Under unforgeability, the holder of the origin's key has then signed a text the
value carries. Admission and storing may see different servers and clocks. -/
theorem accepted_signed_iff {s₁ s₂ : Server} {remoteAddr : String} {now₁ now₂ : Time} {putOk : Bool}
    (hk : isTrustedLookupKey key = true)
    (hadm : (admitStoreValue rt s₁ remoteAddr key value now₁).2 = .ok ())
    (hbefore : s₂.values.lookup key ≠ some value)
    (hafter : (storeValidated rt s₂ key value now₂ putOk).1.values.lookup key = some value) :
    ∃ v, validateLookupValue rt key value now₂ = .ok v ∧ InFamilyOf v ∧
      ((∃ c ∈ carriedSignatures rt key value, c.VerifiesFor rt.toCrypto v.originNodeID) ↔
        ¬ BareDescriptor rt key value) ∧
      (¬ BareDescriptor rt key value → ∀ signed : String → String → Prop,
        Unforgeable rt.toCrypto signed →
          ∃ c ∈ carriedSignatures rt key value, signed v.originNodeID c.text) := by
  obtain ⟨v₁, hv₁, hauth⟩ := admitStoreValue_ok hk hadm
  obtain ⟨v, hv⟩ := (storeValidated_step putOk).valid_of_changed hbefore hafter
  have hvv := validateLookupValue_unique hv₁ hv
  subst hvv
  obtain ⟨hfam, hiff⟩ := carriedSignatures_iff (isTrustedLookupKey_family hk) hv hauth
  refine ⟨v₁, hv, hfam, hiff, fun hbare signed hunf => ?_⟩
  obtain ⟨c, hc, ⟨st⟩⟩ := hiff.2 hbare
  refine ⟨c, hc, ?_⟩
  have hsigned := hunf st.key c.text st.sig st.verified
  rwa [st.binding] at hsigned

end Signatures

theorem sample_allowed :
    (allowStoreRequest {} "[2001:db8::2]:4242" sampleKey true sampleNow).2 = .ok () :=
  ok_of_toOption (by decide)

/-- `accepted_signed_iff` for the first record of the sample identity. -/
theorem accepted_signed_first :
    ∃ v, validateLookupValue sampleRuntime sampleKey
        (marshalEnvelope (sampleEnvelope firstRecord firstSignature)) sampleNow = .ok v ∧
      ∃ c ∈ carriedSignatures sampleRuntime sampleKey
          (marshalEnvelope (sampleEnvelope firstRecord firstSignature)),
        c.VerifiesFor sampleRuntime.toCrypto v.originNodeID := by
  have hval := validateLookupValue_sample first_mem
  have hauth : (sampleValue firstRecord firstSignature).authoritativePublisher = true := by
    decide
  have hnone : ({} : Server).values.lookup sampleKey = none := Dict.lookup_empty_eq _
  obtain ⟨v, hv, -, hiff, -⟩ := accepted_signed_iff sampleKey_trusted
    (admitStoreValue_of_absent sampleKey_trusted sample_allowed hnone hval hauth)
    (fun h => Option.some_ne_none _ (h.symm.trans hnone))
    (storeValidated_of_absent hnone rfl hval true)
  refine ⟨v, hv, hiff.2 fun hbare => ?_⟩
  rw [BareDescriptor, sampleKey_family] at hbare
  cases hbare.1

/-! ### A descriptor nobody signed -/

/-- A hidden descriptor in the name of the sample identity. -/
def forgedDescriptor : HiddenDescriptor :=
  { nodeID := sampleNodeID
    serviceTag := "AAAAAAAAAAAAAAAAAAAAAA"
    issuedAt := "2024-06-01T00:00:00Z"
    expiresAt := "2024-06-01T02:00:00Z"
    nonce := "AAAAAAAAAAAAAAAA"
    ciphertext := "AAAA" }

/-- Its JSON text. -/
def forgedText : String :=
  jsonObject [("node_id", jsonString forgedDescriptor.nodeID),
    ("service_tag", jsonString forgedDescriptor.serviceTag),
    ("issued_at", jsonString forgedDescriptor.issuedAt),
    ("expires_at", jsonString forgedDescriptor.expiresAt),
    ("nonce", jsonString forgedDescriptor.nonce),
    ("ciphertext", jsonString forgedDescriptor.ciphertext)]

/-- The key of a descriptor in the epoch of `sampleNow`. -/
def forgedKey : String := "hidden-desc/v1/477000/AAAAAAAAAAAAAAAAAAAAAAAAAAA"

/-- A runtime in which no signature verifies. As an envelope the text has the two members the
formats share. -/
def forgedRuntime : Runtime :=
  { Runtime.withoutDecoders { sha256 := sha256, ed25519Verify := fun _ _ _ => false } fun _ => "null" with
    unmarshalEnvelope := fun raw =>
      if raw = forgedText then
        some { issuedAt := forgedDescriptor.issuedAt, expiresAt := forgedDescriptor.expiresAt }
      else none
    unmarshalDescriptor := fun raw => if raw = forgedText then some forgedDescriptor else none
    unmarshalEnvelope_empty := if_neg (jsonObject_ne_empty _).symm
    unmarshalDescriptor_empty := if_neg (jsonObject_ne_empty _).symm }

set_option maxRecDepth 4000 in
theorem forgedKey_trusted : isTrustedLookupKey forgedKey = true := by decide

theorem forged_admitted :
    (admitStoreValue forgedRuntime {} "[2001:db8::2]:4242" forgedKey forgedText sampleNow).2 =
      .ok () :=
  ok_of_toOption (by decide +kernel)

/-- The descriptor is admitted and stored under a trusted key as a verified value of the sample
identity, although no signature verifies. -/
theorem forged_descriptor_stored :
    isTrustedLookupKey forgedKey = true ∧
      (admitStoreValue forgedRuntime {} "[2001:db8::2]:4242" forgedKey forgedText sampleNow).2 =
        .ok () ∧
      (storeValidated forgedRuntime {} forgedKey forgedText sampleNow true).1.values.lookup
        forgedKey = some forgedText ∧
      ∃ v, validateLookupValue forgedRuntime forgedKey forgedText sampleNow = .ok v ∧
        v.verified = true ∧ v.originNodeID = sampleNodeID ∧
        ¬ ∃ c ∈ carriedSignatures forgedRuntime forgedKey forgedText,
          c.VerifiesFor forgedRuntime.toCrypto v.originNodeID := by
  have horigin : (validateLookupValue forgedRuntime forgedKey forgedText sampleNow).toOption.map
      ValidatedValue.originNodeID = some sampleNodeID := by decide +kernel
  obtain ⟨v, hv, hid⟩ := Option.map_eq_some_iff.1 horigin
  have hval := ok_of_toOption hv
  refine ⟨forgedKey_trusted, forged_admitted, by decide +kernel, v, hval,
    verified_of_trusted forgedKey_trusted hval, hid, ?_⟩
  rintro ⟨c, -, ⟨signed⟩⟩
  exact absurd signed.verified (by simp [forgedRuntime, Runtime.withoutDecoders])

end Vx6.Dht
