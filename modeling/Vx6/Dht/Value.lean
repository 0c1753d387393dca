import Vx6.Dht.Formats

/-!
# Validated values

`internal/dht/value.go`: how a stored or received text is validated for its key, when one validated
value is newer than another (`isNewerValue`), and which of two texts a server keeps
(`chooseStoredValue`).

The clock enters validation only through expiry checks: two successful validations of one text
under one key give the same value (`validateLookupValue_unique`), whatever the two times are.
-/

set_option autoImplicit false

namespace Vx6.Dht

open Vx6.Go Vx6.Lib Vx6.Record

/-- `validatedValue`. -/
structure ValidatedValue where
  storedRaw : String := ""
  raw : String := ""
  verified : Bool := false
  family : String := ""
  fingerprint : String := ""
  issuedAt : Time := zeroTime
  expiresAt : Time := zeroTime
  version : UInt64 := 0
  sequenceBased : Bool := false
  originNodeID : String := ""
  publisherNodeID : String := ""
  enveloped : Bool := false
  authoritativePublisher : Bool := false
  deriving DecidableEq, Repr

/-- The result of `recordTimes`. -/
structure RecordTimes where
  issuedAt : Time
  expiresAt : Time
  version : UInt64

/-- `recordTimes`. -/
def recordTimes (issuedAtRaw expiresAtRaw : String) : Except ValueError RecordTimes := do
  let issuedAt ← orReject (parseRFC3339 issuedAtRaw) (.record .issuedAtFormat)
  let expiresAt ← orReject (parseRFC3339 expiresAtRaw) (.record .expiresAtFormat)
  return ⟨issuedAt, expiresAt, toUInt64 (unix issuedAt)⟩

/-! ## Validation -/

/-- The value of a verified endpoint record. -/
def endpointValue (cr : Crypto) (raw : String) (rec : EndpointRecord) (times : RecordTimes) :
    ValidatedValue :=
  { storedRaw := raw
    raw := raw
    verified := true
    family := "endpoint:" ++ rec.nodeID
    fingerprint := Record.fingerprint cr rec
    issuedAt := times.issuedAt
    expiresAt := times.expiresAt
    version := endpointRecordSequenceVersion rec
    sequenceBased := 2 ≤ rec.version
    originNodeID := rec.nodeID }

/-- The value of a verified record that is not an endpoint record. -/
def signedValue (raw family fingerprint origin : String) (times : RecordTimes) : ValidatedValue :=
  { storedRaw := raw
    raw := raw
    verified := true
    family := family
    fingerprint := fingerprint
    issuedAt := times.issuedAt
    expiresAt := times.expiresAt
    version := times.version
    originNodeID := origin }

/-- An endpoint record under a key that `checkKey` compares with it. -/
def validateEndpoint (rt : Runtime) (checkKey : EndpointRecord → Except ValueError Unit)
    (raw : String) (now : Time) : Except ValueError ValidatedValue := do
  let rec ← orReject (rt.decodeEndpoint raw) .decodeEndpoint
  liftRecord (verifyEndpointRecord rt.toCrypto rec now)
  checkKey rec
  let times ← recordTimes rec.issuedAt rec.expiresAt
  return endpointValue rt.toCrypto raw rec times

/-- A service record under a key that `checkKey` compares with it. -/
def validateService (rt : Runtime) (decodeError : ValueError)
    (checkKey : ServiceRecord → Except ValueError Unit) (family : ServiceRecord → String)
    (raw : String) (now : Time) : Except ValueError ValidatedValue := do
  let rec ← orReject (rt.unmarshalService raw) decodeError
  let _ ← liftRecord (verifyServiceRecord rt.toCrypto rec now)
  checkKey rec
  let times ← recordTimes rec.issuedAt rec.expiresAt
  return signedValue raw (family rec) (serviceFingerprint rt.toCrypto rec) rec.nodeID times

/-- The key checks of `node/name/`. -/
def checkNameKey (rt : Runtime) (key : String) (rec : EndpointRecord) : Except ValueError Unit :=
  rejectIf (nodeNameKey rt.toCrypto rec.nodeName ≠ key) (.nameKeyMismatch rec.nodeName)

/-- The key checks of `node/id/`. -/
def checkIDKey (key : String) (rec : EndpointRecord) : Except ValueError Unit :=
  rejectIf (rec.nodeID ≠ trimPrefix key "node/id/")
    (.idKeyMismatch rec.nodeID (trimPrefix key "node/id/"))

/-- The key checks of `service/`. -/
def checkServiceKey (want : String) (rec : ServiceRecord) : Except ValueError Unit := do
  rejectIf rec.isPrivate (.privateService want)
  rejectIf (fullServiceName rec.nodeName rec.serviceName ≠ want)
    (.serviceKeyMismatch (fullServiceName rec.nodeName rec.serviceName) want)

/-- The key checks of `hidden/`. -/
def checkHiddenKey (want : String) (rec : ServiceRecord) : Except ValueError Unit :=
  rejectIf (!rec.isHidden || rec.aliasName ≠ want) (.hiddenAliasMismatch rec.aliasName want)

/-- The key checks of a plain service record under `hidden-desc/v1/`. -/
def checkDescriptorKey (rt : Runtime) (key : String) (epoch : Int) (rec : ServiceRecord) :
    Except ValueError Unit := do
  rejectIf (!rec.isHidden || rec.aliasName = "") .hiddenDescriptorAlias
  rejectIf (hiddenServiceKeyForRefEpoch rt.toCrypto rec.aliasName "" epoch ≠ key)
    (.hiddenDescriptorBlindedKey key (hiddenServiceKeyForRefEpoch rt.toCrypto rec.aliasName "" epoch))

/-- A private service catalog under its owner's name. -/
def validateCatalog (rt : Runtime) (want raw : String) (now : Time) :
    Except ValueError ValidatedValue := do
  let catalog ← decodePrivateServiceCatalog rt raw now
  rejectIf (catalog.nodeName ≠ want) (.catalogKeyMismatch catalog.nodeName want)
  let times ← recordTimes catalog.issuedAt catalog.expiresAt
  return signedValue raw ("private-catalog:" ++ catalog.nodeID ++ ":" ++ want)
    (rawFingerprint rt.toCrypto
      (catalog.signature ++ "\n" ++ catalog.issuedAt ++ "\n" ++ catalog.expiresAt))
    catalog.nodeID times

/-- The value of an encrypted descriptor. No signature is checked here: the descriptor is marked
verified as soon as it has the right fields. -/
def descriptorValue (cr : Crypto) (raw : String) (desc : HiddenDescriptor) :
    Except ValueError ValidatedValue := do
  let times ← recordTimes desc.issuedAt desc.expiresAt
  return signedValue raw ("hidden:" ++ desc.nodeID ++ ":" ++ desc.serviceTag)
    (hiddenDescriptorFingerprint cr desc) desc.nodeID times

/-- A hidden descriptor, or else a plain hidden service record. -/
def validateDescriptor (rt : Runtime) (key raw : String) (now : Time) :
    Except ValueError ValidatedValue := do
  let epoch ← parseHiddenDescriptorEpoch key
  match parseHiddenDescriptor rt raw with
  | .ok desc => descriptorValue rt.toCrypto raw desc
  | .error _ =>
      validateService rt .decodeHiddenService (checkDescriptorKey rt key epoch)
        (fun rec => "hidden:" ++ rec.nodeID ++ ":" ++ hiddenServiceTag rt.toCrypto rec) raw now

/-- The value of a text under a key of no record family. -/
def plainValue (cr : Crypto) (raw : String) : ValidatedValue :=
  { storedRaw := raw, raw := raw, fingerprint := rawFingerprint cr raw }

/-- `validateInnerLookupValue`. -/
def validateInnerLookupValue (rt : Runtime) (key raw : String) (now : Time) :
    Except ValueError ValidatedValue :=
  match keyFamily key with
  | .nodeName => validateEndpoint rt (checkNameKey rt key) raw now
  | .nodeID => validateEndpoint rt (checkIDKey key) raw now
  | .service =>
      let want := trimPrefix key "service/"
      validateService rt .decodeService (checkServiceKey want)
        (fun rec => "service:" ++ rec.nodeID ++ ":" ++ want) raw now
  | .privateCatalog => validateCatalog rt (trimPrefix key "private-catalog/") raw now
  | .hidden =>
      let want := trimPrefix key "hidden/"
      validateService rt .decodeHiddenService (checkHiddenKey want)
        (fun rec => "hidden:" ++ rec.nodeID ++ ":" ++ want) raw now
  | .hiddenDescriptor => validateDescriptor rt key raw now
  | .other => .ok (plainValue rt.toCrypto raw)

/-- The comparison of an envelope with the verified record it wraps. -/
def checkEnvelopeFields (env : SignedEnvelope) (value : ValidatedValue) :
    Except ValueError Unit := do
  rejectIf (env.originNodeID ≠ value.originNodeID)
    (.envelopeOrigin env.originNodeID value.originNodeID)
  rejectIf (env.version ≠ value.version) (.envelopeVersion env.version value.version)
  rejectIf (env.issuedAt ≠ formatRFC3339 value.issuedAt) .envelopeIssuedAt
  rejectIf (env.expiresAt ≠ formatRFC3339 value.expiresAt) .envelopeExpiresAt

/-- The comparison is made for verified values only. -/
def checkWrapped (env : SignedEnvelope) (value : ValidatedValue) : Except ValueError Unit :=
  if value.verified then checkEnvelopeFields env value else .ok ()

/-- The fields of an unwrapped value that the envelope sets. -/
def wrapValue (raw : String) (env : SignedEnvelope) (value : ValidatedValue) : ValidatedValue :=
  { value with
    storedRaw := raw
    publisherNodeID := env.publisherNodeID
    enveloped := true
    authoritativePublisher := value.originNodeID ≠ "" && env.publisherNodeID = value.originNodeID }

/-- The checks on an envelope, and the value it wraps. -/
def validateEnveloped (rt : Runtime) (key raw : String) (env : SignedEnvelope) (now : Time) :
    Except ValueError ValidatedValue := do
  let _ ← verifyEnvelope rt key env now
  let value ← validateInnerLookupValue rt key env.value now
  checkWrapped env value
  return wrapValue raw env value

/-- `validateLookupValue`. -/
def validateLookupValue (rt : Runtime) (key raw : String) (now : Time) :
    Except ValueError ValidatedValue := do
  match ← maybeDecodeEnvelope rt raw with
  | some env => validateEnveloped rt key raw env now
  | none => validateInnerLookupValue rt key raw now

/-! ## Order and choice -/

/-- `isNewerValue`. -/
def isNewerValue (candidate current : ValidatedValue) : Bool :=
  if current.version < candidate.version then true
  else if candidate.version < current.version then false
  else if candidate.sequenceBased && current.sequenceBased then
    current.fingerprint < candidate.fingerprint
  else if current.issuedAt < candidate.issuedAt then true
  else if candidate.issuedAt < current.issuedAt then false
  else current.fingerprint < candidate.fingerprint

/-- The errors of the value store. -/
inductive StoreError where
  | invalid (e : ValueError)
  | conflict (existing incoming : String)
  | persist
  deriving DecidableEq, Repr

/-- The results of `chooseStoredValue`. -/
structure Choice where
  chosen : String := ""
  changed : Bool := false
  previous : ValidatedValue := {}
  incoming : ValidatedValue := {}
  err : Option StoreError := none

/-- The choice between two texts that both validate. -/
def chooseValidated (existing incoming : String) (existingValue incomingValue : ValidatedValue) :
    Choice :=
  if !incomingValue.verified then
    if existing = incoming then ⟨existing, false, existingValue, incomingValue, none⟩
    else ⟨incoming, true, existingValue, incomingValue, none⟩
  else if !existingValue.verified then ⟨incoming, true, existingValue, incomingValue, none⟩
  else if existingValue.family ≠ incomingValue.family then
    ⟨existing, false, existingValue, incomingValue,
      some (.conflict existingValue.family incomingValue.family)⟩
  else if incomingValue.fingerprint = existingValue.fingerprint then
    ⟨existing, false, existingValue, incomingValue, none⟩
  else if isNewerValue incomingValue existingValue then
    ⟨incoming, true, existingValue, incomingValue, none⟩
  else ⟨existing, false, existingValue, incomingValue, none⟩

/-- `chooseStoredValue`. -/
def chooseStoredValue (rt : Runtime) (key existing incoming : String) (now : Time) : Choice :=
  match validateLookupValue rt key incoming now with
  | .error e => { err := some (.invalid e) }
  | .ok incomingValue =>
      if existing = "" then ⟨incoming, true, {}, incomingValue, none⟩
      else
        match validateLookupValue rt key existing now with
        | .error _ => ⟨incoming, true, {}, incomingValue, none⟩
        | .ok existingValue => chooseValidated existing incoming existingValue incomingValue

/-! ## What validation establishes -/

section Validation

variable {rt : Runtime} {key raw : String} {now : Time} {v : ValidatedValue}

theorem validateEndpoint_ok {checkKey : EndpointRecord → Except ValueError Unit}
    (h : validateEndpoint rt checkKey raw now = .ok v) :
    ∃ rec times, rt.decodeEndpoint raw = some rec ∧
      verifyEndpointRecord rt.toCrypto rec now = .ok () ∧ checkKey rec = .ok () ∧
      recordTimes rec.issuedAt rec.expiresAt = .ok times ∧
      v = endpointValue rt.toCrypto raw rec times := by
  simp only [validateEndpoint, bind_eq_ok, orReject_eq_ok, liftRecord_eq_ok, pure_eq_ok] at h
  obtain ⟨rec, hdec, ⟨⟩, hver, ⟨⟩, hkey, times, htimes, rfl⟩ := h
  exact ⟨rec, times, hdec, hver, hkey, htimes, rfl⟩

theorem validateService_ok {decodeError : ValueError}
    {checkKey : ServiceRecord → Except ValueError Unit} {family : ServiceRecord → String}
    (h : validateService rt decodeError checkKey family raw now = .ok v) :
    ∃ rec times, rt.unmarshalService raw = some rec ∧
      (∃ s, verifyServiceRecord rt.toCrypto rec now = .ok s) ∧ checkKey rec = .ok () ∧
      recordTimes rec.issuedAt rec.expiresAt = .ok times ∧
      v = signedValue raw (family rec) (serviceFingerprint rt.toCrypto rec) rec.nodeID times := by
  simp only [validateService, bind_eq_ok, orReject_eq_ok, liftRecord_eq_ok, pure_eq_ok] at h
  obtain ⟨rec, hdec, s, hver, ⟨⟩, hkey, times, htimes, rfl⟩ := h
  exact ⟨rec, times, hdec, ⟨s, hver⟩, hkey, htimes, rfl⟩

theorem validateCatalog_ok {want : String} (h : validateCatalog rt want raw now = .ok v) :
    ∃ catalog times, rt.unmarshalCatalog raw = some catalog ∧
      (∃ s, verifyPrivateServiceCatalog rt catalog now = .ok s) ∧
      recordTimes catalog.issuedAt catalog.expiresAt = .ok times ∧
      v = signedValue raw ("private-catalog:" ++ catalog.nodeID ++ ":" ++ want)
        (rawFingerprint rt.toCrypto
          (catalog.signature ++ "\n" ++ catalog.issuedAt ++ "\n" ++ catalog.expiresAt))
        catalog.nodeID times := by
  simp only [validateCatalog, decodePrivateServiceCatalog, bind_eq_ok, orReject_eq_ok,
    rejectIf_eq_ok, pure_eq_ok] at h
  obtain ⟨_, ⟨catalog, hdec, s, hver, rfl⟩, -, -, times, htimes, rfl⟩ := h
  exact ⟨catalog, times, hdec, ⟨s, hver⟩, htimes, rfl⟩

theorem descriptorValue_ok {cr : Crypto} {desc : HiddenDescriptor}
    (h : descriptorValue cr raw desc = .ok v) :
    ∃ times, recordTimes desc.issuedAt desc.expiresAt = .ok times ∧
      v = signedValue raw ("hidden:" ++ desc.nodeID ++ ":" ++ desc.serviceTag)
        (hiddenDescriptorFingerprint cr desc) desc.nodeID times := by
  simp only [descriptorValue, bind_eq_ok, pure_eq_ok] at h
  obtain ⟨times, htimes, rfl⟩ := h
  exact ⟨times, htimes, rfl⟩

/-- A valid descriptor key holds an encrypted descriptor or a plain service record. -/
theorem validateDescriptor_ok (h : validateDescriptor rt key raw now = .ok v) :
    (∃ desc, parseHiddenDescriptor rt raw = .ok desc ∧ descriptorValue rt.toCrypto raw desc = .ok v) ∨
      ∃ epoch, (∀ desc, parseHiddenDescriptor rt raw ≠ .ok desc) ∧
        parseHiddenDescriptorEpoch key = .ok epoch ∧
        validateService rt .decodeHiddenService (checkDescriptorKey rt key epoch)
          (fun rec => "hidden:" ++ rec.nodeID ++ ":" ++ hiddenServiceTag rt.toCrypto rec) raw now =
            .ok v := by
  simp only [validateDescriptor, bind_eq_ok] at h
  obtain ⟨epoch, hepoch, h⟩ := h
  cases hp : parseHiddenDescriptor rt raw with
  | ok desc =>
    rw [hp] at h
    exact Or.inl ⟨desc, rfl, h⟩
  | error e =>
    rw [hp] at h
    exact Or.inr ⟨epoch, by simp, hepoch, h⟩

/-- What every successful inner validation leaves in the value, whatever the family. -/
structure InnerShape (key raw : String) (v : ValidatedValue) : Prop where
  raw_eq : v.raw = raw
  storedRaw_eq : v.storedRaw = raw
  verified_eq : v.verified = decide (keyFamily key ≠ .other)
  fingerprint_ne : v.fingerprint ≠ ""
  enveloped_eq : v.enveloped = false

theorem signedValue_shape (hk : keyFamily key ≠ .other) {family fp origin : String}
    {times : RecordTimes} (hfp : fp ≠ "") :
    InnerShape key raw (signedValue raw family fp origin times) :=
  ⟨rfl, rfl, by simp [signedValue, hk], hfp, rfl⟩

theorem validateService_shape (hk : keyFamily key ≠ .other) {decodeError : ValueError}
    {checkKey : ServiceRecord → Except ValueError Unit} {family : ServiceRecord → String}
    (h : validateService rt decodeError checkKey family raw now = .ok v) :
    InnerShape key raw v := by
  obtain ⟨rec, times, -, -, -, -, rfl⟩ := validateService_ok h
  exact signedValue_shape hk (rt.shortSum_ne_empty (by decide) _)

theorem validateEndpoint_shape (hk : keyFamily key ≠ .other)
    {checkKey : EndpointRecord → Except ValueError Unit}
    (h : validateEndpoint rt checkKey raw now = .ok v) : InnerShape key raw v := by
  obtain ⟨rec, times, -, -, -, -, rfl⟩ := validateEndpoint_ok h
  exact ⟨rfl, rfl, by simp [endpointValue, hk], rt.shortSum_ne_empty (by decide) _, rfl⟩

theorem validateInnerLookupValue_shape (h : validateInnerLookupValue rt key raw now = .ok v) :
    InnerShape key raw v := by
  unfold validateInnerLookupValue at h
  cases hf : keyFamily key with
  | nodeName => rw [hf] at h; exact validateEndpoint_shape (by simp [hf]) h
  | nodeID => rw [hf] at h; exact validateEndpoint_shape (by simp [hf]) h
  | service => rw [hf] at h; exact validateService_shape (by simp [hf]) h
  | hidden => rw [hf] at h; exact validateService_shape (by simp [hf]) h
  | privateCatalog =>
    rw [hf] at h
    obtain ⟨catalog, times, -, -, -, rfl⟩ := validateCatalog_ok h
    exact signedValue_shape (by simp [hf]) (rt.shortSum_ne_empty (by decide) _)
  | hiddenDescriptor =>
    rw [hf] at h
    rcases validateDescriptor_ok h with ⟨desc, -, hd⟩ | ⟨epoch, -, -, hs⟩
    · obtain ⟨times, -, rfl⟩ := descriptorValue_ok hd
      exact signedValue_shape (by simp [hf]) (rt.shortSum_ne_empty (by decide) _)
    · exact validateService_shape (by simp [hf]) hs
  | other =>
    rw [hf] at h
    simp only [Except.ok.injEq] at h
    subst h
    exact ⟨rfl, rfl, by simp [plainValue, hf], rt.shortSum_ne_empty (by decide) _, rfl⟩

/-! ### The clock decides only whether a text is accepted -/

theorem validateService_unique {now' : Time} {v' : ValidatedValue} {e e' : ValueError}
    {checkKey checkKey' : ServiceRecord → Except ValueError Unit} {family : ServiceRecord → String}
    (h : validateService rt e checkKey family raw now = .ok v)
    (h' : validateService rt e' checkKey' family raw now' = .ok v') : v = v' := by
  obtain ⟨rec, times, hdec, -, -, htimes, rfl⟩ := validateService_ok h
  obtain ⟨rec', times', hdec', -, -, htimes', rfl⟩ := validateService_ok h'
  rw [hdec] at hdec'
  cases hdec'
  rw [htimes] at htimes'
  cases htimes'
  rfl

theorem validateEndpoint_unique {now' : Time} {v' : ValidatedValue}
    {checkKey checkKey' : EndpointRecord → Except ValueError Unit}
    (h : validateEndpoint rt checkKey raw now = .ok v)
    (h' : validateEndpoint rt checkKey' raw now' = .ok v') : v = v' := by
  obtain ⟨rec, times, hdec, -, -, htimes, rfl⟩ := validateEndpoint_ok h
  obtain ⟨rec', times', hdec', -, -, htimes', rfl⟩ := validateEndpoint_ok h'
  rw [hdec] at hdec'
  cases hdec'
  rw [htimes] at htimes'
  cases htimes'
  rfl

theorem validateCatalog_unique {want : String} {now' : Time} {v' : ValidatedValue}
    (h : validateCatalog rt want raw now = .ok v)
    (h' : validateCatalog rt want raw now' = .ok v') : v = v' := by
  obtain ⟨catalog, times, hdec, -, htimes, rfl⟩ := validateCatalog_ok h
  obtain ⟨catalog', times', hdec', -, htimes', rfl⟩ := validateCatalog_ok h'
  rw [hdec] at hdec'
  cases hdec'
  rw [htimes] at htimes'
  cases htimes'
  rfl

theorem validateDescriptor_unique {now' : Time} {v' : ValidatedValue}
    (h : validateDescriptor rt key raw now = .ok v)
    (h' : validateDescriptor rt key raw now' = .ok v') : v = v' := by
  rcases validateDescriptor_ok h with ⟨desc, hp, hd⟩ | ⟨epoch, hno, -, hs⟩
  · rcases validateDescriptor_ok h' with ⟨desc', hp', hd'⟩ | ⟨epoch', hno', -, -⟩
    · rw [hp] at hp'
      cases hp'
      rw [hd] at hd'
      exact Except.ok.inj hd'
    · exact absurd hp (hno' desc)
  · rcases validateDescriptor_ok h' with ⟨desc', hp', -⟩ | ⟨epoch', -, -, hs'⟩
    · exact absurd hp' (hno desc')
    · exact validateService_unique hs hs'

theorem validateInnerLookupValue_unique {now' : Time} {v' : ValidatedValue}
    (h : validateInnerLookupValue rt key raw now = .ok v)
    (h' : validateInnerLookupValue rt key raw now' = .ok v') : v = v' := by
  unfold validateInnerLookupValue at h h'
  cases hf : keyFamily key with
  | nodeName => rw [hf] at h h'; exact validateEndpoint_unique h h'
  | nodeID => rw [hf] at h h'; exact validateEndpoint_unique h h'
  | service => rw [hf] at h h'; exact validateService_unique h h'
  | privateCatalog => rw [hf] at h h'; exact validateCatalog_unique h h'
  | hidden => rw [hf] at h h'; exact validateService_unique h h'
  | hiddenDescriptor => rw [hf] at h h'; exact validateDescriptor_unique h h'
  | other => rw [hf] at h h'; exact Except.ok.inj (h.symm.trans h')

/-- A valid text is bare, or an envelope around a valid text. -/
theorem validateLookupValue_ok (h : validateLookupValue rt key raw now = .ok v) :
    (maybeDecodeEnvelope rt raw = .ok none ∧ validateInnerLookupValue rt key raw now = .ok v) ∨
      ∃ env inner, maybeDecodeEnvelope rt raw = .ok (some env) ∧
        (∃ s, verifyEnvelope rt key env now = .ok s) ∧
        validateInnerLookupValue rt key env.value now = .ok inner ∧
        checkWrapped env inner = .ok () ∧ v = wrapValue raw env inner := by
  simp only [validateLookupValue, bind_eq_ok] at h
  obtain ⟨o, ho, h⟩ := h
  cases o with
  | none => exact Or.inl ⟨ho, h⟩
  | some env =>
    simp only [validateEnveloped, bind_eq_ok, pure_eq_ok] at h
    obtain ⟨s, hs, inner, hinner, ⟨⟩, hcheck, rfl⟩ := h
    exact Or.inr ⟨env, inner, ho, ⟨s, hs⟩, hinner, hcheck, rfl⟩

/-- Two successful validations of one text under one key give the same value. -/
theorem validateLookupValue_unique {now' : Time} {v' : ValidatedValue}
    (h : validateLookupValue rt key raw now = .ok v)
    (h' : validateLookupValue rt key raw now' = .ok v') : v = v' := by
  rcases validateLookupValue_ok h with ⟨ho, hi⟩ | ⟨env, inner, ho, -, hi, -, rfl⟩
  · rcases validateLookupValue_ok h' with ⟨-, hi'⟩ | ⟨env', inner', ho', -⟩
    · exact validateInnerLookupValue_unique hi hi'
    · rw [ho] at ho'
      cases ho'
  · rcases validateLookupValue_ok h' with ⟨ho', -⟩ | ⟨env', inner', ho', -, hi', -, rfl⟩
    · rw [ho] at ho'
      cases ho'
    · rw [ho] at ho'
      cases ho'
      rw [validateInnerLookupValue_unique hi hi']

theorem isTrustedLookupKey_family (h : isTrustedLookupKey key = true) : keyFamily key ≠ .other := by
  intro hf
  unfold keyFamily at hf
  split_ifs at hf with h1 h2 h3 h4 h5 h6
  simp only [KeyFamily.tag, Bool.not_eq_true] at h1 h2 h3 h4 h6
  simp [isTrustedLookupKey, h1, h2, h3, h4, h6] at h

/-- The empty text is no record of any family. -/
theorem validateLookupValue_empty (hk : keyFamily key ≠ .other) :
    validateLookupValue rt key "" now ≠ .ok v := by
  intro h
  rcases validateLookupValue_ok h with ⟨-, hi⟩ | ⟨env, inner, ho, -⟩
  · have hservice : ∀ {e : ValueError} {check : ServiceRecord → Except ValueError Unit}
        {family : ServiceRecord → String}, validateService rt e check family "" now ≠ .ok v := by
      intro e check family hs
      obtain ⟨rec, times, hdec, -⟩ := validateService_ok hs
      rw [rt.unmarshalService_empty] at hdec
      cases hdec
    have hendpoint : ∀ {check : EndpointRecord → Except ValueError Unit},
        validateEndpoint rt check "" now ≠ .ok v := by
      intro check hs
      obtain ⟨rec, times, hdec, -⟩ := validateEndpoint_ok hs
      rw [rt.decodeEndpoint_empty] at hdec
      cases hdec
    unfold validateInnerLookupValue at hi
    cases hf : keyFamily key with
    | nodeName => rw [hf] at hi; exact hendpoint hi
    | nodeID => rw [hf] at hi; exact hendpoint hi
    | service => rw [hf] at hi; exact hservice hi
    | hidden => rw [hf] at hi; exact hservice hi
    | privateCatalog =>
      rw [hf] at hi
      obtain ⟨catalog, times, hdec, -⟩ := validateCatalog_ok hi
      rw [rt.unmarshalCatalog_empty] at hdec
      cases hdec
    | hiddenDescriptor =>
      rw [hf] at hi
      rcases validateDescriptor_ok hi with ⟨desc, hp, -⟩ | ⟨epoch, -, -, hs⟩
      · simp [parseHiddenDescriptor, rt.unmarshalDescriptor_empty, orReject, bind, Except.bind] at hp
      · exact hservice hs
    | other => exact hk hf
  · simp [maybeDecodeEnvelope, rt.unmarshalEnvelope_empty] at ho

/-- An envelope that is not incomplete wraps a nonempty text. -/
theorem maybeDecodeEnvelope_value_ne {env : SignedEnvelope}
    (h : maybeDecodeEnvelope rt raw = .ok (some env)) : env.value ≠ "" := by
  unfold maybeDecodeEnvelope at h
  cases hu : rt.unmarshalEnvelope raw with
  | none => simp [hu] at h
  | some e =>
    simp only [hu] at h
    split_ifs at h with h1 h2
    · cases h
    · cases h
      exact fun he => h2 (Or.inr (Or.inl he))

/-- The text inside a value is not empty, unless the value is an empty text of no family. -/
theorem validateLookupValue_raw_ne (h : validateLookupValue rt key raw now = .ok v)
    (hraw : raw ≠ "") : v.raw ≠ "" := by
  rcases validateLookupValue_ok h with ⟨-, hi⟩ | ⟨env, inner, ho, -, hi, -, rfl⟩
  · rwa [(validateInnerLookupValue_shape hi).raw_eq]
  · show inner.raw ≠ ""
    rw [(validateInnerLookupValue_shape hi).raw_eq]
    exact maybeDecodeEnvelope_value_ne ho

theorem validateLookupValue_fingerprint_ne (h : validateLookupValue rt key raw now = .ok v) :
    v.fingerprint ≠ "" := by
  rcases validateLookupValue_ok h with ⟨-, hi⟩ | ⟨env, inner, -, -, hi, -, rfl⟩
  · exact (validateInnerLookupValue_shape hi).fingerprint_ne
  · exact (validateInnerLookupValue_shape hi).fingerprint_ne

/-- A value is verified exactly when its key belongs to a record family. -/
theorem validateLookupValue_verified (h : validateLookupValue rt key raw now = .ok v) :
    v.verified = decide (keyFamily key ≠ .other) := by
  rcases validateLookupValue_ok h with ⟨-, hi⟩ | ⟨env, inner, -, -, hi, -, rfl⟩
  · exact (validateInnerLookupValue_shape hi).verified_eq
  · exact (validateInnerLookupValue_shape hi).verified_eq

end Validation

end Vx6.Dht
