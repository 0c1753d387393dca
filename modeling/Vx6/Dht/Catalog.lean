import Vx6.Dht.ServiceFields

/-!
# Catalogs as texts

A node publishes the catalog of its private services as JSON, and its peers decode and verify the text.
`catalog_accepted_iff` says when a catalog comes back as it was issued, if the decoder reads what was
written, and `catalog_signature_fixes` that nothing else does, whatever the decoder reads.
-/

set_option autoImplicit false

namespace Vx6.Go

/-! ## JSON has one line -/

theorem feed_not_mem_jsonEscape (c : Char) : '\n' ∉ jsonEscape c := by
  have hdigit : ∀ n < 16, '\n' ≠ hexDigit n := by decide
  unfold jsonEscape
  split_ifs with hquote hfeed _ _ _ _ hhex
  · rcases hquote with rfl | rfl <;> decide
  all_goals try decide
  · have hsmall : c.toNat < 256 := by
      simp only [isHexEscaped, Bool.or_eq_true, decide_eq_true_eq] at hhex
      rcases hhex with ((h | rfl) | rfl) | rfl
      · omega
      all_goals decide
    have hhigh := hdigit (c.toNat / 16) (by omega)
    have hlow := hdigit (c.toNat % 16) (by omega)
    simp [hhigh, hlow]
  · exact List.mem_singleton.not.2 (Ne.symm hfeed)

theorem feed_not_mem_jsonString (s : String) : '\n' ∉ (jsonString s).toList := by
  have hbody : '\n' ∉ s.toList.flatMap jsonEscape := fun h =>
    let ⟨c, _, hc⟩ := List.mem_flatMap.1 h
    feed_not_mem_jsonEscape c hc
  rw [jsonString_toList]
  simp [hbody]

theorem feed_not_mem_jsonObject {members : List (String × String)}
    (h : ∀ m ∈ members, '\n' ∉ m.2.toList) : '\n' ∉ (jsonObject members).toList := by
  have hmembers : '\n' ∉ (jsonMembers members).toList := by
    induction members using jsonMembers.induct with
    | case1 => exact List.not_mem_nil
    | case2 m => simp [jsonMembers, feed_not_mem_jsonString, h]
    | case3 m rest hrest ih =>
      rw [List.forall_mem_cons] at h
      simp [jsonMembers, feed_not_mem_jsonString, h.1, ih h.2]
  simp [jsonObject, hmembers]

theorem feed_not_mem_jsonArray {items : List String} (h : ∀ item ∈ items, '\n' ∉ item.toList) :
    '\n' ∉ (jsonArray items).toList := by
  have hitems : '\n' ∉ joinComma (items.map String.toList) := by
    induction items with
    | nil => exact List.not_mem_nil
    | cons item rest ih =>
      rw [List.forall_mem_cons] at h
      cases rest with
      | nil => exact h.1
      | cons next rest => simpa [joinComma, h.1] using ih h.2
  simp [jsonArray, hitems]

end Vx6.Go
namespace Vx6.Dht

open Vx6.Go Vx6.Lib Vx6.Record

/-! ## JSON -/

/-- The members of a catalog. -/
def catalogMembers (catalog : PrivateServiceCatalog) : List (String × String) :=
  [("node_id", jsonString catalog.nodeID), ("node_name", jsonString catalog.nodeName),
    ("public_key", jsonString catalog.publicKey),
    ("services", jsonList marshalServiceRecord catalog.services),
    ("issued_at", jsonString catalog.issuedAt), ("expires_at", jsonString catalog.expiresAt),
    ("signature", jsonString catalog.signature)]

/-- `json.Marshal` of a catalog. -/
def marshalCatalog (catalog : PrivateServiceCatalog) : String := jsonObject (catalogMembers catalog)

theorem closed_marshalServiceRecord (rec : ServiceRecord) : Closed (marshalServiceRecord rec).toList :=
  closed_jsonObject (closed_serviceMembers rec)

/-- Lists of service records with the same text are the same. -/
theorem marshalServices_injective : Function.Injective (jsonList marshalServiceRecord) := by
  have hread : ∀ services, readList readServiceRecord (jsonList marshalServiceRecord services) =
      some services :=
    readList_jsonList readServiceRecord_marshal closed_marshalServiceRecord
      fun rec => jsonObject_ne_empty (serviceMembers rec)
  intro a b h
  rw [← Option.some_inj, ← hread, h, hread]

/-- The text of a list of service records has one line. -/
theorem feed_not_mem_services (services : List ServiceRecord) :
    '\n' ∉ (jsonList marshalServiceRecord services).toList := by
  apply feed_not_mem_jsonArray
  intro text htext
  obtain ⟨rec, -, rfl⟩ := List.mem_map.1 htext
  apply feed_not_mem_jsonObject
  have hstrings : ∀ items, '\n' ∉ (jsonStrings items).toList := fun items => by
    apply feed_not_mem_jsonArray
    intro text htext
    obtain ⟨s, -, rfl⟩ := List.mem_map.1 htext
    exact feed_not_mem_jsonString s
  have hbool : ∀ b, '\n' ∉ (jsonBool b).toList := by decide
  have homit : ∀ (empty : Bool) (name : String) {text : String}, '\n' ∉ text.toList →
      ∀ m ∈ omitEmpty empty (name, text), '\n' ∉ m.2.toList := by
    intro empty name text h m hm
    cases empty with
    | true => cases hm
    | false => rwa [List.mem_singleton.1 hm]
  simp only [serviceMembers, List.forall_mem_append, List.forall_mem_cons, feed_not_mem_jsonString, hbool,
    not_false_eq_true, true_and, List.not_mem_nil, false_implies, implies_true, and_true]
  exact ⟨⟨⟨⟨⟨homit _ _ (feed_not_mem_jsonString _), homit _ _ (feed_not_mem_jsonString _)⟩,
    homit _ _ (hbool _)⟩, homit _ _ (feed_not_mem_jsonString _)⟩, homit _ _ (hstrings _)⟩,
    homit _ _ (hstrings _)⟩

/-! ## The services of a catalog -/

section Services

variable {rt : Runtime} {nodeName nodeID : String} {now : Time}

/-- A service that a catalog may list. -/
structure Listed (rt : Runtime) (nodeName nodeID : String) (now : Time) (svc : ServiceRecord) : Prop where
  verified : (verifyServiceRecord rt.toCrypto svc now).isOk = true
  owner : svc.nodeName = nodeName ∧ svc.nodeID = nodeID
  shape : svc.isHidden = false ∧ svc.isPrivate = true

/-- The name by which a catalog is sorted. -/
def listedName (svc : ServiceRecord) : String := fullServiceName svc.nodeName svc.serviceName

/-- The loop over the services ends if each may be listed and its name is new. -/
theorem checkCatalogServices_eq_ok {seen : List String} {services : List ServiceRecord} :
    checkCatalogServices rt nodeName nodeID now seen services = .ok () ↔
      (∀ svc ∈ services, Listed rt nodeName nodeID now svc ∧ listedName svc ∉ seen) ∧
        (services.map listedName).Nodup := by
  induction services generalizing seen with
  | nil => simp [checkCatalogServices]
  | cons svc rest ih =>
    simp only [checkCatalogServices, bind_eq_ok, mapError_eq_ok, rejectIf_eq_ok, exists_const, ih,
      Bool.or_eq_false_iff, decide_eq_false_iff_not, not_not, Bool.not_eq_false', List.forall_mem_cons,
      List.map_cons, List.nodup_cons, List.mem_map, not_exists, List.contains_eq_mem]
    constructor
    · rintro ⟨signed, hverify, howner, hhidden, hprivate, hnew, hrest, hnodup⟩
      have hlisted : Listed rt nodeName nodeID now svc :=
        ⟨by rw [hverify]; rfl, howner, hhidden, hprivate⟩
      refine ⟨⟨⟨hlisted, hnew⟩, ?_⟩, ?_, hnodup⟩
      · intro other hother
        exact ⟨(hrest other hother).1, fun hseen => (hrest other hother).2 (.tail _ hseen)⟩
      · rintro other ⟨hother, hname⟩
        exact (hrest other hother).2 (List.mem_cons.2 (.inl hname))
    · rintro ⟨⟨⟨hlisted, hnew⟩, hrest⟩, hfirst, hnodup⟩
      obtain ⟨signed, hverify⟩ := exists_of_isOk hlisted.verified
      refine ⟨signed, hverify, hlisted.owner, hlisted.shape.1, hlisted.shape.2, hnew, ?_, hnodup⟩
      intro other hother
      refine ⟨(hrest other hother).1, fun hmem => ?_⟩
      exact (List.mem_cons.1 hmem).elim (fun hname => hfirst other ⟨hother, hname⟩) (hrest other hother).2

end Services

/-! ## Publication -/

section Issued

variable {rt : Runtime} {sign : Bytes → Bytes → Bytes} {sorter : SliceSort} {id : Identity}
  {nodeName : String} {services : List ServiceRecord} {ttl : Duration} {now later : Time}
  {catalog : PrivateServiceCatalog}

/-- The signature of the catalog has its size and verifies. -/
def SignsCatalog (rt : Runtime) (sign : Bytes → Bytes → Bytes) (id : Identity)
    (catalog : PrivateServiceCatalog) : Prop :=
  let signature := sign id.privateKey (bytes (privateCatalogSigningPayload rt catalog))
  signature.length = Vx6.signatureSize ∧
    rt.ed25519Verify id.publicKey (bytes (privateCatalogSigningPayload rt catalog)) signature = true

/-- What `NewPrivateServiceCatalog` puts into a catalog. -/
structure IssuedBy (rt : Runtime) (sign : Bytes → Bytes → Bytes) (sorter : SliceSort) (id : Identity)
    (services : List ServiceRecord) (ttl : Duration) (now : Time) (catalog : PrivateServiceCatalog) :
    Prop where
  identity : id.validate rt.toCrypto = .ok ()
  nodeID : catalog.nodeID = id.nodeID
  name : checkCanonicalNodeName catalog.nodeName = .ok ()
  publicKey : catalog.publicKey = stdEncoding.encodeToString id.publicKey
  checked : checkCatalogServices rt catalog.nodeName catalog.nodeID now [] services = .ok ()
  services : catalog.services = sorter.slice (fun a b => decide (listedName a < listedName b)) services
  issuedAt : catalog.issuedAt = formatRFC3339 now
  expiresAt : catalog.expiresAt = formatRFC3339 (now + ttl)
  signature : catalog.signature = stdEncoding.encodeToString
    (sign id.privateKey (bytes (privateCatalogSigningPayload rt catalog)))

theorem issuedBy_of_new
    (h : newPrivateServiceCatalog rt sign sorter id nodeName services ttl now = .ok catalog) :
    IssuedBy rt sign sorter id services ttl now catalog := by
  simp only [newPrivateServiceCatalog, normalizePrivateCatalogServices, bind_eq_ok, pure_eq_ok,
    mapError_eq_ok, rejectIf_eq_ok, exists_const] at h
  obtain ⟨canonical, hname, -, _, hid, sorted, ⟨_, hchecked, rfl⟩, rfl⟩ := h
  exact ⟨hid, rfl, (check_of_normalizeNodeName hname).2, rfl, hchecked, rfl, rfl, rfl, rfl⟩

namespace IssuedBy

variable (h : IssuedBy rt sign sorter id services ttl now catalog)
include h

theorem fields_ne_empty (hsign : SignsCatalog rt sign id catalog) :
    catalog.nodeID ≠ "" ∧ catalog.nodeName ≠ "" ∧ catalog.publicKey ≠ "" ∧ catalog.issuedAt ≠ "" ∧
      catalog.expiresAt ≠ "" ∧ catalog.signature ≠ "" := by
  have hencode : ∀ {bs : Bytes} {n : Nat}, bs.length = n + 1 → stdEncoding.encodeToString bs ≠ "" :=
    fun hlen => encodeToString_ne_empty _ (List.ne_nil_of_length_eq_add_one hlen)
  obtain ⟨hnode, hsize⟩ := fields_of_validate h.identity
  rw [h.nodeID, h.publicKey, h.issuedAt, h.expiresAt, h.signature]
  refine ⟨hnode, ?_, hencode hsize, formatRFC3339_ne_empty _, formatRFC3339_ne_empty _,
    hencode hsign.1⟩
  intro hempty
  have hlen := (chars_of_checkCanonicalNodeName h.name).1
  rw [hempty] at hlen
  exact absurd hlen (by decide)

/-- The services are checked in their new order as they were in the old one. -/
theorem checked_iff : checkCatalogServices rt catalog.nodeName catalog.nodeID later [] catalog.services =
    .ok () ↔ ∀ svc ∈ services, (verifyServiceRecord rt.toCrypto svc later).isOk = true := by
  obtain ⟨hlisted, hnodup⟩ := checkCatalogServices_eq_ok.1 h.checked
  have hperm := h.services ▸ sorter.perm _ services
  rw [checkCatalogServices_eq_ok, (hperm.map listedName).nodup_iff, and_iff_left hnodup]
  constructor
  · intro hall svc hsvc
    exact (hall svc (hperm.mem_iff.2 hsvc)).1.verified
  · intro hall svc hsvc
    have hmem := hperm.mem_iff.1 hsvc
    exact ⟨⟨hall svc hmem, (hlisted svc hmem).1.owner, (hlisted svc hmem).1.shape⟩, List.not_mem_nil⟩

/-- The verifier accepts what was issued as long as it has not expired, in whole seconds, and all of its
services are accepted. -/
theorem verified_iff (hsign : SignsCatalog rt sign id catalog) (hissued : fourDigitYear now)
    (hexpires : fourDigitYear (now + ttl)) :
    (∃ signed, verifyPrivateServiceCatalog rt catalog later = .ok signed) ↔
      unix now < unix (now + ttl) ∧ later ≤ unix (now + ttl) * second ∧
        ∀ svc ∈ services, (verifyServiceRecord rt.toCrypto svc later).isOk = true := by
  have hsize := (fields_of_validate h.identity).2
  have hkeys : decodeKeyAndSignature catalog.publicKey catalog.signature = .ok _ :=
    decodeKeyAndSignature_of_sizes
      (h.publicKey ▸ Base64.decodeString_encodeToString Base64.proper_std _)
      (h.signature ▸ Base64.decodeString_encodeToString Base64.proper_std _) hsize hsign.1
  have hupper := (check_of_normalizeNodeName (normalizeNodeName_of_check h.name)).1
  have hname : validateCanonicalNodeName catalog.nodeName = .ok () := by
    rw [validateCanonicalNodeName, check_bind_eq_ok, rejectIf_eq_ok]
    exact ⟨by simpa using hupper, h.name⟩
  have hbinding := h.nodeID ▸ Identity.nodeID_of_validate h.identity
  have hstart := h.issuedAt ▸ parseRFC3339_formatRFC3339 hissued
  have hend := h.expiresAt ▸ parseRFC3339_formatRFC3339 hexpires
  have hseconds : (0 : Int) < second := by decide
  rw [← h.checked_iff, ← mul_lt_mul_iff_of_pos_right hseconds]
  simp [verifyPrivateServiceCatalog, bind_eq_ok, rejectIf_eq_ok, orReject_eq_ok, liftRecord_eq_ok,
    h.fields_ne_empty hsign, hname, hkeys, hbinding, hstart, hend, checkSignature, hsign.2,
    Unique.exists_iff]

end IssuedBy

/-- A catalog that was issued lists the services it was given, sorted by their names. If the decoder reads
its text as it was written, the text is accepted as the catalog itself exactly as long as it has not
expired, in whole seconds, and the verifier accepts each of the services. -/
theorem catalog_accepted_iff (hread : rt.unmarshalCatalog (marshalCatalog catalog) = some catalog)
    (hsign : SignsCatalog rt sign id catalog) (hissued : fourDigitYear now)
    (hexpires : fourDigitYear (now + ttl))
    (h : newPrivateServiceCatalog rt sign sorter id nodeName services ttl now = .ok catalog) :
    catalog.services.Perm services ∧ (catalog.services.map listedName).Pairwise (· < ·) ∧
      (decodePrivateServiceCatalog rt (marshalCatalog catalog) later = .ok catalog ↔
        unix now < unix (now + ttl) ∧ later ≤ unix (now + ttl) * second ∧
          ∀ svc ∈ services, (verifyServiceRecord rt.toCrypto svc later).isOk = true) := by
  have hby := issuedBy_of_new h
  have hnodup := (checkCatalogServices_eq_ok.1 hby.checked).2
  refine ⟨hby.services ▸ sorter.perm _ services, ?_, ?_⟩
  · rw [List.pairwise_map, hby.services]
    exact SliceSort.increasing_slice (fun a b => decide_eq_true_iff) hnodup
  · rw [← hby.verified_iff hsign hissued hexpires]
    simp only [decodePrivateServiceCatalog, hread, bind_eq_ok, orReject_eq_ok,
      pure_eq_ok, Option.some.injEq, exists_eq_left', exists_and_right, and_true]

/-- A private service of the identity. -/
def echoService (name : String) : ServiceRecord :=
  signServiceRecord (signerOf echoRuntime echoSign) echoIdentity {
    nodeID := echoIdentity.nodeID
    nodeName := "ALICE"
    serviceName := name
    address := "[::1]:80"
    isPrivate := true
    publicKey := stdEncoding.encodeToString echoIdentity.publicKey
    issuedAt := formatRFC3339 0
    expiresAt := formatRFC3339 (0 + second) }

/-- A catalog of the identity with two services. -/
def twoServices : PrivateServiceCatalog :=
  let catalog : PrivateServiceCatalog := {
    nodeID := echoIdentity.nodeID
    nodeName := "ALICE"
    publicKey := stdEncoding.encodeToString echoIdentity.publicKey
    services := [echoService "ssh", echoService "web"]
    issuedAt := formatRFC3339 0
    expiresAt := formatRFC3339 (0 + second) }
  { catalog with signature := signPrivateCatalog echoRuntime echoSign echoIdentity catalog }

/-- The records that the identity signs. -/
def shelfRecords : List SignedRecord :=
  [.service (echoService "ssh"), .service (echoService "web"), .catalog twoServices]

/-- The sample in which nothing else is signed, with a decoder that reads the text of the catalog. -/
def shelfRuntime : Runtime :=
  { echoRuntime with
    ed25519Verify := fun _ message sig =>
      (shelfRecords.any fun r => bytes (r.payload echoRuntime) = message) &&
        decide (sig = echoSign [] message)
    unmarshalCatalog := fun text => if text = marshalCatalog twoServices then some twoServices else none
    unmarshalCatalog_empty := if_neg (jsonObject_ne_empty _).symm }

theorem unmarshalCatalog_shelfRuntime :
    shelfRuntime.unmarshalCatalog (marshalCatalog twoServices) = some twoServices := by
  simp only [shelfRuntime, ↓reduceIte]

theorem payload_shelfRuntime (r : SignedRecord) : r.payload shelfRuntime = r.payload echoRuntime := by
  have hwrite : shelfRuntime.marshalServices = echoRuntime.marshalServices := rfl
  cases r with
  | catalog listed => simp only [SignedRecord.payload, privateCatalogSigningPayload, hwrite]
  | _ => simp only [SignedRecord.payload]

theorem verified_shelfServices : ∀ svc ∈ [echoService "web", echoService "ssh"],
    (verifyServiceRecord shelfRuntime.toCrypto svc second).isOk = true := by
  decide +kernel

theorem mem_shelfRecords : SignedRecord.catalog twoServices ∈ shelfRecords := by
  simp only [shelfRecords, List.mem_cons, true_or, or_true]

theorem verify_shelfRuntime {r : SignedRecord} {key message : Bytes} (hr : r ∈ shelfRecords)
    (h : bytes (r.payload shelfRuntime) = message) :
    shelfRuntime.ed25519Verify key message (echoSign echoIdentity.privateKey message) = true := by
  rw [payload_shelfRuntime] at h
  exact Bool.and_eq_true_iff.2 ⟨List.any_eq_true.2 ⟨r, hr, decide_eq_true h⟩, decide_eq_true rfl⟩

theorem signsCatalog_twoServices : SignsCatalog shelfRuntime echoSign echoIdentity twoServices :=
  ⟨by simp [echoSign, Vx6.signatureSize], verify_shelfRuntime mem_shelfRecords rfl⟩

theorem newPrivateServiceCatalog_twoServices :
    newPrivateServiceCatalog shelfRuntime echoSign .insertion echoIdentity "ALICE"
      [echoService "web", echoService "ssh"] second 0 = .ok twoServices := by
  have hservices : normalizePrivateCatalogServices shelfRuntime .insertion "ALICE" echoIdentity.nodeID
      [echoService "web", echoService "ssh"] 0 = .ok [echoService "ssh", echoService "web"] :=
    ok_of_toOption (by decide +kernel)
  have hid : echoIdentity.validate shelfRuntime.toCrypto = .ok () := by decide +kernel
  have hpayload : ∀ catalog, privateCatalogSigningPayload shelfRuntime catalog =
      privateCatalogSigningPayload echoRuntime catalog := fun catalog =>
    payload_shelfRuntime (.catalog catalog)
  simp only [newPrivateServiceCatalog, bind_eq_ok, pure_eq_ok, mapError_eq_ok, rejectIf_eq_ok,
    signPrivateCatalog, hpayload]
  exact ⟨"ALICE", by decide +kernel, (), by decide, (), hid, _, hservices, rfl⟩

/-- The services that were given as `web` and `ssh` are listed in the order of their names, and the catalog
is accepted in the second in which it expires. -/
theorem catalog_accepted_twoServices :
    decodePrivateServiceCatalog shelfRuntime (marshalCatalog twoServices) second = .ok twoServices := by
  refine (catalog_accepted_iff unmarshalCatalog_shelfRuntime signsCatalog_twoServices ?_ ?_
    newPrivateServiceCatalog_twoServices).2.2.2 ⟨?_, ?_, verified_shelfServices⟩
  all_goals decide

/-- Catalogs with the same lines agree up to the signature. -/
theorem eq_of_lines_eq (hwrite : rt.marshalServices = jsonList marshalServiceRecord)
    {a b : PrivateServiceCatalog}
    (h : (SignedRecord.catalog a).lines rt = (SignedRecord.catalog b).lines rt) :
    { a with signature := b.signature } = b := by
  simp only [SignedRecord.lines, hwrite, List.cons.injEq] at h
  obtain ⟨hnode, hname, hkey, hservices, hissued, hexpires, -⟩ := h
  rw [hnode, hname, hkey, marshalServices_injective hservices, hissued, hexpires]

/-- A catalog whose fields have no line feed is signed as no other catalog is. So if only records with such
fields are signed and no signature is forged, then a catalog of this kind that is decoded is one that its
node signed, with the signature perhaps spelled differently. -/
theorem catalog_signature_fixes (sign : Bytes → Bytes → Bytes)
    (hwrite : rt.marshalServices = jsonList marshalServiceRecord) :
    (∀ a b, (SignedRecord.catalog a).OneLine rt →
      privateCatalogSigningPayload rt a = privateCatalogSigningPayload rt b →
      { a with signature := b.signature } = b) ∧
    ∀ issued : String → SignedRecord → Prop, (∀ id r, issued id r → Admissible rt sign r ∧ r.OneLine rt) →
      Unforgeable rt.toCrypto (fun id text => ∃ r, issued id r ∧ r.payload rt = text) →
      ∀ raw later catalog, decodePrivateServiceCatalog rt raw later = .ok catalog →
        (SignedRecord.catalog catalog).OneLine rt →
        ∃ original, issued catalog.nodeID (.catalog original) ∧
          { original with signature := catalog.signature } = catalog := by
  constructor
  · intro a b ha hpayload
    apply eq_of_lines_eq hwrite
    refine unlines_inj_of_left ha rfl ?_
    rw [← payload_eq_unlines, ← payload_eq_unlines]
    exact hpayload
  · intro issued hissued hunforgeable raw later catalog h hlines
    simp only [decodePrivateServiceCatalog, bind_eq_ok, pure_eq_ok] at h
    obtain ⟨decoded, -, signed, -, rfl⟩ := h
    obtain ⟨r, hr, hpayload⟩ := hunforgeable _ _ _ signed.verified
    rw [signed.binding] at hr
    obtain ⟨hadmissible, hrLines⟩ := hissued _ _ hr
    have hsame : r.lines rt = (SignedRecord.catalog decoded).lines rt := by
      refine unlines_inj hrLines hlines ?_
      rw [← payload_eq_unlines, ← payload_eq_unlines]
      exact hpayload
    have hshaped : Shaped (.catalog decoded) := keyText_of_signed signed
    -- records of the other formats never have the lines of a catalog
    have hformat : r.format = .catalog := by
      by_contra hother
      exact lines_ne_of_format_ne hadmissible.shaped hshaped hother hsame
    obtain ⟨original, rfl⟩ := catalog_of_format hformat
    exact ⟨original, hr, eq_of_lines_eq hwrite hsame⟩

theorem nodeID_shelfRuntime (key : Bytes) :
    nodeIDFromPublicKey shelfRuntime.toCrypto key = echoIdentity.nodeID := by
  have hdigest : shelfRuntime.sha256 key = echoRuntime.sha256 echoIdentity.publicKey := rfl
  rw [← Identity.nodeID_of_validate echoIdentity_valid, nodeIDFromPublicKey, nodeIDFromPublicKey, hdigest]

theorem oneLine_shelfRecords : ∀ r ∈ shelfRecords, r.OneLine shelfRuntime := by
  simp only [shelfRecords, List.forall_mem_cons, SignedRecord.OneLine]
  refine ⟨by decide +kernel, by decide +kernel, ?_, List.forall_mem_nil _⟩
  have hservices : '\n' ∉ (shelfRuntime.marshalServices twoServices.services).toList :=
    feed_not_mem_services _
  simp only [SignedRecord.lines, List.forall_mem_cons, hservices, not_false_eq_true, true_and,
    List.not_mem_nil, false_implies, implies_true, and_true]
  decide +kernel

theorem verified_twoServices :
    ∃ signed, verifyPrivateServiceCatalog shelfRuntime twoServices second = .ok signed :=
  ((issuedBy_of_new newPrivateServiceCatalog_twoServices).verified_iff signsCatalog_twoServices
    (by decide) (by decide)).2 ⟨by decide, by decide, verified_shelfServices⟩

theorem decode_twoServices :
    decodePrivateServiceCatalog shelfRuntime (marshalCatalog twoServices) second = .ok twoServices := by
  obtain ⟨signed, hsigned⟩ := verified_twoServices
  simp only [decodePrivateServiceCatalog, unmarshalCatalog_shelfRuntime, bind_eq_ok, orReject_eq_ok,
    pure_eq_ok]
  exact ⟨twoServices, rfl, signed, hsigned, rfl⟩

theorem verifiedAt_shelfRecords : ∀ r ∈ shelfRecords, r.VerifiedAt shelfRuntime second := by
  have hok : ∀ {ε α : Type} {x : Except ε α}, (∃ a, x = .ok a) → x.isOk = true := by
    rintro ε α x ⟨a, rfl⟩
    rfl
  have hservices := List.forall_mem_cons.1 verified_shelfServices
  have hweb : (SignedRecord.service (echoService "web")).VerifiedAt shelfRuntime second := hservices.1
  have hssh : (SignedRecord.service (echoService "ssh")).VerifiedAt shelfRuntime second :=
    (List.forall_mem_cons.1 hservices.2).1
  have hcatalog : (SignedRecord.catalog twoServices).VerifiedAt shelfRuntime second :=
    hok verified_twoServices
  exact List.forall_mem_cons.2 ⟨hssh, List.forall_mem_cons.2 ⟨hweb, List.forall_mem_cons.2
    ⟨hcatalog, List.forall_mem_nil _⟩⟩⟩

/-- What the identity has signed. -/
def ShelfSigned (nodeID : String) (r : SignedRecord) : Prop :=
  nodeID = echoIdentity.nodeID ∧ r ∈ shelfRecords

theorem unforgeable_shelfRuntime : Unforgeable shelfRuntime.toCrypto (fun id text =>
    ∃ r, ShelfSigned id r ∧ r.payload shelfRuntime = text) := by
  intro key text sig h
  obtain ⟨r, hr, hpayload⟩ := List.any_eq_true.1 (Bool.and_eq_true_iff.1 h).1
  refine ⟨r, ⟨nodeID_shelfRuntime key, hr⟩, ?_⟩
  rw [payload_shelfRuntime]
  exact bytes_injective (of_decide_eq_true hpayload)

/-- The services and the catalog are signed and nothing else. A catalog is not signed as one with a service
less, and the one that is accepted is the one that was signed. -/
theorem catalog_signature_fixes_twoServices :
    privateCatalogSigningPayload shelfRuntime twoServices ≠ privateCatalogSigningPayload shelfRuntime
      { twoServices with services := [echoService "ssh"] } ∧
    ∃ original, ShelfSigned twoServices.nodeID (.catalog original) ∧
      { original with signature := twoServices.signature } = twoServices := by
  have hfixes := catalog_signature_fixes echoSign (rfl : shelfRuntime.marshalServices = _)
  constructor
  · intro hpayload
    have hsame := congrArg PrivateServiceCatalog.services
      (hfixes.1 _ _ (oneLine_shelfRecords _ mem_shelfRecords) hpayload)
    exact absurd (congrArg List.length hsame) (by decide)
  · exact hfixes.2 ShelfSigned
      (fun _ r h => ⟨.inr ⟨second, verifiedAt_shelfRecords r h.2⟩, oneLine_shelfRecords r h.2⟩)
      unforgeable_shelfRuntime _ _ _ decode_twoServices (oneLine_shelfRecords _ mem_shelfRecords)

end Issued

end Vx6.Dht
