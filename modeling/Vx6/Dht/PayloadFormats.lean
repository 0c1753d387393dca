import Vx6.Dht.Prepare
import Vx6.Record.Json
import Vx6.Go.Addr
import Vx6.Go.Sort

/-!
# The texts that are signed

Endpoint records of both versions, service records, envelopes and private catalogs are signed as
lists of lines, only one of them with a tag of its own. The number of lines, a colon in an address
and the length of a node name tell the formats apart as long as no field has a line feed. The
verifiers do not ask for this: a port, the public key, the name of a service or the issue time of a
version 2 record may have line feeds, and then the pieces of one field can fill several fields of a
record of another format.
-/

set_option autoImplicit false

namespace Vx6.Go.Base64

/-- What was decoded has at most three bytes for four characters, each from the alphabet or padding. -/
theorem facts_of_decodeChars {enc : Base64} (hpad : enc.padded = true) : ∀ (cs : List Char) {bs : Bytes},
    enc.decodeChars cs = some bs →
      4 * bs.length ≤ 3 * cs.length ∧ ∀ c ∈ cs, (enc.value c).isSome = true ∨ c = '='
  | [], bs, h => by
    cases h
    simp
  | [_], bs, h => by cases h
  | [_, _], bs, h => by simp [decodeChars, hpad] at h
  | [_, _, _], bs, h => by simp [decodeChars, hpad] at h
  | a :: b :: c :: d :: rest, bs, h => by
    have hchar : ∀ {x : Char} {n : Nat}, enc.value x = some n → (enc.value x).isSome = true ∨ x = '=' := by
      intro x n hx
      exact .inl (by rw [hx]; rfl)
    simp only [decodeChars, hpad, true_and, Option.bind_eq_bind, Option.bind_eq_some_iff] at h
    obtain ⟨_, ha, _, hb, h⟩ := h
    split_ifs at h with hdouble hsingle
    · -- two characters before the padding
      obtain ⟨rfl, rfl, rfl⟩ := hdouble
      cases h
      simp only [List.forall_mem_cons]
      exact ⟨by simp, hchar ha, hchar hb, .inr trivial, .inr trivial, by simp⟩
    · -- three characters before it
      obtain ⟨_, hc, h⟩ := Option.bind_eq_some_iff.1 h
      obtain ⟨rfl, rfl⟩ := hsingle
      cases h
      simp only [List.forall_mem_cons]
      exact ⟨by simp, hchar ha, hchar hb, hchar hc, .inr trivial, by simp⟩
    · obtain ⟨_, hc, h⟩ := Option.bind_eq_some_iff.1 h
      obtain ⟨_, hd, h⟩ := Option.bind_eq_some_iff.1 h
      obtain ⟨tail, htail, h⟩ := Option.bind_eq_some_iff.1 h
      cases h
      obtain ⟨hlen, hrest⟩ := facts_of_decodeChars hpad rest htail
      simp only [List.forall_mem_cons, List.length_cons]
      exact ⟨by omega, hchar ha, hchar hb, hchar hc, hchar hd, hrest⟩

/-- The text of 32 bytes is longer than a node name, and it has no colon. -/
theorem facts_of_decodeString {text : String} {key : Bytes} (h : stdEncoding.decodeString text = some key)
    (hlen : key.length = 32) : 16 < text.toList.length ∧ ':' ∉ text.toList := by
  obtain ⟨hshort, hchars⟩ := facts_of_decodeChars rfl _ h
  constructor
  · have hfilter := List.length_filter_le (fun c => !(c = '\n' || c = '\r')) text.toList
    omega
  · intro hmem
    have hkept : ':' ∈ text.toList.filter fun c => !(c = '\n' || c = '\r') :=
      List.mem_filter.2 ⟨hmem, by decide⟩
    rcases hchars ':' hkept with hvalue | heq
    · exact absurd hvalue (by decide)
    · exact absurd heq (by decide)

end Vx6.Go.Base64

namespace Vx6.Go

variable {sep : Char} {cs : List Char}

end Vx6.Go

namespace Vx6.Dht

open Vx6.Go Vx6.Lib Vx6.Record

/-! ## Catalogs -/

/-- The reasons for which no catalog is issued. -/
inductive CatalogError where
  | issue (e : IssueError)
  | value (e : ValueError)

/-- `normalizePrivateCatalogServices`. -/
def normalizePrivateCatalogServices (rt : Runtime) (sorter : SliceSort) (nodeName nodeID : String)
    (services : List ServiceRecord) (now : Time) : Except ValueError (List ServiceRecord) := do
  checkCatalogServices rt nodeName nodeID now [] services
  return sorter.slice (fun a b => decide (fullServiceName a.nodeName a.serviceName <
    fullServiceName b.nodeName b.serviceName)) services

/-- `signPrivateCatalog`. -/
def signPrivateCatalog (rt : Runtime) (sign : Bytes → Bytes → Bytes) (id : Identity)
    (catalog : PrivateServiceCatalog) : String :=
  stdEncoding.encodeToString (sign id.privateKey (bytes (privateCatalogSigningPayload rt catalog)))

/-- `NewPrivateServiceCatalog`. -/
def newPrivateServiceCatalog (rt : Runtime) (sign : Bytes → Bytes → Bytes) (sorter : SliceSort)
    (id : Identity)
    (nodeName : String) (services : List ServiceRecord) (ttl : Duration) (now : Time) :
    Except CatalogError PrivateServiceCatalog := do
  let canonicalName ← (normalizeNodeName nodeName).mapError fun e => .issue (.record e)
  rejectIf (ttl ≤ 0) (.issue .ttl)
  (id.validate rt.toCrypto).mapError fun e => .issue (.identity e)
  let normalized ← (normalizePrivateCatalogServices rt sorter canonicalName id.nodeID services
    now).mapError .value
  let catalog : PrivateServiceCatalog := {
    nodeID := id.nodeID
    nodeName := canonicalName
    publicKey := stdEncoding.encodeToString id.publicKey
    services := normalized
    issuedAt := formatRFC3339 now
    expiresAt := formatRFC3339 (now + ttl) }
  return { catalog with signature := signPrivateCatalog rt sign id catalog }

/-! ## Formats -/

/-- A record of a signed format. -/
inductive SignedRecord where
  | endpoint (rec : EndpointRecord)
  | service (rec : ServiceRecord)
  | envelope (env : SignedEnvelope)
  | catalog (catalog : PrivateServiceCatalog)

/-- The signed formats. -/
inductive Format where
  | legacyEndpoint
  | endpointV2
  | service
  | envelope
  | catalog
  deriving DecidableEq

namespace SignedRecord

/-- The format of a record. -/
def format : SignedRecord → Format
  | .endpoint rec => if 2 ≤ rec.version then .endpointV2 else .legacyEndpoint
  | .service _ => .service
  | .envelope _ => .envelope
  | .catalog _ => .catalog

/-- The node that signs a record. -/
def signer : SignedRecord → String
  | .endpoint rec => rec.nodeID
  | .service rec => rec.nodeID
  | .envelope env => env.publisherNodeID
  | .catalog listed => listed.nodeID

variable (rt : Runtime)

/-- The text that is signed. -/
def payload : SignedRecord → String
  | .endpoint rec => signingPayload rec
  | .service rec => serviceSigningPayload rec
  | .envelope env => envelopeSigningPayload env
  | .catalog listed => privateCatalogSigningPayload rt listed

/-- The lines of that text, if no field has a line feed. -/
def lines : SignedRecord → List String
  | .endpoint rec =>
    if 2 ≤ rec.version then
      ["vx6/endpoint-record/v2", formatInt rec.version.toNat, formatInt rec.sequence.toNat,
        rec.nodeID, rec.nodeName,
        rec.address, rec.publicKey, rec.issuedAt, rec.expiresAt]
    else [rec.nodeID, rec.nodeName, rec.address, rec.publicKey, rec.issuedAt, rec.expiresAt]
  | .service rec =>
    [rec.nodeID, rec.nodeName, rec.serviceName, rec.aliasName, rec.address, boolText rec.isHidden,
      boolText rec.isPrivate, rec.hiddenProfile, join rec.introPoints ",", join rec.standbyIntroPoints ",",
      rec.publicKey, rec.issuedAt, rec.expiresAt]
  | .envelope env =>
    [env.key, env.value, env.originNodeID, env.publisherNodeID, env.publisherPublicKey,
      formatInt env.version.toNat, env.issuedAt, env.expiresAt, env.observedAt]
  | .catalog listed =>
    [listed.nodeID, listed.nodeName, listed.publicKey, rt.marshalServices listed.services, listed.issuedAt,
      listed.expiresAt]

/-- No field has a line feed. -/
def OneLine (r : SignedRecord) : Prop := ∀ line ∈ r.lines rt, '\n' ∉ line.toList

/-- The verifier of the format accepts the record. -/
def VerifiedAt (now : Time) : SignedRecord → Prop
  | .endpoint rec => (verifyEndpoint rt.toCrypto rec now).isOk = true
  | .service rec => (verifyServiceRecord rt.toCrypto rec now).isOk = true
  | .envelope env => ∃ key, (verifyEnvelope rt key env now).isOk = true
  | .catalog listed => (verifyPrivateServiceCatalog rt listed now).isOk = true

end SignedRecord

/-- The primitives of the records with `ed25519.Sign`. -/
def signerOf (rt : Runtime) (sign : Bytes → Bytes → Bytes) :
    Signer := { rt.toCrypto with ed25519Sign := sign }

/-- The records that the program signs. A service record is signed as it stands. -/
inductive Constructed (rt : Runtime) (sign : Bytes → Bytes → Bytes) : SignedRecord → Prop
  | endpoint {id : Identity} {nodeName address : String} {ttl : Duration} {now : Time} {sequence : UInt64}
      {rec : EndpointRecord}
        (h : newEndpointRecord (signerOf rt sign) id nodeName address ttl now sequence = .ok rec) :
      Constructed rt sign (.endpoint rec)
  | service (id : Identity) (rec : ServiceRecord) :
      Constructed rt sign (.service (signServiceRecord (signerOf rt sign) id rec))
  | envelope {id : Identity} (hid : id.validate rt.toCrypto = .ok ()) (key value : String)
      (info : ValidatedValue)
      (now : Time) : Constructed rt sign
        (.envelope (signedEnvelopeFor (publisherOf sign id) key value info now))
  | catalog {sorter : SliceSort} {id : Identity} {nodeName : String} {services : List ServiceRecord}
      {ttl : Duration} {now : Time} {catalog : PrivateServiceCatalog}
      (h : newPrivateServiceCatalog rt sign sorter id nodeName services ttl now = .ok catalog) :
      Constructed rt sign (.catalog catalog)

/-- The program signs the record, or its verifier accepts it at some time. -/
def Admissible (rt : Runtime) (sign : Bytes → Bytes → Bytes) (r : SignedRecord) : Prop :=
  Constructed rt sign r ∨ ∃ now, r.VerifiedAt rt now

/-! ## Lines -/

/-- The text with the given lines. -/
def unlines : List String → String
  | [] => ""
  | line :: rest => rest.foldl (fun text line => text ++ line ++ "\n") (line ++ "\n")

theorem toList_unlines (lines : List String) :
    (unlines lines).toList = lines.flatMap fun line => line.toList ++ ['\n'] := by
  have hfold : ∀ (rest : List String) (text : String),
      (rest.foldl (fun text line => text ++ line ++ "\n") text).toList =
        text.toList ++ rest.flatMap fun line => line.toList ++ ['\n'] := by
    intro rest
    induction rest with
    | nil => intro text; simp
    | cons line rest ih =>
      intro text
      rw [List.foldl_cons, ih, String.toList_append, String.toList_append, List.flatMap_cons]
      simp
  cases lines with
  | nil => rfl
  | cons line rest =>
    rw [unlines, hfold, String.toList_append, List.flatMap_cons]
    rfl

/-- A text has one list of lines. -/
theorem unlines_inj {a b : List String} (ha : ∀ l ∈ a, '\n' ∉ l.toList) (hb : ∀ l ∈ b, '\n' ∉ l.toList)
    (h : unlines a = unlines b) : a = b := by
  have hsplit : ∀ lines : List String, (∀ l ∈ lines, '\n' ∉ l.toList) →
      splitChars '\n' (unlines lines).toList = lines.map String.toList ++ [[]] := by
    intro lines hlines
    rw [toList_unlines]
    induction lines with
    | nil => rfl
    | cons l rest ih =>
      rw [List.flatMap_cons, List.append_assoc, List.singleton_append,
        splitChars_append (hlines l List.mem_cons_self),
          ih fun x hx => hlines x (List.mem_cons_of_mem _ hx)]
      rfl
  have hlists := (hsplit a ha).symm.trans
    ((congrArg (fun s => splitChars '\n' s.toList) h).trans (hsplit b hb))
  exact List.map_injective_iff.2 (fun _ _ => String.toList_inj.1) (List.append_cancel_right hlists)

theorem payload_eq_unlines (rt : Runtime) (r : SignedRecord) : r.payload rt = unlines (r.lines rt) := by
  cases r with
  | endpoint rec =>
    rw [SignedRecord.payload, signingPayload, SignedRecord.lines]
    split_ifs
    · rfl
    · rfl
  | service rec => rfl
  | envelope env => rfl
  | catalog listed => rfl

/-! ## Shapes -/

/-- The text of a public key. -/
def KeyText (text : String) : Prop := ∃ key, stdEncoding.decodeString text = some key ∧ key.length = 32

/-- What tells the formats with equally many lines apart. -/
def Shaped : SignedRecord → Prop
  | .endpoint rec => ':' ∈ rec.address.toList ∧ rec.nodeName.toList.length ≤ 16
  | .service _ => True
  | .envelope env => KeyText env.publisherPublicKey
  | .catalog listed => KeyText listed.publicKey

theorem colon_mem_of_validateIPv6Address {address : String} (h : validateIPv6Address address = .ok ()) :
    ':' ∈ address.toList := by
  simp only [validateIPv6Address, bind_eq_ok, orReject_eq_ok] at h
  obtain ⟨⟨host, port⟩, hsplit, -⟩ := h
  simp only [splitHostPort, Option.bind_eq_bind, Option.bind_eq_some_iff] at hsplit
  obtain ⟨⟨before, after⟩, hcut, -⟩ := hsplit
  rw [cutLast_eq hcut]
  exact List.mem_append_right _ List.mem_cons_self

theorem length_le_of_checkCanonicalNodeName {name : String} (h : checkCanonicalNodeName name = .ok ()) :
    name.toList.length ≤ 16 :=
  (length_le_len name).trans (chars_of_checkCanonicalNodeName h).2.1

theorem keyText_encodeToString {key : Bytes} (h : key.length = 32) :
    KeyText (stdEncoding.encodeToString key) :=
  ⟨key, Base64.decodeString_encodeToString Base64.proper_std key, h⟩

theorem exists_of_isOk {ε α : Type} {x : Except ε α} (h : x.isOk = true) : ∃ a, x = .ok a := by
  cases x with
  | error e => cases h
  | ok a => exact ⟨a, rfl⟩

theorem keyText_of_signed {cr : Crypto} {nodeID text publicKey signature : String}
    (h : SignedText cr nodeID text publicKey signature) : KeyText publicKey :=
  ⟨h.key, h.key_eq, h.key_size⟩

section Shapes

variable {rt : Runtime} {sign : Bytes → Bytes → Bytes} {r : SignedRecord}

theorem shaped_of_constructed (h : Constructed rt sign r) : Shaped r := by
  cases h with
  | endpoint h =>
    simp only [newEndpointRecord, bind_eq_ok, pure_eq_ok, mapError_eq_ok, rejectIf_eq_ok] at h
    obtain ⟨canonical, hname, _, haddress, _, -, _, -, rfl⟩ := h
    exact ⟨colon_mem_of_validateIPv6Address haddress,
      length_le_of_checkCanonicalNodeName (check_of_normalizeNodeName hname).2⟩
  | service id rec => trivial
  | envelope hid key value info now => exact keyText_encodeToString (fields_of_validate hid).2
  | catalog h =>
    simp only [newPrivateServiceCatalog, bind_eq_ok, pure_eq_ok, mapError_eq_ok, rejectIf_eq_ok] at h
    obtain ⟨canonical, -, _, -, _, hid, services, -, rfl⟩ := h
    exact keyText_encodeToString (fields_of_validate hid).2

/-- A record that is accepted has the shape, and a signature of its signer over its text. -/
theorem shaped_of_verifiedAt {now : Time} (h : r.VerifiedAt rt now) :
    Shaped r ∧ ∃ publicKey signature,
      Nonempty (SignedText rt.toCrypto r.signer (r.payload rt) publicKey signature) := by
  cases r with
  | endpoint rec =>
    obtain ⟨verified, hverify⟩ := exists_of_isOk h
    have hrecord := (verifyEndpoint_ok hverify).1
    simp only [verifyEndpoint, bind_eq_ok, rejectIf_eq_ok, orReject_eq_ok,
      validateCanonicalNodeName] at hverify
    obtain ⟨_, -, _, ⟨_, -, hname⟩, _, haddress, -⟩ := hverify
    subst hrecord
    exact ⟨⟨colon_mem_of_validateIPv6Address haddress, length_le_of_checkCanonicalNodeName hname⟩, _, _,
      ⟨verified.signed⟩⟩
  | service rec =>
    obtain ⟨signed, -⟩ := exists_of_isOk h
    exact ⟨trivial, _, _, ⟨signed⟩⟩
  | envelope env =>
    obtain ⟨key, h⟩ := h
    obtain ⟨signed, -⟩ := exists_of_isOk h
    exact ⟨keyText_of_signed signed, _, _, ⟨signed⟩⟩
  | catalog listed =>
    obtain ⟨signed, -⟩ := exists_of_isOk h
    exact ⟨keyText_of_signed signed, _, _, ⟨signed⟩⟩

theorem Admissible.shaped (h : Admissible rt sign r) : Shaped r := by
  rcases h with h | ⟨now, h⟩
  · exact shaped_of_constructed h
  · exact (shaped_of_verifiedAt h).1

end Shapes

/-- The number of lines of a format. -/
def Format.count : Format → Nat
  | .legacyEndpoint => 6
  | .endpointV2 => 9
  | .service => 13
  | .envelope => 9
  | .catalog => 6

theorem length_lines (rt : Runtime) (r : SignedRecord) : (r.lines rt).length = r.format.count := by
  cases r with
  | endpoint rec =>
    rw [SignedRecord.lines, SignedRecord.format]
    split_ifs
    · rfl
    · rfl
  | service rec => rfl
  | envelope env => rfl
  | catalog listed => rfl

/-- Different formats with equally many lines. -/
theorem Format.eq_of_count_eq {f g : Format} (hcount : f.count = g.count) (h : f ≠ g) :
    f = .legacyEndpoint ∧ g = .catalog ∨ f = .catalog ∧ g = .legacyEndpoint ∨
      f = .endpointV2 ∧ g = .envelope ∨ f = .envelope ∧ g = .endpointV2 := by
  cases f <;> cases g <;> first | exact absurd rfl h | decide | cases hcount

section Different

variable {rt : Runtime} {r s : SignedRecord}

theorem endpoint_of_format {f : Format} (h : r.format = f) (hf : f = .legacyEndpoint ∨ f = .endpointV2) :
    ∃ rec, r = .endpoint rec ∧ (2 ≤ rec.version ↔ f = .endpointV2) := by
  subst h
  cases r with
  | endpoint rec =>
    refine ⟨rec, rfl, ?_⟩
    rw [SignedRecord.format]
    split_ifs with hversion
    · exact iff_of_true hversion rfl
    · exact iff_of_false hversion nofun
  | service rec => rcases hf with hf | hf <;> cases hf
  | envelope env => rcases hf with hf | hf <;> cases hf
  | catalog listed => rcases hf with hf | hf <;> cases hf

theorem envelope_of_format (h : r.format = .envelope) : ∃ env, r = .envelope env := by
  cases r with
  | endpoint rec =>
    rw [SignedRecord.format] at h
    split_ifs at h
  | service rec => cases h
  | envelope env => exact ⟨env, rfl⟩
  | catalog listed => cases h

theorem catalog_of_format (h : r.format = .catalog) : ∃ listed, r = .catalog listed := by
  cases r with
  | endpoint rec =>
    rw [SignedRecord.format] at h
    split_ifs at h
  | service rec => cases h
  | envelope env => cases h
  | catalog listed => exact ⟨listed, rfl⟩

/-- The fifth line of an endpoint record of version 2 is a node name, that of an envelope a public key. -/
theorem endpointV2_ne_envelope (hr : Shaped r) (hs : Shaped s) (hendpoint : r.format = .endpointV2)
    (henvelope : s.format = .envelope) : r.lines rt ≠ s.lines rt := by
  obtain ⟨rec, rfl, hversion⟩ := endpoint_of_format hendpoint (.inr rfl)
  obtain ⟨env, rfl⟩ := envelope_of_format henvelope
  intro h
  rw [SignedRecord.lines, SignedRecord.lines, if_pos (hversion.2 rfl)] at h
  obtain ⟨key, hkey, hlen⟩ := hs
  have hname : rec.nodeName = env.publisherPublicKey := congrArg (fun lines => lines.getD 4 "") h
  have hlong := (Base64.facts_of_decodeString hkey hlen).1
  rw [← hname] at hlong
  exact absurd hr.2 (Nat.not_le.2 hlong)

/-- The third line of a legacy endpoint record is an address, that of a catalog a public key. -/
theorem legacyEndpoint_ne_catalog (hr : Shaped r) (hs : Shaped s) (hendpoint : r.format = .legacyEndpoint)
    (hcatalog : s.format = .catalog) : r.lines rt ≠ s.lines rt := by
  obtain ⟨rec, rfl, hversion⟩ := endpoint_of_format hendpoint (.inl rfl)
  obtain ⟨listed, rfl⟩ := catalog_of_format hcatalog
  intro h
  rw [SignedRecord.lines, SignedRecord.lines, if_neg fun h => nomatch hversion.1 h] at h
  obtain ⟨key, hkey, hlen⟩ := hs
  have haddress : rec.address = listed.publicKey := congrArg (fun lines => lines.getD 2 "") h
  have hcolon := (Base64.facts_of_decodeString hkey hlen).2
  rw [← haddress] at hcolon
  exact hcolon hr.1

/-- Shaped records of different formats have different lines. -/
theorem lines_ne_of_format_ne (hr : Shaped r) (hs : Shaped s) (h : r.format ≠ s.format) :
    r.lines rt ≠ s.lines rt := by
  intro heq
  have hcount : r.format.count = s.format.count := by rw [← length_lines rt, ← length_lines rt, heq]
  rcases Format.eq_of_count_eq hcount h with ⟨hf, hg⟩ | ⟨hf, hg⟩ | ⟨hf, hg⟩ | ⟨hf, hg⟩
  · exact legacyEndpoint_ne_catalog hr hs hf hg heq
  · exact legacyEndpoint_ne_catalog hs hr hg hf heq.symm
  · exact endpointV2_ne_envelope hr hs hf hg heq
  · exact endpointV2_ne_envelope hs hr hg hf heq.symm

end Different

/-! ## Fields of several lines -/

/-- The fields of a record, cut at their line feeds. -/
def SignedRecord.pieces (rt : Runtime) (r : SignedRecord) : List String :=
  (r.lines rt).flatMap fun line => split line '\n'

/-- A signature that starts like its message. -/
def echoSign (_ message : Bytes) : Bytes := (message ++ List.replicate 64 0).take 64

/-- Primitives that accept such signatures only. -/
def echoRuntime : Runtime :=
  .withoutDecoders
    { sha256 := fun _ => Vector.replicate 32 0
      ed25519Verify := fun _ message sig => decide (sig = echoSign [] message) }
    (jsonList marshalServiceRecord)

/-- The identity of the samples. -/
def echoIdentity : Identity where
  nodeID := "vx6_0000000000000000000000000000000000000000000000000000000000000000"
  publicKey := List.replicate 32 1
  privateKey := List.replicate 64 1

theorem echoIdentity_valid : echoIdentity.validate echoRuntime.toCrypto = .ok () := by decide +kernel

end Vx6.Dht
