import Vx6.Chat.Messages
import Vx6.Dht.StoreSafety

/-!
# Decryption of what peers store

AES-GCM panics on a nonce that does not have 12 bytes. Two readers of stored data hand it a nonce of
whatever size the data has: the decoder of hidden descriptors and the reader of chat ledgers.
`decryption_safe_iff` says on which data they do not panic; `short_nonce_panics` is a descriptor that
passes validation and makes the decoder panic.
-/

set_option autoImplicit false

namespace Vx6.Panics

open Vx6.Go Vx6.Lib Vx6.Record Vx6.Dht

/-- The primitives of both readers. -/
structure Primitives extends CipherRuntime where
  unmarshalLedger : Bytes → Option (List Chat.Envelope)
  unmarshalMessage : Bytes → Option String

/-- Those of the chat. -/
def Primitives.chat (rt : Primitives) : Chat.ChatRuntime :=
  { rt.toCrypto with
    gcmOpen := rt.gcmOpen
    unmarshalLedger := rt.unmarshalLedger
    unmarshalMessage := rt.unmarshalMessage }

/-- Data read from the DHT: a value under a descriptor key with the reference it is looked up by, or a
ledger with the secret of the contact. -/
inductive Stored where
  | descriptor (key value lookup : String)
  | ledger (stored : Option Bytes) (secret : String)

/-- Reading the data does not panic. -/
def Readable (rt : Primitives) (now : Time) : Stored → Prop
  | .descriptor key value lookup =>
      Safe (decodeHiddenServiceRecord rt.toCipherRuntime key value lookup now)
  | .ledger stored secret => Safe (Chat.fetchMessages rt.chat secret stored)

/-- The nonces that the reader gets to have 12 bytes. -/
def NoncesSized (rt : Primitives) (now : Time) : Stored → Prop
  | .descriptor key value lookup => ∀ desc ref epoch nonce,
      Dht.extractHiddenDescriptor rt.toRuntime key value now = .ok desc →
      parseHiddenLookupRef lookup = .ok ref → parseHiddenDescriptorEpoch key = .ok epoch →
      rawURLEncoding.decodeString desc.nonce = some nonce → nonce.length = gcmNonceSize
  | .ledger stored _ => ∀ raw messages, stored = some raw → rt.unmarshalLedger raw = some messages →
      ∀ env ∈ messages, Chat.NonceSized env

/-- Stored data makes its reader panic exactly when a nonce that the reader gets to does not have
12 bytes. -/
theorem decryption_safe_iff (rt : Primitives) (now : Time) (data : Stored) :
    Readable rt now data ↔ NoncesSized rt now data := by
  cases data with
  | descriptor key value lookup =>
    exact safe_decodeHiddenServiceRecord_iff rt.toCipherRuntime key value lookup now
  | ledger stored secret => exact Chat.safe_fetchMessages_iff rt.chat secret stored

/-! ## A nonce of three bytes -/

/-- A hidden descriptor whose nonce has three bytes. -/
def shortDescriptor : HiddenDescriptor := { forgedDescriptor with nonce := "AAAA" }

/-- Its JSON text. -/
def shortText : String :=
  jsonObject [("node_id", jsonString shortDescriptor.nodeID),
    ("service_tag", jsonString shortDescriptor.serviceTag),
    ("issued_at", jsonString shortDescriptor.issuedAt),
    ("expires_at", jsonString shortDescriptor.expiresAt),
    ("nonce", jsonString shortDescriptor.nonce),
    ("ciphertext", jsonString shortDescriptor.ciphertext)]

/-- A chat message whose nonce has three bytes. -/
def shortEnvelope : Chat.Envelope := { type := "msg", nonce := "AAAA", cipher := "AAAA" }

/-- The JSON text of a ledger with that message. -/
def shortLedger : Bytes :=
  bytes (jsonObject [("messages", "[" ++ jsonObject [("type", jsonString shortEnvelope.type),
    ("nonce", jsonString shortEnvelope.nonce), ("cipher", jsonString shortEnvelope.cipher)] ++ "]")])

/-- JSON decoding on these texts. As an envelope the descriptor has the two members the formats
share. No ciphertext opens. -/
def shortRuntime : Primitives :=
  { forgedRuntime with
    unmarshalEnvelope := fun raw =>
      if raw = shortText then
        some { issuedAt := shortDescriptor.issuedAt, expiresAt := shortDescriptor.expiresAt }
      else none
    unmarshalDescriptor := fun raw => if raw = shortText then some shortDescriptor else none
    unmarshalEnvelope_empty := if_neg (jsonObject_ne_empty _).symm
    unmarshalDescriptor_empty := if_neg (jsonObject_ne_empty _).symm
    gcmOpen := fun _ _ _ _ => none
    unmarshalPayload := fun _ => none
    unmarshalPlainRecord := fun _ => none
    unmarshalLedger := fun raw => if raw = shortLedger then some [shortEnvelope] else none
    unmarshalMessage := fun _ => none }

theorem shortRuntime_envelope {raw : String} (h : raw = shortText) :
    shortRuntime.unmarshalEnvelope raw =
      some { issuedAt := shortDescriptor.issuedAt, expiresAt := shortDescriptor.expiresAt } := by
  change (if raw = shortText then _ else _) = _
  rw [if_pos h]

theorem shortRuntime_descriptor {raw : String} (h : raw = shortText) :
    shortRuntime.unmarshalDescriptor raw = some shortDescriptor := by
  change (if raw = shortText then _ else _) = _
  rw [if_pos h]

theorem shortRuntime_ledger {raw : Bytes} (h : raw = shortLedger) :
    shortRuntime.unmarshalLedger raw = some [shortEnvelope] := by
  change (if raw = shortLedger then _ else _) = _
  rw [if_pos h]

/-- A descriptor with all its fields is parsed. -/
theorem parseHiddenDescriptor_of_fields {rt : Runtime} {raw : String} {desc : HiddenDescriptor}
    {issuedAt expiresAt : Time} {nonce ciphertext : Bytes}
    (hdecode : rt.unmarshalDescriptor raw = some desc)
    (hfields : (desc.nodeID = "" || desc.serviceTag = "" || desc.issuedAt = "" ||
      desc.expiresAt = "" || desc.nonce = "" || desc.ciphertext = "") = false)
    (hissued : parseRFC3339 desc.issuedAt = some issuedAt)
    (hexpires : parseRFC3339 desc.expiresAt = some expiresAt)
    (hnonce : rawURLEncoding.decodeString desc.nonce = some nonce)
    (hciphertext : rawURLEncoding.decodeString desc.ciphertext = some ciphertext) :
    parseHiddenDescriptor rt raw = .ok desc := by
  simp only [parseHiddenDescriptor, bind_eq_ok, rejectIf_eq_ok, orReject_eq_ok, pure_eq_ok,
    exists_const]
  exact ⟨desc, hdecode, hfields, issuedAt, hissued, expiresAt, hexpires, nonce, hnonce, ciphertext,
    hciphertext, rfl⟩

/-- A bare descriptor under a descriptor key is valid. -/
theorem validateLookupValue_of_descriptor {rt : Runtime} {key raw : String} {desc : HiddenDescriptor}
    {now issuedAt expiresAt : Time} {epoch : Int} (hbare : maybeDecodeEnvelope rt raw = .ok none)
    (hfamily : keyFamily key = .hiddenDescriptor) (hepoch : parseHiddenDescriptorEpoch key = .ok epoch)
    (hparse : parseHiddenDescriptor rt raw = .ok desc)
    (hissued : parseRFC3339 desc.issuedAt = some issuedAt)
    (hexpires : parseRFC3339 desc.expiresAt = some expiresAt) :
    ∃ v, validateLookupValue rt key raw now = .ok v := by
  simp only [validateLookupValue, hbare, validateInnerLookupValue, hfamily, validateDescriptor, hepoch,
    hparse, descriptorValue, recordTimes, hissued, hexpires, orReject]
  exact ⟨_, rfl⟩

theorem extractHiddenDescriptor_of_bare {rt : Runtime} {key raw : String} {desc : HiddenDescriptor}
    {now : Time} (hbare : maybeDecodeEnvelope rt raw = .ok none)
    (hparse : parseHiddenDescriptor rt raw = .ok desc) :
    Dht.extractHiddenDescriptor rt key raw now = .ok desc := by
  simp only [Dht.extractHiddenDescriptor, Dht.extractLookupPayload, hbare]
  exact hparse

theorem short_not_enveloped {raw : String} (h : raw = shortText) :
    maybeDecodeEnvelope shortRuntime.toRuntime raw = .ok none := by
  rw [maybeDecodeEnvelope, shortRuntime_envelope h]
  rfl

/-- The times of the descriptor. -/
theorem short_times :
    parseRFC3339 shortDescriptor.issuedAt = some (1717200000 * second) ∧
      parseRFC3339 shortDescriptor.expiresAt = some (1717207200 * second) := by
  decide

theorem short_parses {raw : String} (h : raw = shortText) :
    parseHiddenDescriptor shortRuntime.toRuntime raw = .ok shortDescriptor :=
  parseHiddenDescriptor_of_fields (shortRuntime_descriptor h) (by decide) short_times.1 short_times.2
    (by decide : rawURLEncoding.decodeString "AAAA" = some [0, 0, 0])
    (by decide : rawURLEncoding.decodeString "AAAA" = some [0, 0, 0])

set_option maxRecDepth 4000 in
theorem forgedKey_epoch :
    keyFamily forgedKey = .hiddenDescriptor ∧
      (parseHiddenDescriptorEpoch forgedKey).toOption = some 477000 := by
  decide

/-- A peer returns a descriptor with a nonce of three bytes: it is valid under its key, and decoding it
panics. So does fetching a ledger with such a message. -/
theorem short_nonce_panics :
    (∃ v, validateLookupValue shortRuntime.toRuntime forgedKey shortText sampleNow = .ok v) ∧
      ¬ Readable shortRuntime sampleNow (.descriptor forgedKey shortText "alias") ∧
      ¬ Readable shortRuntime sampleNow (.ledger (some shortLedger) "secret") := by
  have hbare := short_not_enveloped rfl
  have hparse := short_parses rfl
  have hepoch := ok_of_toOption forgedKey_epoch.2
  refine ⟨validateLookupValue_of_descriptor hbare forgedKey_epoch.1 hepoch hparse short_times.1
    short_times.2, ?_, ?_⟩
  · intro hread
    have href : parseHiddenLookupRef "alias" = .ok { aliasName := "alias" } :=
      ok_of_toOption (by decide)
    have hsized := (safe_decodeHiddenServiceRecord_iff _ _ _ _ _).1 hread shortDescriptor _ _ [0, 0, 0]
      (extractHiddenDescriptor_of_bare hbare hparse) href hepoch
      (by decide : rawURLEncoding.decodeString "AAAA" = some [0, 0, 0])
    cases hsized
  · intro hread
    have hsized := (Chat.safe_fetchMessages_iff _ _ _).1 hread shortLedger [shortEnvelope] rfl
      (shortRuntime_ledger rfl) shortEnvelope List.mem_cons_self rfl [0, 0, 0]
      (by decide : rawURLEncoding.decodeString "AAAA" = some [0, 0, 0]) (by decide)
    cases hsized

end Vx6.Panics
