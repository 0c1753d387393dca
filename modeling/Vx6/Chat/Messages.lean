import Vx6.Dht.HiddenDescriptor

/-!
# Reading a chat ledger

`FetchMessages` and `OpenMessage` of `sdk/chat`: a ledger is read from the DHT and every message of
type `msg` is decrypted; a message that cannot be decrypted is skipped.
-/

set_option autoImplicit false

namespace Vx6.Chat

open Vx6.Go Vx6.Lib Vx6.Dht

/-- `Envelope`: the fields that `FetchMessages` reads. -/
structure Envelope where
  id : String := ""
  type : String := ""
  seq : UInt64 := 0
  fromNode : String := ""
  toNode : String := ""
  createdAt : String := ""
  nonce : String := ""
  cipher : String := ""
  mediaName : String := ""
  mediaSize : Int := 0
  mediaSHA : String := ""

/-- `PlainMessage`. -/
structure PlainMessage where
  id : String
  type : String
  seq : UInt64
  fromNode : String
  toNode : String
  createdAt : String
  text : String := ""
  mediaName : String
  mediaSize : Int
  mediaSHA : String

/-- The primitives of the chat: SHA-256, AES-GCM `Open`, and JSON decoding of a ledger (its messages)
and of a message (its text). -/
structure ChatRuntime extends Crypto where
  gcmOpen : Bytes → Bytes → Bytes → Bytes → Option Bytes
  unmarshalLedger : Bytes → Option (List Envelope)
  unmarshalMessage : Bytes → Option String

/-- The errors of `OpenMessage` and `FetchMessages`. -/
inductive ChatError where
  | fetch
  | decodeLedger
  | decodeNonce
  | decodeCipher
  | decrypt
  | decodeMessage
  deriving DecidableEq, Repr

/-- `deriveMessageKey`. -/
def deriveMessageKey (cr : Crypto) (secret fromNode toNode : String) (seq : UInt64) : Bytes :=
  cr.sum ("vx6-ratchet-v1\n" ++ secret ++ "\n" ++ fromNode ++ "\n" ++ toNode ++ "\n" ++
    toString seq.toNat)

/-- `openWithKey`. -/
def openWithKey (rt : ChatRuntime) (msgKey : Bytes) (env : Envelope) : Panicking ChatError Bytes := do
  let nonce ← attempt (orReject (rawURLEncoding.decodeString env.nonce) .decodeNonce)
  let ciphertext ← attempt (orReject (rawURLEncoding.decodeString env.cipher) .decodeCipher)
  -- the size of the nonce has not been looked at
  let opened ← gcmOpenWith rt.gcmOpen (msgKey.take 32) nonce ciphertext
    (bytes (env.fromNode ++ "\n" ++ env.toNode))
  attempt (orReject opened .decrypt)

/-- `OpenMessage`. -/
def openMessage (rt : ChatRuntime) (secret : String) (env : Envelope) : Panicking ChatError String := do
  let key := deriveMessageKey rt.toCrypto secret env.fromNode env.toNode env.seq
  let raw ← openWithKey rt key env
  attempt (orReject (rt.unmarshalMessage raw) .decodeMessage)

/-- The message of an envelope without its text. -/
def Envelope.plain (env : Envelope) : PlainMessage :=
  { id := env.id, type := env.type, seq := env.seq, fromNode := env.fromNode, toNode := env.toNode,
    createdAt := env.createdAt, mediaName := env.mediaName, mediaSize := env.mediaSize,
    mediaSHA := env.mediaSHA }

/-- The loop of `FetchMessages`. -/
def readMessages (rt : ChatRuntime) (secret : String) :
    List Envelope → Panicking ChatError (List PlainMessage)
  | [] => return []
  | env :: rest =>
      if env.type = "msg" then do
        match ← caught (openMessage rt secret env) with
        | .ok text =>
            let messages ← readMessages rt secret rest
            return { env.plain with text := text } :: messages
        | .error _ => readMessages rt secret rest
      else do
        let messages ← readMessages rt secret rest
        return env.plain :: messages

/-- `FetchMessages`; `stored` is what the DHT returns under the key of the two nodes. -/
def fetchMessages (rt : ChatRuntime) (secret : String) (stored : Option Bytes) :
    Panicking ChatError (List PlainMessage) := do
  let raw ← attempt (orReject stored .fetch)
  let messages ← attempt (orReject (rt.unmarshalLedger raw) .decodeLedger)
  readMessages rt secret messages

/-! ## When reading does not panic -/

/-- The envelope does not get to a decryption with a nonce of another size than 12 bytes. -/
def NonceSized (env : Envelope) : Prop :=
  env.type = "msg" → ∀ nonce, rawURLEncoding.decodeString env.nonce = some nonce →
    (rawURLEncoding.decodeString env.cipher).isSome = true → nonce.length = gcmNonceSize

theorem safe_openMessage_iff (rt : ChatRuntime) (secret : String) (env : Envelope)
    (htype : env.type = "msg") : Safe (openMessage rt secret env) ↔ NonceSized env := by
  simp only [openMessage, openWithKey, gcmOpenWith, bind_assoc, safe_attempt_bind_iff,
    safe_guarded_bind_iff, orReject_eq_ok, NonceSized, Option.isSome_iff_exists]
  constructor
  · rintro hsafe - nonce hnonce ⟨ciphertext, hciphertext⟩
    exact (hsafe nonce hnonce ciphertext hciphertext).1
  · intro hsized nonce hnonce ciphertext hciphertext
    exact ⟨hsized htype nonce hnonce ⟨ciphertext, hciphertext⟩, fun _ _ => safe_attempt _⟩

/-- Reading a list of messages does not panic exactly when no message does. -/
theorem safe_readMessages_iff (rt : ChatRuntime) (secret : String) (messages : List Envelope) :
    Safe (readMessages rt secret messages) ↔ ∀ env ∈ messages, NonceSized env := by
  induction messages with
  | nil => simp [readMessages, safe_pure]
  | cons env rest ih =>
    rw [List.forall_mem_cons, readMessages]
    by_cases htype : env.type = "msg"
    · rw [if_pos htype, safe_caught_bind_iff, ← safe_openMessage_iff rt secret env htype, ← ih]
      constructor
      · rintro ⟨r, hr, hrest⟩
        refine ⟨by rw [Safe, hr]; exact Option.some_ne_none r, ?_⟩
        cases r with
        | error e => exact hrest
        | ok text => exact (safe_bind_return_iff _ _).1 hrest
      · rintro ⟨hopen, hrest⟩
        obtain ⟨r, hr⟩ := Option.ne_none_iff_exists'.1 hopen
        refine ⟨r, hr, ?_⟩
        cases r with
        | error e => exact hrest
        | ok text => exact (safe_bind_return_iff _ _).2 hrest
    · rw [if_neg htype, safe_bind_return_iff, ih]
      exact ⟨fun h => ⟨fun h' => absurd h' htype, h⟩, fun h => h.2⟩

/-- Fetching messages does not panic exactly when no message of the ledger does. -/
theorem safe_fetchMessages_iff (rt : ChatRuntime) (secret : String) (stored : Option Bytes) :
    Safe (fetchMessages rt secret stored) ↔
      ∀ raw messages, stored = some raw → rt.unmarshalLedger raw = some messages →
        ∀ env ∈ messages, NonceSized env := by
  simp only [fetchMessages, safe_attempt_bind_iff, orReject_eq_ok, safe_readMessages_iff]
  exact ⟨fun h raw messages hraw hm => h raw hraw messages hm,
    fun h raw hraw messages hm => h raw messages hraw hm⟩

end Vx6.Chat
