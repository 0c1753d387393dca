import Vx6.Secure.Session
import Vx6.Go.Cipher
import Vx6.Go.Encoding

/-!
# The session key

The handshake of `internal/secure/session.go` after the remote `hello` has been read: both ends write
down the keys of the two sides in one order and derive the session key from that transcript. The keys
are binary and may contain the separator; `transcript_injective` goes by their size.
`transcript_agreement` says that two ends have the same transcript, and with hash functions that do
not collide the same key, only when they agree on the kind of the session and on all four keys.
-/

set_option autoImplicit false

namespace Vx6.Secure

open Vx6.Go Vx6.Lib

/-- `sessionVersion`. -/
def sessionVersion : UInt8 := 2

/-- `buildTranscript`: client first, whichever side writes it. -/
def buildTranscript (kind : UInt8) (localEph remoteEph localStaticPub remoteStaticPub : Bytes)
    (initiator : Bool) : Bytes :=
  let clientEph := if initiator then localEph else remoteEph
  let serverEph := if initiator then remoteEph else localEph
  let clientPub := if initiator then localStaticPub else remoteStaticPub
  let serverPub := if initiator then remoteStaticPub else localStaticPub
  bytes "vx6-transcript-v2\n" ++ [kind] ++ bytes "\n" ++ clientPub ++ bytes "\n" ++ serverPub ++
    bytes "\n" ++ clientEph ++ serverEph

/-! ## What a transcript records -/

/-- What an end knows of the session: its kind, the keys it takes for its own and for the remote ones,
and its role. -/
structure Party where
  kind : UInt8
  localEph : Vector UInt8 32
  remoteEph : Vector UInt8 32
  localStaticPub : Vector UInt8 32
  remoteStaticPub : Vector UInt8 32
  initiator : Bool
  deriving DecidableEq

/-- The same from outside: who is the client, and who the server. -/
structure View where
  kind : UInt8
  clientEph : Vector UInt8 32
  serverEph : Vector UInt8 32
  clientPub : Vector UInt8 32
  serverPub : Vector UInt8 32
  deriving DecidableEq

namespace Party

/-- The transcript an end computes. -/
def transcript (p : Party) : Bytes :=
  buildTranscript p.kind p.localEph.toList p.remoteEph.toList p.localStaticPub.toList
    p.remoteStaticPub.toList p.initiator

/-- The client is the side that initiates. -/
def view (p : Party) : View :=
  if p.initiator then ⟨p.kind, p.localEph, p.remoteEph, p.localStaticPub, p.remoteStaticPub⟩
  else ⟨p.kind, p.remoteEph, p.localEph, p.remoteStaticPub, p.localStaticPub⟩

end Party

/-- The bytes of a transcript, in the order they are written. -/
def View.transcript (v : View) : Bytes :=
  bytes "vx6-transcript-v2\n" ++ [v.kind] ++ bytes "\n" ++ v.clientPub.toList ++ bytes "\n" ++
    v.serverPub.toList ++ bytes "\n" ++ v.clientEph.toList ++ v.serverEph.toList

theorem Party.transcript_eq (p : Party) : p.transcript = p.view.transcript := by
  unfold Party.transcript Party.view buildTranscript
  cases p.initiator with
  | true => rfl
  | false => rfl

/-- Every field of a transcript has a fixed size, so the separators need not be found. -/
theorem transcript_injective : Function.Injective View.transcript := by
  intro v w h
  have hsize : ∀ x y : Vector UInt8 32, x.toList.length = y.toList.length := by
    intro x y
    rw [Vector.length_toList, Vector.length_toList]
  -- the fields are split off from the end, where each has the size of a key or of a separator
  obtain ⟨h, hserverEph⟩ := List.append_inj' h (hsize _ _)
  obtain ⟨h, hclientEph⟩ := List.append_inj' h (hsize _ _)
  obtain ⟨h, hserverPub⟩ := List.append_inj' (List.append_inj' h rfl).1 (hsize _ _)
  obtain ⟨h, hclientPub⟩ := List.append_inj' (List.append_inj' h rfl).1 (hsize _ _)
  have hkind := (List.append_inj' (List.append_inj' h rfl).1 rfl).2
  cases v
  cases w
  rw [View.mk.injEq]
  exact ⟨List.head_eq_of_cons_eq hkind, Vector.toList_inj.1 hclientEph, Vector.toList_inj.1 hserverEph,
    Vector.toList_inj.1 hclientPub, Vector.toList_inj.1 hserverPub⟩

/-- The primitives of the key derivation, next to those of `readHello`. `x25519Public` gives the
public key of a private one, `ecdh` refuses a point of low order, `newGCM` is `cipher.NewGCM` over
`aes.NewCipher`. -/
structure HandshakeRuntime extends SessionRuntime where
  x25519Public : Bytes → Vector UInt8 32
  ecdh : (priv pub : Bytes) → Option Bytes
  hkdfKey : (secret salt : Bytes) → (info : String) → (keyLength : Nat) → Option Bytes
  newGCM : Bytes → Option Aead
  ed25519Sign : (privateKey message : Bytes) → Bytes
  marshalHello : Hello → Option Bytes

/-- `deriveKey`. -/
def deriveKey (rt : HandshakeRuntime) (sharedSecret transcript : Bytes) : Option Bytes :=
  rt.hkdfKey sharedSecret (rt.sha256 transcript).toList "vx6-session-v2" 32

/-! ## The handshake -/

/-- The two counters, the unread plaintext and the two directions of a `Conn`. -/
structure Conn where
  readCounter : UInt64 := 0
  writeCtr : UInt64 := 0
  readBuf : Bytes := []
  writeDir : UInt8
  readDir : UInt8
  deriving DecidableEq, Repr

/-- The `Conn` a handshake ends with: the initiator writes in direction 0. -/
def newConn (initiator : Bool) : Conn :=
  if initiator then { writeDir := 0, readDir := 1 } else { writeDir := 1, readDir := 0 }

/-- An end of an established session. -/
structure Established where
  key : Bytes
  aead : Aead
  conn : Conn
  localNodeID : String
  peerNodeID : String
  peerPublicKey : Bytes

/-- The errors of `handshake`. -/
inductive HandshakeError where
  | encodeHello
  | writeHello
  | readHello (e : SessionError)
  | peerVersion (version : UInt8)
  | decodeEphemeral
  | remoteEphemeral
  | sharedKey
  | decodeStaticKey
  | sessionKey
  | createCipher
  deriving DecidableEq, Repr

/-- `buildHello`; `ed25519.Sign` panics on a private key of the wrong size. -/
def buildHello (rt : HandshakeRuntime) (id : Identity) (kind : UInt8) (eph : Bytes) :
    Panicking HandshakeError Hello := do
  let sig ← guarded (id.privateKey.length = privateKeySize)
    (rt.ed25519Sign id.privateKey (signingPayload sessionVersion kind id.nodeID eph))
  return { version := sessionVersion, nodeID := id.nodeID
           publicKey := stdEncoding.encodeToString id.publicKey
           ephemeral := stdEncoding.encodeToString eph
           signature := stdEncoding.encodeToString sig }

/-- `writeHello`, on a connection that takes the bytes or not. -/
def writeHello (rt : HandshakeRuntime) (accepts : Bool) (h : Hello) : Except HandshakeError Unit := do
  let _ ← orReject (rt.marshalHello h) .encodeHello
  rejectIf (!accepts) .writeHello

/-- `handshake`, with the private key it generates, the bytes that arrive on the connection and
whether the connection takes the local `hello`. -/
def handshake (rt : HandshakeRuntime) (priv stream : Bytes) (accepts : Bool) (kind : UInt8)
    (id : Identity) (initiator : Bool) : Panicking HandshakeError Established := do
  let localEph := (rt.x25519Public priv).toList
  let localHello ← buildHello rt id kind localEph
  attempt (if initiator then writeHello rt accepts localHello else .ok ())
  let remoteHello ← wrap .readHello (readHello rt.toSessionRuntime stream kind)
  attempt (rejectIf (remoteHello.version ≠ sessionVersion) (.peerVersion remoteHello.version))
  attempt (if initiator then .ok () else writeHello rt accepts localHello)
  let remoteEph ← attempt (orReject (stdEncoding.decodeString remoteHello.ephemeral) .decodeEphemeral)
  attempt (rejectIf (remoteEph.length ≠ 32) .remoteEphemeral)
  let shared ← attempt (orReject (rt.ecdh priv remoteEph) .sharedKey)
  let remoteStaticPub ←
    attempt (orReject (stdEncoding.decodeString remoteHello.publicKey) .decodeStaticKey)
  let transcript := buildTranscript kind localEph remoteEph id.publicKey remoteStaticPub initiator
  let key ← attempt (orReject (deriveKey rt shared transcript) .sessionKey)
  let aead ← attempt (orReject (rt.newGCM key) .createCipher)
  return { key := key, aead := aead, conn := newConn initiator, localNodeID := id.nodeID
           peerNodeID := remoteHello.nodeID, peerPublicKey := remoteStaticPub }

/-- An end of an established session as a party: its own keys, the keys in the `hello` it received, and the
secret behind its session key. -/
structure EndOf (rt : HandshakeRuntime) (priv stream : Bytes) (kind : UInt8) (id : Identity)
    (initiator : Bool) (e : Established) (p : Party) (shared : Bytes) : Prop where
  kind : p.kind = kind
  initiator : p.initiator = initiator
  localEph : p.localEph = rt.x25519Public priv
  localStaticPub : p.localStaticPub.toList = id.publicKey
  remoteStaticPub : p.remoteStaticPub.toList = e.peerPublicKey
  received : ∃ hello, Returns (readHello rt.toSessionRuntime stream p.kind) hello ∧
    stdEncoding.decodeString hello.publicKey = some p.remoteStaticPub.toList ∧
    stdEncoding.decodeString hello.ephemeral = some p.remoteEph.toList
  secret : rt.ecdh priv p.remoteEph.toList = some shared
  key : deriveKey rt shared p.transcript = some e.key

/-- A handshake that succeeds ends with the key of the transcript of its own keys and the keys it
received. -/
theorem handshake_returns {rt : HandshakeRuntime} {priv stream : Bytes} {accepts : Bool} {kind : UInt8}
    {id : Identity} {initiator : Bool} {e : Established} (hid : id.publicKey.length = publicKeySize)
    (h : Returns (handshake rt priv stream accepts kind id initiator) e) :
    ∃ p shared, EndOf rt priv stream kind id initiator e p shared := by
  simp only [handshake, returns_bind_iff, returns_attempt_iff, returns_wrap_iff, returns_pure_iff,
    rejectIf_eq_ok, orReject_eq_ok] at h
  obtain ⟨hello, -, -, -, remote, hremote, -, -, -, -, eph, hdecode, -, heph, shared, hshared, pub, hpub, key,
    hkey, aead, -, rfl⟩ := h
  have hpubSize := publicKey_of_readHello hremote hpub
  have hephSize : eph.length = 32 := by simpa using heph
  exact ⟨⟨kind, rt.x25519Public priv, ⟨eph.toArray, hephSize⟩, ⟨id.publicKey.toArray, hid⟩,
    ⟨pub.toArray, hpubSize⟩, initiator⟩, shared, rfl, rfl, rfl, rfl, rfl,
    ⟨remote, hremote, hpub, hdecode⟩, hshared, hkey⟩

/-- Neither hash function collides on what two ends put into it. -/
structure NoCollision (rt : HandshakeRuntime) (secret secret' transcript transcript' : Bytes) :
    Prop where
  sha256 : rt.sha256 transcript = rt.sha256 transcript' → transcript = transcript'
  hkdf : ∀ key, rt.hkdfKey secret (rt.sha256 transcript).toList "vx6-session-v2" 32 = some key →
    rt.hkdfKey secret' (rt.sha256 transcript').toList "vx6-session-v2" 32 = some key →
      secret = secret' ∧ (rt.sha256 transcript).toList = (rt.sha256 transcript').toList

/-- Two ends with one session key see the same session. -/
theorem view_eq_of_key {rt : HandshakeRuntime} {a b : Party} {secret secret' key : Bytes}
    (hfree : NoCollision rt secret secret' a.transcript b.transcript)
    (ha : deriveKey rt secret a.transcript = some key) (hb : deriveKey rt secret' b.transcript = some key) :
    a.view = b.view := by
  have htranscript := hfree.sha256 (Vector.toList_inj.1 (hfree.hkdf key ha hb).2)
  rw [a.transcript_eq, b.transcript_eq] at htranscript
  exact transcript_injective htranscript

/-- The transcripts of an initiator and of a responder are equal exactly when the two agree on the kind
and on all four keys, and any two ends with one session key see the same client, server and kind. So two
handshakes that succeed with one session key, whatever bytes arrived at each, are ends of one session. -/
theorem transcript_agreement :
    (∀ (k k' : UInt8) (e e' s s' f f' t t' : Vector UInt8 32),
      buildTranscript k e.toList e'.toList s.toList s'.toList true =
          buildTranscript k' f'.toList f.toList t'.toList t.toList false ↔
        k = k' ∧ e = f ∧ e' = f' ∧ s = t ∧ s' = t') ∧
    (∀ (rt : HandshakeRuntime) (a b : Party) (secret secret' key : Bytes),
      NoCollision rt secret secret' a.transcript b.transcript →
      deriveKey rt secret a.transcript = some key → deriveKey rt secret' b.transcript = some key →
      a.view = b.view) ∧
    ∀ (rt : HandshakeRuntime) (priv priv' stream stream' : Bytes) (accepts accepts' : Bool)
      (kind kind' : UInt8) (id id' : Identity) (initiator initiator' : Bool) (e e' : Established),
      id.publicKey.length = publicKeySize → id'.publicKey.length = publicKeySize →
      Returns (handshake rt priv stream accepts kind id initiator) e →
      Returns (handshake rt priv' stream' accepts' kind' id' initiator') e' → e.key = e'.key →
      ∃ p p' shared shared', EndOf rt priv stream kind id initiator e p shared ∧
        EndOf rt priv' stream' kind' id' initiator' e' p' shared' ∧
        (NoCollision rt shared shared' p.transcript p'.transcript → p.view = p'.view) := by
  refine ⟨fun k k' e e' s s' f f' t t' => ?_, fun rt a b secret secret' key => view_eq_of_key, ?_⟩
  · have hinj := transcript_injective.eq_iff (a := ⟨k, e, e', s, s'⟩) (b := ⟨k', f, f', t, t'⟩)
    rw [View.mk.injEq] at hinj
    exact hinj
  · intro rt priv priv' stream stream' accepts accepts' kind kind' id id' initiator initiator' e e' hid hid'
      h h' hkey
    obtain ⟨p, shared, hp⟩ := handshake_returns hid h
    obtain ⟨p', shared', hp'⟩ := handshake_returns hid' h'
    exact ⟨p, p', shared, shared', hp, hp', fun hfree => view_eq_of_key hfree hp.key (hkey ▸ hp'.key)⟩

/-! ## One session -/

/-- A hash of the first byte. -/
def plainHash (bs : Bytes) : Vector UInt8 32 := Vector.replicate 32 (bs.headD 0)

/-- The `hello` of an end whose keys repeat one byte each. -/
def plainHello (eph pub : UInt8) : Hello where
  version := sessionVersion
  nodeID := nodeIDFromPublicKey ⟨plainHash, fun _ _ _ => true⟩ (List.replicate 32 pub)
  publicKey := stdEncoding.encodeToString (List.replicate 32 pub)
  ephemeral := stdEncoding.encodeToString (List.replicate 32 eph)
  signature := stdEncoding.encodeToString (List.replicate 64 0)

/-- A key derivation that puts its inputs together, and a `hello` of two bytes. -/
def plainRuntime : HandshakeRuntime where
  sha256 := plainHash
  ed25519Verify _ _ _ := true
  unmarshalHello payload :=
    match payload with
    | [eph, pub] => some (plainHello eph pub)
    | _ => none
  x25519Public priv := Vector.replicate 32 (priv.headD 0)
  ecdh _ _ := some [7]
  hkdfKey secret salt _ _ := some (secret ++ salt)
  newGCM _ := some (tagAead 0)
  ed25519Sign _ _ := List.replicate 64 0
  marshalHello _ := some []

/-- The identity whose key repeats the byte. -/
def plainIdentity (pub : UInt8) : Identity where
  nodeID := nodeIDFromPublicKey plainRuntime.toCrypto (List.replicate 32 pub)
  publicKey := List.replicate 32 pub
  privateKey := List.replicate 64 0

/-- What the two ends of a session receive: the keys of the other one. -/
def clientStream : Bytes := [0, 0, 0, 2, 2, 4]
def serverStream : Bytes := [0, 0, 0, 2, 1, 3]

/-- The initiating end of a session. -/
def clientEnd : Party :=
  ⟨1, Vector.replicate 32 1, Vector.replicate 32 2, Vector.replicate 32 3, Vector.replicate 32 4, true⟩

/-- The other end of it. -/
def serverEnd : Party :=
  ⟨1, Vector.replicate 32 2, Vector.replicate 32 1, Vector.replicate 32 4, Vector.replicate 32 3, false⟩

theorem exists_returns (x : Panicking HandshakeError Established) (key : Bytes)
    (h : (x.run.bind fun result => result.toOption.map Established.key) = some key) :
    ∃ e, Returns x e ∧ e.key = key := by
  obtain ⟨result, hrun, hkey⟩ := Option.bind_eq_some_iff.1 h
  cases result with
  | error e => cases hkey
  | ok e => exact ⟨e, hrun, Option.some.inj hkey⟩

/-- The party of an end whose keys repeat one byte each. -/
theorem EndOf.party_eq {stream : Bytes} {eph pub eph' pub' : UInt8} {initiator : Bool} {e : Established}
    {p : Party} {shared : Bytes}
    (h : EndOf plainRuntime [eph] stream 1 (plainIdentity pub) initiator e p shared)
    (hread : Returns (readHello plainRuntime.toSessionRuntime stream 1) (plainHello eph' pub')) :
    p = ⟨1, Vector.replicate 32 eph, Vector.replicate 32 eph', Vector.replicate 32 pub,
      Vector.replicate 32 pub', initiator⟩ := by
  obtain ⟨hello, hhello, hpub, heph⟩ := h.received
  rw [h.kind] at hhello
  obtain rfl : hello = plainHello eph' pub' := Except.ok.inj (Option.some.inj (hhello.symm.trans hread))
  have hkeys : ∀ {key : UInt8} {v : Vector UInt8 32}, stdEncoding.decodeString
      (stdEncoding.encodeToString (List.replicate 32 key)) = some v.toList → v = Vector.replicate 32 key := by
    intro key v hv
    rw [Base64.decodeString_encodeToString Base64.proper_std, Option.some.injEq] at hv
    exact Vector.toList_inj.1 (hv.symm.trans Vector.toList_replicate.symm)
  have hlocal : p.localStaticPub = Vector.replicate 32 pub :=
    Vector.toList_inj.1 (h.localStaticPub.trans Vector.toList_replicate.symm)
  obtain ⟨kind, localEph, remoteEph, localPub, remotePub, role⟩ := p
  rw [Party.mk.injEq]
  exact ⟨h.kind, h.localEph, hkeys heph, hlocal, hkeys hpub, h.initiator⟩

/-- Both handshakes succeed with one key, and their ends see one session. -/
theorem transcript_agreement_of_one_session :
    ∃ e e' p p' shared shared',
      Returns (handshake plainRuntime [1] clientStream true 1 (plainIdentity 3) true) e ∧
      Returns (handshake plainRuntime [2] serverStream true 1 (plainIdentity 4) false) e' ∧
      e.key = e'.key ∧ EndOf plainRuntime [1] clientStream 1 (plainIdentity 3) true e p shared ∧
      EndOf plainRuntime [2] serverStream 1 (plainIdentity 4) false e' p' shared' ∧ p.view = p'.view := by
  obtain ⟨e, he, hkey⟩ := exists_returns
    (handshake plainRuntime [1] clientStream true 1 (plainIdentity 3) true) (7 :: List.replicate 32 118)
    (by decide +kernel)
  obtain ⟨e', he', hkey'⟩ := exists_returns
    (handshake plainRuntime [2] serverStream true 1 (plainIdentity 4) false) (7 :: List.replicate 32 118)
    (by decide +kernel)
  have hsame : e.key = e'.key := hkey.trans hkey'.symm
  obtain ⟨p, p', shared, shared', hp, hp', hview⟩ := transcript_agreement.2.2 plainRuntime [1] [2]
    clientStream serverStream true true 1 1 (plainIdentity 3) (plainIdentity 4) true false e e' rfl rfl he he'
    hsame
  have hclient : p = clientEnd := hp.party_eq (by unfold Returns; decide +kernel)
  have hserver : p' = serverEnd := hp'.party_eq (by unfold Returns; decide +kernel)
  have htranscript : p.transcript = p'.transcript := by
    rw [hclient, hserver]
    rfl
  have hsecret : shared = shared' := Option.some.inj (hp.secret.symm.trans hp'.secret)
  refine ⟨e, e', p, p', shared, shared', he, he', hsame, hp, hp', hview ?_⟩
  exact ⟨fun _ => htranscript, fun _ _ _ => ⟨hsecret, by rw [htranscript]⟩⟩

end Vx6.Secure
