import Vx6.Secure.Handshake
import Vx6.Lib.Chunks

/-!
# Reading and writing on a session

`Conn.Read` and `Conn.Write` of `internal/secure/session.go` on an established session. A write is cut
into chunks, each sealed under a nonce of direction and counter and sent as one length-prefixed frame;
the connection below may refuse a frame, possibly after part of it has gone out. A read takes one frame
off the connection when its buffer is empty.

`Session` puts the two ends together with the bytes in flight, and records the calls of `Seal` and the
bytes that went in and came out. `Numbered` says which counters a sequence of calls uses.
-/

set_option autoImplicit false

namespace Vx6.Secure

open Vx6.Go Vx6.Lib

/-- `maxChunkSize`. -/
def maxChunkSize : Nat := 32 * 1024

/-- `nonce`. -/
def nonce (dir : UInt8) (counter : UInt64) : Bytes := [dir, 0, 0, 0] ++ putUint64 counter

theorem nonce_inj {dir dir' : UInt8} {counter counter' : UInt64} :
    nonce dir counter = nonce dir' counter' ↔ dir = dir' ∧ counter = counter' := by
  constructor
  · intro h
    obtain ⟨hdir, hcounter⟩ := List.append_inj h rfl
    exact ⟨(List.cons.inj hdir).1, putUint64_injective hcounter⟩
  · rintro ⟨rfl, rfl⟩
    rfl

/-! ## Writing -/

/-- What the connection below does with a frame: it takes all of it, or fails in one of the two writes
of `proto.WriteLengthPrefixed` after some bytes of it. -/
inductive Delivery where
  | sent
  | sizeFailed (taken : Nat)
  | payloadFailed (taken : Nat)
  deriving DecidableEq, Repr

/-- The errors of `Read` and `Write`. -/
inductive ConnError where
  | frame (e : SessionError)
  | decryptChunk
  | writeSize
  | writePayload
  deriving DecidableEq, Repr

/-- `proto.WriteLengthPrefixed` on such a connection: the bytes that go out, and the error. -/
def Delivery.write (d : Delivery) (payload : Bytes) : Bytes × Option ConnError :=
  match d with
  | .sent => (writeLengthPrefixed payload, none)
  | .sizeFailed taken => ((putUint32 payload.length).take taken, some .writeSize)
  | .payloadFailed taken => (putUint32 payload.length ++ payload.take taken, some .writePayload)

/-- A call of `Seal` in `Write`, and what became of the frame. -/
structure SealCall where
  dir : UInt8
  counter : UInt64
  plain : Bytes
  delivery : Delivery
  deriving DecidableEq, Repr

/-- The nonce of a call. -/
def SealCall.nonce (c : SealCall) : Bytes := Secure.nonce c.dir c.counter

/-- The frame of a call that was sent. -/
def SealCall.frame (aead : Aead) (c : SealCall) : Bytes :=
  writeLengthPrefixed (aead.sealBytes c.nonce c.plain)

/-- The outcome of `Write`: its results, the calls of `Seal` it made and the bytes that went out. -/
structure WriteResult where
  conn : Conn
  total : Nat
  err : Option ConnError
  seals : List SealCall
  wire : Bytes

namespace Conn

/-- The loop of `Write` over its chunks. The frames that the list `link` does not speak of are
sent. -/
def writeChunks (aead : Aead) (c : Conn) : List Bytes → List Delivery → WriteResult
  | [], _ => ⟨c, 0, none, [], []⟩
  | plain :: rest, link =>
      let delivery := link.headD .sent
      let sealed := aead.sealBytes (nonce c.writeDir c.writeCtr) plain
      let call : SealCall := ⟨c.writeDir, c.writeCtr, plain, delivery⟩
      match delivery.write sealed with
      -- the counter stays where it is
      | (wire, some e) => ⟨c, 0, some e, [call], wire⟩
      | (wire, none) =>
          let r := writeChunks aead { c with writeCtr := c.writeCtr + 1 } rest link.tail
          ⟨r.conn, plain.length + r.total, r.err, call :: r.seals, wire ++ r.wire⟩

/-- `Write`. -/
def write (aead : Aead) (c : Conn) (p : Bytes) (link : List Delivery) : WriteResult :=
  c.writeChunks aead (chunks maxChunkSize p) link

/-! ## Reading -/

/-- What is left of a stream after a failed `proto.ReadLengthPrefixed`. A stream that holds no whole
frame is waited for; should the connection end there, nobody reads the rest. -/
def leftAfter (e : SessionError) (stream : Bytes) : Bytes :=
  match e with
  | .invalidSize _ => stream.drop 4
  | _ => stream

/-- The first half of `Read`: an empty buffer is filled from the next frame of the stream. -/
def fill (aead : Aead) (c : Conn) (stream : Bytes) : Except ConnError Conn × Bytes :=
  if c.readBuf = [] then
    match readLengthPrefixed stream (maxChunkSize + 1024) with
    | .error e => (.error (.frame e), leftAfter e stream)
    | .ok (payload, rest) =>
        match aead.openBytes (nonce c.readDir c.readCounter) payload with
        | none => (.error .decryptChunk, rest)
        | some plain => (.ok { c with readCounter := c.readCounter + 1, readBuf := plain }, rest)
  else (.ok c, stream)

/-- `Read` with a buffer of `size` bytes: the bytes read or the error, the connection, and the rest of
the stream. -/
def read (aead : Aead) (c : Conn) (stream : Bytes) (size : Nat) :
    Except ConnError Bytes × Conn × Bytes :=
  match c.fill aead stream with
  | (.error e, rest) => (.error e, c, rest)
  | (.ok filled, rest) =>
      (.ok (filled.readBuf.take size), { filled with readBuf := filled.readBuf.drop size }, rest)

end Conn

/-! ## The two ends -/

/-- The two ends of a session. -/
inductive Side where
  | client
  | server
  deriving DecidableEq, Repr

/-- The opposite end. -/
def Side.other : Side → Side
  | .client => .server
  | .server => .client

@[simp] theorem Side.other_ne (side : Side) : side.other ≠ side := by
  cases side <;> decide

@[simp] theorem Side.ne_other (side : Side) : side ≠ side.other := side.other_ne.symm

/-- The direction an end writes in. -/
def Side.dir : Side → UInt8
  | .client => 0
  | .server => 1

theorem Side.dir_injective : Function.Injective Side.dir := by
  intro a b h
  cases a <;> cases b <;> first | rfl | cases h

/-- An end of a session with a record of its history: the calls of `Seal`, the bytes on the way from
it to the other end, and the bytes its `Write`s took and its `Read`s returned. -/
structure EndState where
  conn : Conn
  seals : List SealCall := []
  inFlight : Bytes := []
  written : Bytes := []
  returned : Bytes := []

/-- A session under one key. -/
abbrev Session := Side → EndState

/-- The session after the handshake. -/
def Session.start : Session := fun side => { conn := newConn (side = .client) }

/-- What can happen to a session: a call of `Write` or `Read` at one end, or an attacker who replaces
the bytes on their way from an end by bytes of its choice. -/
inductive Op where
  | write (side : Side) (data : Bytes) (link : List Delivery)
  | read (side : Side) (size : Nat)
  | tamper (side : Side) (stream : Bytes)

/-- The session after a step. -/
def Session.step (aead : Aead) (s : Session) : Op → Session
  | .write side data link =>
      let r := (s side).conn.write aead data link
      Function.update s side
        { s side with
          conn := r.conn
          seals := (s side).seals ++ r.seals
          inFlight := (s side).inFlight ++ r.wire
          written := (s side).written ++ data.take r.total }
  | .read side size =>
      let (out, conn, rest) := (s side).conn.read aead (s side.other).inFlight size
      Function.update
        (Function.update s side
          { s side with conn := conn, returned := (s side).returned ++ out.toOption.getD [] })
        side.other { s side.other with inFlight := rest }
  | .tamper side stream => Function.update s side { s side with inFlight := stream }

/-- A side is this one or the other. -/
theorem Side.eq_or_eq_other (a b : Side) : a = b ∨ a = b.other := by
  cases a <;> cases b <;> first | exact .inl rfl | exact .inr rfl

namespace Session

variable (aead : Aead) (s : Session) (side : Side)

theorem step_write_self (data : Bytes) (link : List Delivery) :
    s.step aead (.write side data link) side =
      { s side with
        conn := ((s side).conn.write aead data link).conn
        seals := (s side).seals ++ ((s side).conn.write aead data link).seals
        inFlight := (s side).inFlight ++ ((s side).conn.write aead data link).wire
        written := (s side).written ++ data.take ((s side).conn.write aead data link).total } :=
  Function.update_self ..

theorem step_write_other (data : Bytes) (link : List Delivery) :
    s.step aead (.write side data link) side.other = s side.other :=
  Function.update_of_ne side.other_ne ..

theorem step_read_self (size : Nat) :
    s.step aead (.read side size) side =
      { s side with
        conn := ((s side).conn.read aead (s side.other).inFlight size).2.1
        returned := (s side).returned ++
          ((s side).conn.read aead (s side.other).inFlight size).1.toOption.getD [] } :=
  (Function.update_of_ne side.ne_other ..).trans (Function.update_self ..)

theorem step_read_other (size : Nat) :
    s.step aead (.read side size) side.other =
      { s side.other with
        inFlight := ((s side).conn.read aead (s side.other).inFlight size).2.2 } :=
  Function.update_self ..

theorem step_tamper_self (stream : Bytes) :
    s.step aead (.tamper side stream) side = { s side with inFlight := stream } :=
  Function.update_self ..

theorem step_tamper_other (stream : Bytes) :
    s.step aead (.tamper side stream) side.other = s side.other :=
  Function.update_of_ne side.other_ne ..

end Session

/-- Reading leaves the directions and the write counter alone. -/
theorem Conn.read_frame (aead : Aead) (c : Conn) (stream : Bytes) (size : Nat) :
    ∃ counter buf, (c.read aead stream size).2.1 = { c with readCounter := counter, readBuf := buf } := by
  unfold read fill
  by_cases hbuf : c.readBuf = []
  · rw [if_pos hbuf]
    rcases readLengthPrefixed stream (maxChunkSize + 1024) with e | ⟨payload, rest⟩
    · exact ⟨_, _, rfl⟩
    · dsimp only
      cases aead.openBytes (nonce c.readDir c.readCounter) payload with
      | none => exact ⟨_, _, rfl⟩
      | some plain => exact ⟨_, _, rfl⟩
  · rw [if_neg hbuf]
    exact ⟨_, _, rfl⟩

/-! ## The counters of a sequence of calls -/

/-- The calls of one end that started with the counter `c` and left it at `c'`: every frame that is
sent advances it. -/
def Numbered (dir : UInt8) : UInt64 → List SealCall → UInt64 → Prop
  | c, [], c' => c = c'
  | c, call :: calls, c' => call.dir = dir ∧ call.counter = c ∧
      Numbered dir (if call.delivery = .sent then c + 1 else c) calls c'

theorem Numbered.append {dir : UInt8} {c c' c'' : UInt64} {calls calls' : List SealCall}
    (h : Numbered dir c calls c') (h' : Numbered dir c' calls' c'') :
    Numbered dir c (calls ++ calls') c'' := by
  induction calls generalizing c with
  | nil =>
    cases h
    exact h'
  | cons call calls ih => exact ⟨h.1, h.2.1, ih h.2.2⟩

/-- The number of frames that were sent. -/
def sentCount (calls : List SealCall) : Nat := calls.countP fun c => c.delivery = .sent

/-- The counters of a sequence lie between its ends. -/
theorem Numbered.counter_of_mem {dir : UInt8} {c c' : UInt64} {calls : List SealCall}
    (h : Numbered dir c calls c') {call : SealCall} (hmem : call ∈ calls) :
    call.dir = dir ∧ ∃ k ≤ sentCount calls, call.counter = c + UInt64.ofNat k := by
  induction calls generalizing c with
  | nil => exact absurd hmem List.not_mem_nil
  | cons first calls ih =>
    rcases List.mem_cons.1 hmem with rfl | hmem
    · exact ⟨h.1, 0, Nat.zero_le _, by rw [h.2.1]; simp⟩
    · obtain ⟨hdir, k, hk, hcounter⟩ := ih h.2.2 hmem
      refine ⟨hdir, ?_⟩
      by_cases hsent : first.delivery = .sent
      · rw [if_pos hsent] at hcounter
        refine ⟨k + 1, ?_, ?_⟩
        · rw [sentCount, List.countP_cons_of_pos (by simpa using hsent)]
          exact Nat.succ_le_succ hk
        · rw [hcounter, UInt64.ofNat_add, UInt64.add_assoc, UInt64.add_comm 1]
          rfl
      · rw [if_neg hsent] at hcounter
        refine ⟨k, ?_, hcounter⟩
        rw [sentCount, List.countP_cons_of_neg (by simpa using hsent)]
        exact hk

namespace Conn

variable (aead : Aead)

/-- A chunk whose frame is not sent ends the loop. -/
theorem writeChunks_failed (c : Conn) (plain : Bytes) (rest : List Bytes) {link : List Delivery}
    (h : link.headD .sent ≠ .sent) :
    ∃ e wire, c.writeChunks aead (plain :: rest) link =
      ⟨c, 0, some e, [⟨c.writeDir, c.writeCtr, plain, link.headD .sent⟩], wire⟩ := by
  unfold writeChunks
  cases hd : link.headD .sent with
  | sent => exact absurd hd h
  | sizeFailed taken => exact ⟨_, _, rfl⟩
  | payloadFailed taken => exact ⟨_, _, rfl⟩

/-- A chunk whose frame is sent advances the counter. -/
theorem writeChunks_sent (c : Conn) (plain : Bytes) (rest : List Bytes) {link : List Delivery}
    (h : link.headD .sent = .sent) :
    let call : SealCall := ⟨c.writeDir, c.writeCtr, plain, .sent⟩
    let r := { c with writeCtr := c.writeCtr + 1 }.writeChunks aead rest link.tail
    c.writeChunks aead (plain :: rest) link =
      ⟨r.conn, plain.length + r.total, r.err, call :: r.seals, call.frame aead ++ r.wire⟩ := by
  intro call r
  rw [writeChunks, h]
  rfl

/-- A write moves nothing but the counter, by the number of frames sent. -/
theorem writeChunks_numbered (c : Conn) (plains : List Bytes) (link : List Delivery) :
    Numbered c.writeDir c.writeCtr (c.writeChunks aead plains link).seals
        (c.writeChunks aead plains link).conn.writeCtr ∧
      (c.writeChunks aead plains link).conn =
        { c with writeCtr := (c.writeChunks aead plains link).conn.writeCtr } := by
  induction plains generalizing c link with
  | nil => exact ⟨rfl, rfl⟩
  | cons plain rest ih =>
    by_cases h : link.headD .sent = .sent
    · obtain ⟨hnum, hconn⟩ := ih { c with writeCtr := c.writeCtr + 1 } link.tail
      rw [writeChunks_sent aead c plain rest h]
      exact ⟨⟨rfl, rfl, hnum⟩, hconn⟩
    · obtain ⟨e, wire, heq⟩ := writeChunks_failed aead c plain rest h
      rw [heq]
      exact ⟨⟨rfl, rfl, if_neg h⟩, rfl⟩

end Conn

end Vx6.Secure
