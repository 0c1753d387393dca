import Vx6.Go.Cipher
import Vx6.Lib.Checks

/-!
# Cells and relay envelopes

The two formats of `internal/onion/cell.go`: the cell of fixed size that travels on one connection, and
the envelope around a relay command that travels under the layers of a circuit. `readCell_writeCell`
and `decode_encodeRelayEnvelope` read back what was written; `CircuitKeyState` holds the two ciphers
and counters that a client shares with one relay.
-/

set_option autoImplicit false

namespace Vx6.Onion

open Vx6.Go Vx6.Lib

/-! ## Constants -/

/-- `cellVersion`. -/
def cellVersion : UInt8 := 1

/-- `cellSize`. -/
def cellSize : Nat := 1024

/-- `cellHeaderSize`. -/
def cellHeaderSize : Nat := 20

/-- `cellPayloadSize`. -/
def cellPayloadSize : Nat := cellSize - cellHeaderSize

/-- `maxRelayLayers`. -/
def maxRelayLayers : Nat := 5

/-- `relayTagSize`. -/
def relayTagSize : Nat := 16

/-- `relayEnvelopeSize`. -/
def relayEnvelopeSize : Nat := 7

/-- `maxRelayPlainPayload`. -/
def maxRelayPlainPayload : Nat := cellPayloadSize - maxRelayLayers * relayTagSize

/-- `maxRelayDataPayload`. -/
def maxRelayDataPayload : Nat := maxRelayPlainPayload - relayEnvelopeSize

/-- `cellTypeRelay`. -/
def cellTypeRelay : UInt8 := 3

/-- `cellTypeDestroy`. -/
def cellTypeDestroy : UInt8 := 4

/-- `relayCmdData`. -/
def relayCmdData : UInt8 := 5

/-- `relayCmdEnd`. -/
def relayCmdEnd : UInt8 := 6

/-- `relayCmdError`. -/
def relayCmdError : UInt8 := 7

/-- `relayMagic`, the letters VXRL. -/
def relayMagic : Bytes := [86, 88, 82, 76]

/-- The errors of cells, envelopes and layers. -/
inductive CircuitError where
  | payloadTooLarge (length : Nat)
  | readCell
  | cellVersion (version : UInt8)
  | payloadLength (length : Nat)
  | bodyTooLarge (length : Nat)
  | envelopeLength (length : Nat)
  | decryptForward
  | decryptBackward
  | circuitID
  | cellType (type : UInt8)
  | noOutbound
  | noRelay
  | opaquePayload
  | closed
  | marshal
  | connection
  deriving DecidableEq, Repr

/-! ## Cells -/

/-- The ID of a circuit. -/
abbrev CircuitID := Vector UInt8 16

/-- `cell`. -/
structure Cell where
  type : UInt8
  circuitID : CircuitID
  payload : Bytes
  deriving DecidableEq, Repr

/-- `writeCell`: the bytes that go out, padded to the size of a cell. -/
def writeCell (c : Cell) : Except CircuitError Bytes := do
  rejectIf (c.payload.length > cellPayloadSize) (.payloadTooLarge c.payload.length)
  return [cellVersion, c.type] ++ c.circuitID.toList ++ putUint16 c.payload.length ++ c.payload ++
    List.replicate (cellPayloadSize - c.payload.length) 0

/-- `readCell` on the bytes that arrive: the cell and what is left to read. -/
def readCell (stream : Bytes) : Except CircuitError (Cell × Bytes) := do
  rejectIf (stream.length < cellSize) .readCell
  let raw := stream.take cellSize
  rejectIf (raw.getD 0 0 ≠ Onion.cellVersion) (.cellVersion (raw.getD 0 0))
  let length := bigEndian ((raw.drop 18).take 2)
  rejectIf (length > cellPayloadSize) (.payloadLength length)
  return ({ type := raw.getD 1 0
            circuitID := Vector.ofFn fun i => raw.getD (2 + i) 0
            payload := (raw.drop cellHeaderSize).take length }, stream.drop cellSize)

theorem writeCell_eq_ok {c : Cell} (h : c.payload.length ≤ cellPayloadSize) :
    writeCell c = .ok ([cellVersion, c.type] ++ c.circuitID.toList ++ putUint16 c.payload.length ++
      c.payload ++ List.replicate (cellPayloadSize - c.payload.length) 0) := by
  simp only [writeCell, bind_eq_ok, rejectIf_eq_ok, pure_eq_ok, exists_const, and_true]
  simpa using h

/-- A cell is written unless its payload is too large. -/
theorem writeCell_isOk_iff {c : Cell} :
    (∃ raw, writeCell c = .ok raw) ↔ c.payload.length ≤ cellPayloadSize := by
  constructor
  · rintro ⟨raw, h⟩
    simp only [writeCell, bind_eq_ok, rejectIf_eq_ok, exists_const] at h
    simpa using h.1
  · intro h
    exact ⟨_, writeCell_eq_ok h⟩

/-- A cell has a fixed size. -/
theorem length_writeCell {c : Cell} {raw : Bytes} (h : writeCell c = .ok raw) : raw.length = cellSize := by
  have hsize := writeCell_isOk_iff.1 ⟨raw, h⟩
  rw [writeCell_eq_ok hsize, Except.ok.injEq] at h
  have hid : c.circuitID.toList.length = 16 := Vector.length_toList ..
  rw [← h]
  simp only [List.length_append, List.length_cons, List.length_nil, hid, putUint16,
    List.length_replicate]
  simp only [cellPayloadSize, cellSize, cellHeaderSize] at hsize ⊢
  omega

/-- What is written can be read back, whatever follows it. -/
theorem readCell_writeCell {c : Cell} {raw : Bytes} (h : writeCell c = .ok raw) (rest : Bytes) :
    readCell (raw ++ rest) = .ok (c, rest) := by
  have hsize := writeCell_isOk_iff.1 ⟨raw, h⟩
  have hlen := length_writeCell h
  rw [writeCell_eq_ok hsize, Except.ok.injEq] at h
  have hid : c.circuitID.toList.length = 16 := Vector.length_toList ..
  have htwo : (putUint16 c.payload.length).length = 2 := rfl
  have htake : (raw ++ rest).take cellSize = raw := List.take_left' hlen
  have hdrop : (raw ++ rest).drop cellSize = rest := List.drop_left' hlen
  -- the fields stand one after the other
  have hraw : raw = cellVersion :: c.type :: (c.circuitID.toList ++ (putUint16 c.payload.length ++
      (c.payload ++ List.replicate (cellPayloadSize - c.payload.length) 0))) := by
    rw [← h]
    simp
  have hlength : bigEndian ((raw.drop 18).take 2) = c.payload.length := by
    rw [hraw, List.drop_succ_cons, List.drop_succ_cons, List.drop_left' hid, List.take_left' htwo]
    refine bigEndian_putUint16 (hsize.trans_lt ?_)
    decide
  have hpayload : (raw.drop cellHeaderSize).take c.payload.length = c.payload := by
    have hfields : raw.drop cellHeaderSize = (raw.drop 18).drop 2 := by rw [List.drop_drop]; rfl
    rw [hfields, hraw, List.drop_succ_cons, List.drop_succ_cons, List.drop_left' hid,
      List.drop_left' htwo, List.take_left' rfl]
  have hcircuit : (Vector.ofFn fun i : Fin 16 => raw.getD (2 + i) 0) = c.circuitID := by
    refine Vector.ext fun i hi => ?_
    have hlt : i < c.circuitID.toList.length := by rwa [hid]
    rw [Vector.getElem_ofFn, hraw, Nat.add_comm, List.getD_cons_succ, List.getD_cons_succ,
      List.getD_eq_getElem?_getD, List.getElem?_append_left hlt,
      List.getElem?_eq_getElem hlt, Option.getD_some]
    exact Vector.getElem_toList ..
  simp only [readCell, bind_eq_ok, rejectIf_eq_ok, pure_eq_ok, exists_const, htake, hdrop, hlength,
    hpayload, hcircuit]
  refine ⟨?_, ?_, ?_, ?_⟩
  · simp [hlen]
  · simp [hraw]
  · simpa using hsize
  · rw [hraw]
    rfl

/-! ## Key states -/

/-- `counterNonce`. -/
def counterNonce (counter : UInt64) : Bytes := [0, 0, 0, 0] ++ putUint64 counter

/-- `circuitKeyState`: the ciphers and counters of the two directions of one hop. -/
structure CircuitKeyState where
  forward : Aead
  backward : Aead
  forwardCounter : UInt64 := 0
  backwardCounter : UInt64 := 0

namespace CircuitKeyState

/-- `sealForward`. -/
def sealForward (k : CircuitKeyState) (payload : Bytes) : Bytes × CircuitKeyState :=
  (k.forward.sealBytes (counterNonce k.forwardCounter) payload,
    { k with forwardCounter := k.forwardCounter + 1 })

/-- `openForward`. -/
def openForward (k : CircuitKeyState) (payload : Bytes) :
    Except CircuitError (Bytes × CircuitKeyState) := do
  let plain ← orReject (k.forward.openBytes (counterNonce k.forwardCounter) payload) .decryptForward
  return (plain, { k with forwardCounter := k.forwardCounter + 1 })

/-- `sealBackward`. -/
def sealBackward (k : CircuitKeyState) (payload : Bytes) : Bytes × CircuitKeyState :=
  (k.backward.sealBytes (counterNonce k.backwardCounter) payload,
    { k with backwardCounter := k.backwardCounter + 1 })

/-- `openBackward`. -/
def openBackward (k : CircuitKeyState) (payload : Bytes) :
    Except CircuitError (Bytes × CircuitKeyState) := do
  let plain ← orReject (k.backward.openBytes (counterNonce k.backwardCounter) payload) .decryptBackward
  return (plain, { k with backwardCounter := k.backwardCounter + 1 })

/-- Both ciphers are lawful. -/
structure Lawful (k : CircuitKeyState) : Prop where
  forward : k.forward.Lawful
  backward : k.backward.Lawful

/-- The two ciphers, which no call changes. -/
def ciphers (k : CircuitKeyState) : Aead × Aead := (k.forward, k.backward)

theorem Lawful.of_ciphers {k k' : CircuitKeyState} (h : k.Lawful) (heq : k'.ciphers = k.ciphers) :
    k'.Lawful := by
  obtain ⟨hforward, hbackward⟩ := Prod.mk.inj heq
  exact ⟨hforward ▸ h.forward, hbackward ▸ h.backward⟩

/-- A relay in step with the client opens what the client seals, and stays in step. -/
theorem Lawful.openForward_seal {k : CircuitKeyState} (h : k.Lawful) (payload : Bytes) :
    k.openForward (k.sealForward payload).1 = .ok (payload, (k.sealForward payload).2) := by
  simp only [openForward, sealForward, h.forward.open_seal, orReject]
  rfl

theorem Lawful.openBackward_seal {k : CircuitKeyState} (h : k.Lawful) (payload : Bytes) :
    k.openBackward (k.sealBackward payload).1 = .ok (payload, (k.sealBackward payload).2) := by
  simp only [openBackward, sealBackward, h.backward.open_seal, orReject]
  rfl

end CircuitKeyState

/-! ## Envelopes -/

/-- `encodeRelayEnvelope`. -/
def encodeRelayEnvelope (command : UInt8) (body : Bytes) : Except CircuitError Bytes := do
  rejectIf (body.length > maxRelayDataPayload) (.bodyTooLarge body.length)
  return relayMagic ++ [command] ++ putUint16 body.length ++ body

/-- `decodeRelayEnvelope`: the command and its body, or nothing if the payload is not an envelope. -/
def decodeRelayEnvelope (payload : Bytes) : Except CircuitError (Option (UInt8 × Bytes)) :=
  if payload.length < relayEnvelopeSize then .ok none
  else if payload.take 4 ≠ relayMagic then .ok none
  else
    let length := bigEndian ((payload.drop 5).take 2)
    if relayEnvelopeSize + length > payload.length then .error (.envelopeLength length)
    else .ok (some (payload.getD 4 0, (payload.drop relayEnvelopeSize).take length))

/-- The bytes of an envelope. -/
def envelope (command : UInt8) (body : Bytes) : Bytes :=
  relayMagic ++ [command] ++ putUint16 body.length ++ body

theorem encodeRelayEnvelope_eq_ok {command : UInt8} {body : Bytes}
    (h : body.length ≤ maxRelayDataPayload) :
    encodeRelayEnvelope command body = .ok (envelope command body) := by
  simp only [encodeRelayEnvelope, bind_eq_ok, rejectIf_eq_ok, pure_eq_ok, exists_const, envelope, and_true]
  simpa using h

theorem length_envelope (command : UInt8) (body : Bytes) :
    (envelope command body).length = relayEnvelopeSize + body.length := by
  simp only [envelope, relayMagic, putUint16, relayEnvelopeSize, List.length_append, List.length_cons,
    List.length_nil]

/-- Decoding gives back what was encoded, whatever follows the envelope. -/
theorem decode_envelope_append {command : UInt8} {body : Bytes} (h : body.length ≤ maxRelayDataPayload)
    (padding : Bytes) :
    decodeRelayEnvelope (envelope command body ++ padding) = .ok (some (command, body)) := by
  have hlen := length_envelope command body
  have hbody : (envelope command body ++ padding).drop relayEnvelopeSize = body ++ padding := rfl
  have hsize : bigEndian (((envelope command body ++ padding).drop 5).take 2) = body.length := by
    have hfields : ((envelope command body ++ padding).drop 5).take 2 = putUint16 body.length := rfl
    rw [hfields]
    refine bigEndian_putUint16 (h.trans_lt ?_)
    decide
  rw [decodeRelayEnvelope, if_neg (by rw [List.length_append]; omega), if_neg (fun hne => hne rfl)]
  simp only [hsize, hbody, List.length_append, hlen, List.take_left]
  rw [if_neg (by omega)]
  rfl

/-- An envelope is read back. -/
theorem decode_envelope {command : UInt8} {body : Bytes} (h : body.length ≤ maxRelayDataPayload) :
    decodeRelayEnvelope (envelope command body) = .ok (some (command, body)) := by
  rw [← List.append_nil (envelope command body)]
  exact decode_envelope_append h []

/-- What does not start with the magic is no envelope. -/
theorem decode_of_not_magic {payload : Bytes} (h : ¬ relayMagic <+: payload) :
    decodeRelayEnvelope payload = .ok none := by
  rw [decodeRelayEnvelope]
  split
  · rfl
  · rw [if_pos fun htake => h ?_]
    rw [← htake]
    exact List.take_prefix _ _

end Vx6.Onion
