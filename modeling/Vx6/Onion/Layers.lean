import Vx6.Onion.Envelope

/-!
# The layers of a circuit

A command travels from the client under one layer for each relay. `sendRelayCommand` seals the layers
from the last relay to the first, every relay takes one off in `handleRelayCell`, and the one that finds
an envelope acts on it; backward every relay adds a layer and the client takes all of them off.

`Circuit` puts a client and its relays together and `transmit` carries one command all the way, in
either direction. `layers_deliver` says that the commands arrive as they were sent and that the counters
stay in step.
-/

set_option autoImplicit false

namespace Vx6.Onion

open Vx6.Go Vx6.Lib

/-! ## The client sends -/

/-- The loop of `sendRelayCommand` over the hops: the last one seals first. -/
def sealLayers : List CircuitKeyState → Bytes → Bytes × List CircuitKeyState
  | [], payload => (payload, [])
  | k :: ks, payload =>
      let (inner, ks') := sealLayers ks payload
      let (sealed, k') := k.sealForward inner
      (sealed, k' :: ks')

/-- `sendRelayCommand`: the cell that goes out, or the error, and the keys, whose counters have moved
once the command is sealed. -/
def sendRelayCommand (circuitID : CircuitID) (hops : List CircuitKeyState) (command : UInt8)
    (body : Bytes) : Except CircuitError Bytes × List CircuitKeyState :=
  match encodeRelayEnvelope command body with
  | .error e => (.error e, hops)
  | .ok payload =>
      let (sealed, hops') := sealLayers hops payload
      (writeCell { type := cellTypeRelay, circuitID := circuitID, payload := sealed }, hops')

/-! ## A relay -/

/-- The part of a `relayCircuit` that decides what happens to a cell: its keys, and whether it has an
outbound hop and a target. -/
structure RelayCircuit where
  circuitID : CircuitID
  keys : CircuitKeyState
  outbound : Bool := false
  target : Bool := false

/-- What a relay does with a forward cell: it passes the inner layers on, or acts on a command. -/
inductive Handled where
  | forwarded (raw : Bytes)
  | command (command : UInt8) (body : Bytes)
  deriving DecidableEq, Repr

namespace RelayCircuit

/-- `handleRelayCell`, up to the command it acts on. -/
def handleRelayCell (c : RelayCircuit) (payload : Bytes) :
    Except CircuitError (RelayCircuit × Handled) := do
  let (inner, keys) ← c.keys.openForward payload
  match ← decodeRelayEnvelope inner with
  | some (command, body) => return ({ c with keys := keys }, .command command body)
  | none => do
      rejectIf (!c.outbound) .noOutbound
      let raw ← writeCell { type := cellTypeRelay, circuitID := c.circuitID, payload := inner }
      return ({ c with keys := keys }, .forwarded raw)

/-- A round of `serve` with a cell that is to be a relay cell. -/
def serveRelayCell (c : RelayCircuit) (stream : Bytes) :
    Except CircuitError (RelayCircuit × Handled) := do
  let (next, _) ← readCell stream
  rejectIf (next.circuitID ≠ c.circuitID) .circuitID
  rejectIf (next.type ≠ cellTypeRelay) (.cellType next.type)
  c.handleRelayCell next.payload

/-- `sendBackwardPlain`: the cell that goes to the previous hop. -/
def sendBackwardPlain (c : RelayCircuit) (command : UInt8) (body : Bytes) :
    Except CircuitError (RelayCircuit × Bytes) := do
  let payload ← encodeRelayEnvelope command body
  let (sealed, keys) := c.keys.sealBackward payload
  let raw ← writeCell { type := cellTypeRelay, circuitID := c.circuitID, payload := sealed }
  return ({ c with keys := keys }, raw)

/-- A round of `pumpOutbound` with a cell that is to be a relay cell: it gets one more layer. -/
def pumpRelayCell (c : RelayCircuit) (stream : Bytes) : Except CircuitError (RelayCircuit × Bytes) := do
  let (next, _) ← readCell stream
  rejectIf (next.type ≠ cellTypeRelay) (.cellType next.type)
  let (sealed, keys) := c.keys.sealBackward next.payload
  let raw ← writeCell { type := cellTypeRelay, circuitID := c.circuitID, payload := sealed }
  return ({ c with keys := keys }, raw)

end RelayCircuit

/-! ## The client receives -/

/-- The loop of `readRelayResponse` and `readPump` over the hops: the first one opens first. -/
def openLayers : List CircuitKeyState → Bytes → Except CircuitError (Bytes × List CircuitKeyState)
  | [], payload => .ok (payload, [])
  | k :: ks, payload => do
      let (inner, k') ← k.openBackward payload
      let (plain, ks') ← openLayers ks inner
      return (plain, k' :: ks')

/-- `readRelayResponse`: the command under all layers. -/
def readRelayResponse (circuitID : CircuitID) (hops : List CircuitKeyState) (stream : Bytes) :
    Except CircuitError ((UInt8 × Bytes) × List CircuitKeyState) := do
  let (resp, _) ← readCell stream
  rejectIf (resp.circuitID ≠ circuitID) .circuitID
  if resp.type = cellTypeRelay then
    let (payload, hops') ← openLayers hops resp.payload
    match ← decodeRelayEnvelope payload with
    | none => .error .opaquePayload
    | some response => return (response, hops')
  else if resp.type = cellTypeDestroy then .error .closed
  else .error (.cellType resp.type)

/-! ## A circuit -/

/-- A client and its relays, the first one first. -/
structure Circuit where
  circuitID : CircuitID
  hops : List CircuitKeyState
  relays : List RelayCircuit

/-- A cell on its way from the client: the relay that finds a command in it, by its number, and the
command. -/
def passForward : List RelayCircuit → Bytes → Except CircuitError (List RelayCircuit × Nat × UInt8 × Bytes)
  | [], _ => .error .noRelay
  | r :: rs, raw => do
      let (r', handled) ← r.serveRelayCell raw
      match handled with
      | .command command body => return (r' :: rs, 0, command, body)
      | .forwarded raw' => do
          let (rs', i, command, body) ← passForward rs raw'
          return (r' :: rs', i + 1, command, body)

/-- A command that the relay with number `i` sends backward, on its way to the client. -/
def passBackward : List RelayCircuit → Nat → UInt8 → Bytes →
    Except CircuitError (List RelayCircuit × Bytes)
  | [], _, _, _ => .error .noRelay
  | r :: rs, 0, command, body => do
      let (r', raw) ← r.sendBackwardPlain command body
      return (r' :: rs, raw)
  | r :: rs, i + 1, command, body => do
      let (rs', raw) ← passBackward rs i command body
      let (r', raw') ← r.pumpRelayCell raw
      return (r' :: rs', raw')

/-- A command that crosses the circuit: from the client to the last relay, or from the last relay to the
client. -/
inductive Traffic where
  | forward (command : UInt8) (body : Bytes)
  | backward (command : UInt8) (body : Bytes)
  deriving DecidableEq, Repr

/-- The body of a command that crosses the circuit. -/
def Traffic.body : Traffic → Bytes
  | .forward _ body => body
  | .backward _ body => body

/-- Where a command arrives. -/
inductive Receipt where
  | atRelay (hop : Nat) (command : UInt8) (body : Bytes)
  | atClient (command : UInt8) (body : Bytes)
  deriving DecidableEq, Repr

/-- Where a command is to arrive on a circuit of `n` hops. -/
def Traffic.arrival (n : Nat) : Traffic → Receipt
  | .forward command body => .atRelay (n - 1) command body
  | .backward command body => .atClient command body

namespace Circuit

/-- A command crosses the circuit. -/
def transmit (c : Circuit) : Traffic → Except CircuitError (Circuit × Receipt)
  | .forward command body => do
      let (raw, hops) := sendRelayCommand c.circuitID c.hops command body
      let (relays, hop, command', body') ← passForward c.relays (← raw)
      return ({ c with hops := hops, relays := relays }, .atRelay hop command' body')
  | .backward command body => do
      let (relays, raw) ← passBackward c.relays (c.relays.length - 1) command body
      let ((command', body'), hops) ← readRelayResponse c.circuitID c.hops raw
      return ({ c with hops := hops, relays := relays }, .atClient command' body')

/-- Commands cross the circuit one after the other. -/
def transmitAll (c : Circuit) : List Traffic → Except CircuitError (Circuit × List Receipt)
  | [] => .ok (c, [])
  | t :: ts => do
      let (c', receipt) ← c.transmit t
      let (c'', receipts) ← c'.transmitAll ts
      return (c'', receipt :: receipts)

end Circuit

/-! ## Client and relays in step -/

/-- The relays of a circuit hold the keys of the client, with the same counters, and each has the next
one as its outbound hop. -/
inductive InStep (circuitID : CircuitID) : List CircuitKeyState → List RelayCircuit → Prop
  | nil : InStep circuitID [] []
  | cons {k : CircuitKeyState} {ks : List CircuitKeyState} {r : RelayCircuit} {rs : List RelayCircuit} :
      r.keys = k → r.circuitID = circuitID → (rs ≠ [] → r.outbound = true) → InStep circuitID ks rs →
      InStep circuitID (k :: ks) (r :: rs)

theorem InStep.length_eq {circuitID : CircuitID} {ks : List CircuitKeyState} {rs : List RelayCircuit}
    (h : InStep circuitID ks rs) : rs.length = ks.length := by
  induction h with
  | nil => rfl
  | cons _ _ _ _ ih => rw [List.length_cons, List.length_cons, ih]

/-- An envelope fits into a cell under as many layers as the payload limit allows for. -/
theorem envelope_fits {n : Nat} (hlayers : n ≤ maxRelayLayers) (command : UInt8) {body : Bytes}
    (hbody : body.length ≤ maxRelayDataPayload) :
    (envelope command body).length + tagSize * n ≤ cellPayloadSize := by
  rw [length_envelope]
  simp only [maxRelayDataPayload, maxRelayPlainPayload, cellPayloadSize, cellSize, cellHeaderSize,
    relayTagSize, relayEnvelopeSize, maxRelayLayers, tagSize] at *
  omega

/-! ## Forward -/

/-- Every layer adds its tag. -/
theorem length_sealLayers {ks : List CircuitKeyState} (hlawful : ∀ k ∈ ks, k.forward.Lawful)
    (payload : Bytes) : (sealLayers ks payload).1.length = payload.length + tagSize * ks.length := by
  induction ks with
  | nil => rfl
  | cons k ks ih =>
    have hinner := ih fun k' hk' => hlawful k' (.tail _ hk')
    show ((k.sealForward (sealLayers ks payload).1).1).length = _
    rw [CircuitKeyState.sealForward, (hlawful k (.head _)).length_seal, hinner, List.length_cons]
    ring

/-- The cell of a relay in step with the client is opened. -/
theorem RelayCircuit.serveRelayCell_eq {r : RelayCircuit} (hlawful : r.keys.Lawful) {inner raw : Bytes}
    (hraw : writeCell ⟨cellTypeRelay, r.circuitID, (r.keys.sealForward inner).1⟩ = .ok raw) :
    r.serveRelayCell raw = (do
      match ← decodeRelayEnvelope inner with
      | some (command, body) =>
          return ({ r with keys := (r.keys.sealForward inner).2 }, .command command body)
      | none => do
          rejectIf (!r.outbound) .noOutbound
          let raw' ← writeCell ⟨cellTypeRelay, r.circuitID, inner⟩
          return ({ r with keys := (r.keys.sealForward inner).2 }, .forwarded raw')) := by
  have hread := readCell_writeCell hraw []
  rw [List.append_nil] at hread
  have hopen := hlawful.openForward_seal inner
  unfold serveRelayCell
  rw [hread]
  simp only [bind, Except.bind, ne_eq, not_true_eq_false, decide_false, rejectIf, Bool.false_eq_true,
    ↓reduceIte, handleRelayCell, hopen]

/-- A relay that finds an envelope under its layer acts on the command. -/
theorem RelayCircuit.serveRelayCell_command {r : RelayCircuit} (hlawful : r.keys.Lawful) {command : UInt8}
    {body raw : Bytes} (hbody : body.length ≤ maxRelayDataPayload)
    (hraw : writeCell ⟨cellTypeRelay, r.circuitID, (r.keys.sealForward (envelope command body)).1⟩ =
      .ok raw) :
    r.serveRelayCell raw = .ok ({ r with keys := (r.keys.sealForward (envelope command body)).2 },
      .command command body) := by
  rw [serveRelayCell_eq hlawful hraw, decode_envelope hbody]
  rfl

/-- A relay that finds another layer passes it on. -/
theorem RelayCircuit.serveRelayCell_forwarded {r : RelayCircuit} (hlawful : r.keys.Lawful)
    (hout : r.outbound = true) {inner raw raw' : Bytes} (hsealedNext : ¬ relayMagic <+: inner)
    (hraw : writeCell ⟨cellTypeRelay, r.circuitID, (r.keys.sealForward inner).1⟩ = .ok raw)
    (hraw' : writeCell ⟨cellTypeRelay, r.circuitID, inner⟩ = .ok raw') :
    r.serveRelayCell raw =
      .ok ({ r with keys := (r.keys.sealForward inner).2 }, .forwarded raw') := by
  rw [serveRelayCell_eq hlawful hraw, decode_of_not_magic hsealedNext, hout, hraw']
  rfl

/-- No layer that a relay finds under its own starts with the relay magic. -/
def Hides (ks : List CircuitKeyState) (payload : Bytes) : Prop :=
  ∀ inner, inner <:+ ks.tail → inner ≠ [] → ¬ relayMagic <+: (sealLayers inner payload).1

theorem Hides.tail {k : CircuitKeyState} {ks : List CircuitKeyState} {payload : Bytes}
    (h : Hides (k :: ks) payload) : Hides ks payload :=
  fun inner hinner => h inner (hinner.trans (List.tail_suffix ks))

/-- A command sealed for all hops reaches the last relay, and the counters stay in step. -/
theorem passForward_sealLayers {circuitID : CircuitID} {ks : List CircuitKeyState}
    {rs : List RelayCircuit} (h : InStep circuitID ks rs) (hne : ks ≠ [])
    (hlawful : ∀ k ∈ ks, k.Lawful) {command : UInt8} {body raw : Bytes}
    (hbody : body.length ≤ maxRelayDataPayload) (hhides : Hides ks (envelope command body))
    (hraw : writeCell ⟨cellTypeRelay, circuitID, (sealLayers ks (envelope command body)).1⟩ = .ok raw) :
    ∃ rs', passForward rs raw = .ok (rs', ks.length - 1, command, body) ∧
      InStep circuitID (sealLayers ks (envelope command body)).2 rs' := by
  induction h generalizing raw with
  | nil => exact absurd rfl hne
  | @cons k ks r rs hkeys hid hout hrest ih =>
    subst hkeys hid
    have hk : r.keys.Lawful := hlawful _ (.head _)
    cases ks with
    | nil =>
      -- the last relay
      cases hrest
      refine ⟨[{ r with keys := (r.keys.sealForward (envelope command body)).2 }], ?_,
        .cons rfl rfl hout .nil⟩
      rw [passForward, RelayCircuit.serveRelayCell_command hk hbody hraw]
      rfl
    | cons k' ks =>
      have hrs : rs ≠ [] := by
        cases hrest
        exact List.cons_ne_nil _ _
      -- what the relay finds is sealed for the next one and fits into a cell
      have hsealedNext : ¬ relayMagic <+: (sealLayers (k' :: ks) (envelope command body)).1 :=
        hhides _ List.suffix_rfl (List.cons_ne_nil _ _)
      have hfits : (sealLayers (k' :: ks) (envelope command body)).1.length ≤ cellPayloadSize := by
        have hlen := writeCell_isOk_iff.1 ⟨raw, hraw⟩
        refine le_trans ?_ hlen
        show _ ≤ ((r.keys.sealForward (sealLayers (k' :: ks) (envelope command body)).1).1).length
        rw [CircuitKeyState.sealForward, hk.forward.length_seal]
        exact Nat.le_add_right _ _
      obtain ⟨raw', hraw'⟩ := (writeCell_isOk_iff
        (c := ⟨cellTypeRelay, r.circuitID, (sealLayers (k' :: ks) (envelope command body)).1⟩)).2 hfits
      obtain ⟨rs', hpass, hstep⟩ :=
        ih (List.cons_ne_nil _ _) (fun k hk => hlawful k (.tail _ hk)) hhides.tail hraw'
      refine ⟨{ r with keys := (r.keys.sealForward (sealLayers (k' :: ks) (envelope command body)).1).2 }
        :: rs', ?_, .cons rfl rfl (fun _ => hout hrs) hstep⟩
      rw [passForward, RelayCircuit.serveRelayCell_forwarded hk (hout hrs) hsealedNext hraw hraw']
      simp only [bind, Except.bind, hpass]
      rfl

/-- `sendRelayCommand` on a circuit whose layers fit into a cell. -/
theorem sendRelayCommand_eq {circuitID : CircuitID} {ks : List CircuitKeyState}
    (hlawful : ∀ k ∈ ks, k.Lawful) (hlayers : ks.length ≤ maxRelayLayers) {command : UInt8} {body : Bytes}
    (hbody : body.length ≤ maxRelayDataPayload) :
    ∃ raw, writeCell ⟨cellTypeRelay, circuitID, (sealLayers ks (envelope command body)).1⟩ = .ok raw ∧
      sendRelayCommand circuitID ks command body =
        (.ok raw, (sealLayers ks (envelope command body)).2) := by
  have hfits : (sealLayers ks (envelope command body)).1.length ≤ cellPayloadSize := by
    rw [length_sealLayers fun k hk => (hlawful k hk).forward]
    exact envelope_fits hlayers command hbody
  obtain ⟨raw, hraw⟩ := (writeCell_isOk_iff
    (c := ⟨cellTypeRelay, circuitID, (sealLayers ks (envelope command body)).1⟩)).2 hfits
  refine ⟨raw, hraw, ?_⟩
  rw [sendRelayCommand, encodeRelayEnvelope_eq_ok hbody]
  exact Prod.ext hraw rfl

/-! ## Backward -/

/-- The layers that the relays add, the last one first. -/
def sealBack : List CircuitKeyState → Bytes → Bytes × List CircuitKeyState
  | [], payload => (payload, [])
  | k :: ks, payload =>
      let (inner, ks') := sealBack ks payload
      let (sealed, k') := k.sealBackward inner
      (sealed, k' :: ks')

theorem length_sealBack {ks : List CircuitKeyState} (hlawful : ∀ k ∈ ks, k.Lawful) (payload : Bytes) :
    (sealBack ks payload).1.length = payload.length + tagSize * ks.length := by
  induction ks with
  | nil => rfl
  | cons k ks ih =>
    have hinner := ih fun k' hk' => hlawful k' (.tail _ hk')
    show ((k.sealBackward (sealBack ks payload).1).1).length = _
    rw [CircuitKeyState.sealBackward, (hlawful k (.head _)).backward.length_seal, hinner,
      List.length_cons]
    ring

/-- The client takes off the layers of the first relays, and goes on with the others. -/
theorem openLayers_sealBack {ks : List CircuitKeyState} (hlawful : ∀ k ∈ ks, k.Lawful)
    (rest : List CircuitKeyState) (payload : Bytes) :
    openLayers (ks ++ rest) (sealBack ks payload).1 = (do
      let (plain, rest') ← openLayers rest payload
      return (plain, (sealBack ks payload).2 ++ rest')) := by
  induction ks with
  | nil =>
    show openLayers rest payload = _
    cases openLayers rest payload <;> rfl
  | cons k ks ih =>
    have hinner := ih fun k' hk' => hlawful k' (.tail _ hk')
    show openLayers (k :: (ks ++ rest)) (k.sealBackward (sealBack ks payload).1).1 = _
    rw [openLayers, (hlawful k (.head _)).openBackward_seal]
    simp only [bind, Except.bind, hinner]
    cases openLayers rest payload <;> rfl

/-- A command of the relay with number `i` gets a layer from each relay up to that one, and those
relays stay in step with a client that takes the layers off. -/
theorem passBackward_sealBack {circuitID : CircuitID} {ks : List CircuitKeyState}
    {rs : List RelayCircuit} (h : InStep circuitID ks rs) (hlawful : ∀ k ∈ ks, k.Lawful) {i : Nat}
    (hi : i < ks.length) (command : UInt8) {body : Bytes} (hbody : body.length ≤ maxRelayDataPayload)
    (hlayers : i < maxRelayLayers) :
    ∃ rs' raw, passBackward rs i command body = .ok (rs', raw) ∧
      writeCell ⟨cellTypeRelay, circuitID, (sealBack (ks.take (i + 1)) (envelope command body)).1⟩ =
        .ok raw ∧
      InStep circuitID ((sealBack (ks.take (i + 1)) (envelope command body)).2 ++ ks.drop (i + 1))
        rs' := by
  have hfits : (sealBack (ks.take (i + 1)) (envelope command body)).1.length ≤ cellPayloadSize := by
    rw [length_sealBack fun k hk => hlawful k (List.mem_of_mem_take hk), List.length_take]
    exact envelope_fits ((min_le_left _ _).trans hlayers) command hbody
  obtain ⟨raw, hraw⟩ := (writeCell_isOk_iff
    (c := ⟨cellTypeRelay, circuitID, (sealBack (ks.take (i + 1)) (envelope command body)).1⟩)).2 hfits
  induction i generalizing ks rs raw with
  | zero =>
    cases h with
    | nil => exact absurd hi (Nat.not_lt_zero _)
    | @cons k ks r rs hkeys hid hout hrest =>
      subst hkeys hid
      refine ⟨{ r with keys := (r.keys.sealBackward (envelope command body)).2 } :: rs, raw, ?_, hraw,
        .cons rfl rfl hout hrest⟩
      have hwrite : writeCell ⟨cellTypeRelay, r.circuitID,
        (r.keys.sealBackward (envelope command body)).1⟩ = .ok raw := hraw
      simp only [passBackward, RelayCircuit.sendBackwardPlain, encodeRelayEnvelope_eq_ok hbody, bind,
        Except.bind, hwrite]
      rfl
  | succ i ih =>
    cases h with
    | nil => exact absurd hi (Nat.not_lt_zero _)
    | @cons k ks r rs hkeys hid hout hrest =>
      subst hkeys hid
      have hrestLawful : ∀ k ∈ ks, k.Lawful := fun k hk => hlawful k (.tail _ hk)
      have hinner : (sealBack (ks.take (i + 1)) (envelope command body)).1.length ≤ cellPayloadSize := by
        rw [length_sealBack fun k hk => hrestLawful k (List.mem_of_mem_take hk), List.length_take]
        exact envelope_fits ((min_le_left _ _).trans (Nat.le_of_lt hlayers)) command hbody
      obtain ⟨raw', hraw'⟩ := (writeCell_isOk_iff (c := ⟨cellTypeRelay, r.circuitID,
        (sealBack (ks.take (i + 1)) (envelope command body)).1⟩)).2 hinner
      obtain ⟨rs', raw'', hpass, hraw'', hstep⟩ :=
        ih hrest hrestLawful (Nat.lt_of_succ_lt_succ hi) (Nat.lt_of_succ_lt hlayers) hinner raw' hraw'
      -- the relay reads the cell of the next one and adds its layer
      have hread := readCell_writeCell hraw'' []
      rw [List.append_nil] at hread
      have hwrite : writeCell ⟨cellTypeRelay, r.circuitID,
        (r.keys.sealBackward (sealBack (ks.take (i + 1)) (envelope command body)).1).1⟩ = .ok raw := hraw
      refine ⟨{ r with keys :=
        (r.keys.sealBackward (sealBack (ks.take (i + 1)) (envelope command body)).1).2 } :: rs', raw, ?_,
        hraw, .cons rfl rfl (fun _ => hout ?_) hstep⟩
      · simp only [passBackward, hpass, bind, Except.bind, RelayCircuit.pumpRelayCell, hread, rejectIf,
          ne_eq, not_true_eq_false, decide_false, Bool.false_eq_true, ↓reduceIte, hwrite]
        rfl
      · rw [← List.length_pos_iff, hrest.length_eq]
        exact (Nat.zero_le i).trans_lt (Nat.lt_of_succ_lt_succ hi)

/-- The client finds the command of the last relay under all layers, whatever arrives after it. -/
theorem readRelayResponse_sealBack {circuitID : CircuitID} {ks : List CircuitKeyState}
    (hlawful : ∀ k ∈ ks, k.Lawful) {command : UInt8} {body raw : Bytes}
    (hbody : body.length ≤ maxRelayDataPayload)
    (hraw : writeCell ⟨cellTypeRelay, circuitID, (sealBack ks (envelope command body)).1⟩ = .ok raw)
    (rest : Bytes) :
    readRelayResponse circuitID ks (raw ++ rest) =
      .ok ((command, body), (sealBack ks (envelope command body)).2) := by
  have hread := readCell_writeCell hraw rest
  have hopen := openLayers_sealBack hlawful [] (envelope command body)
  rw [List.append_nil] at hopen
  simp only [readRelayResponse, hread, bind, Except.bind, rejectIf, ne_eq, not_true_eq_false,
    decide_false, Bool.false_eq_true, ↓reduceIte, hopen, openLayers, pure, Except.pure,
    decode_envelope hbody, List.append_nil]

/-! ## Commands cross a circuit -/

/-- Sealing leaves the ciphers alone. -/
theorem ciphers_sealLayers (ks : List CircuitKeyState) (payload : Bytes) :
    (sealLayers ks payload).2.map CircuitKeyState.ciphers = ks.map CircuitKeyState.ciphers := by
  induction ks with
  | nil => rfl
  | cons k ks ih => exact congrArg (k.ciphers :: ·) ih

theorem ciphers_sealBack (ks : List CircuitKeyState) (payload : Bytes) :
    (sealBack ks payload).2.map CircuitKeyState.ciphers = ks.map CircuitKeyState.ciphers := by
  induction ks with
  | nil => rfl
  | cons k ks ih => exact congrArg (k.ciphers :: ·) ih

/-- What depends on the ciphers alone holds of all hops or of none. -/
theorem forall_of_ciphers {p : CircuitKeyState → Prop} {ks ks' : List CircuitKeyState}
    (hp : ∀ {k k'}, p k → CircuitKeyState.ciphers k' = k.ciphers → p k')
    (heq : ks'.map CircuitKeyState.ciphers = ks.map CircuitKeyState.ciphers) (h : ∀ k ∈ ks, p k) :
    ∀ k ∈ ks', p k := by
  intro k' hk'
  have hmem := List.mem_map_of_mem (f := CircuitKeyState.ciphers) hk'
  rw [heq] at hmem
  obtain ⟨k, hk, hciphers⟩ := List.mem_map.1 hmem
  exact hp (h k hk) hciphers.symm

/-- The keys of the client after a command has crossed the circuit. -/
def Traffic.keysAfter (ks : List CircuitKeyState) : Traffic → List CircuitKeyState
  | .forward command body => (sealLayers ks (envelope command body)).2
  | .backward command body => (sealBack ks (envelope command body)).2

/-- What the client seals for a command hides it from all relays but the last. Backward the client opens
all layers, whatever they start with. -/
def Traffic.Hidden (ks : List CircuitKeyState) : Traffic → Prop
  | .forward command body => Hides ks (envelope command body)
  | .backward _ _ => True

/-- None of the layers that are sealed in a run and then found by a relay starts with the magic. -/
def HiddenRun (ks : List CircuitKeyState) : List Traffic → Prop
  | [] => True
  | t :: ts => t.Hidden ks ∧ HiddenRun (t.keysAfter ks) ts

namespace Circuit

/-- A circuit of one to five hops whose relays hold the keys of the client with equal counters. -/
structure Established (c : Circuit) : Prop where
  inStep : InStep c.circuitID c.hops c.relays
  lawful : ∀ k ∈ c.hops, k.Lawful
  nonempty : 1 ≤ c.hops.length
  layers : c.hops.length ≤ maxRelayLayers

/-- A circuit with the same ciphers whose relays are in step is as established as the first. -/
theorem Established.of_ciphers {c c' : Circuit} (h : c.Established)
    (hstep : InStep c'.circuitID c'.hops c'.relays)
    (heq : c'.hops.map CircuitKeyState.ciphers = c.hops.map CircuitKeyState.ciphers) :
    c'.Established := by
  have hlen : c'.hops.length = c.hops.length := by simpa using congrArg List.length heq
  exact ⟨hstep, forall_of_ciphers CircuitKeyState.Lawful.of_ciphers heq h.lawful, hlen ▸ h.nonempty,
    hlen ▸ h.layers⟩

/-- A command arrives where it is to arrive, and the counters stay equal. -/
theorem Established.transmit {c : Circuit} (h : c.Established) {t : Traffic}
    (hbody : t.body.length ≤ maxRelayDataPayload) (hhidden : t.Hidden c.hops) :
    ∃ c', c.transmit t = .ok (c', t.arrival c.hops.length) ∧ c'.Established ∧
      c'.hops = t.keysAfter c.hops ∧ c'.hops.length = c.hops.length := by
  cases t with
  | forward command body =>
    change body.length ≤ maxRelayDataPayload at hbody
    obtain ⟨raw, hraw, hsend⟩ := sendRelayCommand_eq h.lawful h.layers hbody
    have hne : c.hops ≠ [] := List.length_pos_iff.1 h.nonempty
    obtain ⟨relays, hpass, hstep⟩ := passForward_sealLayers h.inStep hne h.lawful hbody hhidden hraw
    have hciphers := ciphers_sealLayers c.hops (envelope command body)
    refine ⟨{ c with hops := _, relays := relays }, ?_, h.of_ciphers hstep hciphers, rfl,
      by simpa using congrArg List.length hciphers⟩
    simp only [Circuit.transmit, hsend, bind, Except.bind, hpass]
    rfl
  | backward command body =>
    change body.length ≤ maxRelayDataPayload at hbody
    have hlast : c.hops.length - 1 < c.hops.length := Nat.sub_lt h.nonempty Nat.one_pos
    obtain ⟨relays, raw, hpass, hraw, hstep⟩ := passBackward_sealBack h.inStep h.lawful hlast
      command hbody (hlast.trans_le h.layers)
    rw [Nat.sub_add_cancel h.nonempty, List.take_length] at hraw hstep
    rw [List.drop_length, List.append_nil] at hstep
    rw [← h.inStep.length_eq] at hpass
    have hread := readRelayResponse_sealBack h.lawful hbody hraw []
    rw [List.append_nil] at hread
    have hciphers := ciphers_sealBack c.hops (envelope command body)
    refine ⟨{ c with hops := _, relays := relays }, ?_, h.of_ciphers hstep hciphers, rfl,
      by simpa using congrArg List.length hciphers⟩
    simp only [Circuit.transmit, hpass, bind, Except.bind, hread]
    rfl

/-- The state of a circuit after a run is established, with as many hops as before. -/
theorem Established.of_transmitAll {c c' : Circuit} (h : c.Established) {run : List Traffic}
    (hrun : ∀ t ∈ run, t.body.length ≤ maxRelayDataPayload) (hhidden : HiddenRun c.hops run)
    {receipts : List Receipt} (heq : c.transmitAll run = .ok (c', receipts)) :
    c'.Established ∧ c'.hops.length = c.hops.length := by
  induction run generalizing c receipts with
  | nil =>
    cases heq
    exact ⟨h, rfl⟩
  | cons t run ih =>
    obtain ⟨c₁, htransmit, h₁, hkeys, hlen⟩ := h.transmit (hrun t (.head _)) hhidden.1
    simp only [transmitAll, htransmit, bind_eq_ok, Except.ok.injEq] at heq
    obtain ⟨_, rfl, ⟨c₂, rest⟩, hrest, hpure⟩ := heq
    cases hpure
    obtain ⟨h', hlen'⟩ := ih h₁ (fun t ht => hrun t (.tail _ ht)) (hkeys ▸ hhidden.2) hrest
    exact ⟨h', hlen'.trans hlen⟩

end Circuit

/-- On an established circuit every command arrives as it was sent, in order: those of the client at the
last relay, which every other relay passes on unread, and those of the last relay at the client. The
counters of client and relays are equal after each of them. Of the layers sealed in the run none is to
start with the relay magic. -/
theorem layers_deliver {c : Circuit} (h : c.Established) (run : List Traffic)
    (hrun : ∀ t ∈ run, t.body.length ≤ maxRelayDataPayload) (hhidden : HiddenRun c.hops run) :
    ∃ c', c.transmitAll run = .ok (c', run.map (Traffic.arrival c.hops.length)) ∧ c'.Established := by
  induction run generalizing c with
  | nil => exact ⟨c, rfl, h⟩
  | cons t run ih =>
    obtain ⟨c', htransmit, h', hkeys, hlen⟩ := h.transmit (hrun t (.head _)) hhidden.1
    obtain ⟨c'', hrest, h''⟩ := ih h' (fun t ht => hrun t (.tail _ ht)) (hkeys ▸ hhidden.2)
    refine ⟨c'', ?_, h''⟩
    rw [Circuit.transmitAll, htransmit]
    simp only [bind, Except.bind, hrest, hlen]
    rfl

/-- The keys of a hop whose ciphers are marked by two bytes. -/
def markedKeys (mark : UInt8) : CircuitKeyState :=
  { forward := tagAead mark, backward := tagAead (mark + 1) }

theorem markedKeys_lawful (mark : UInt8) : (markedKeys mark).Lawful :=
  ⟨tagAead_lawful _, tagAead_lawful _⟩

/-- A circuit of two relays. -/
def twoHops : Circuit :=
  let circuitID := Vector.replicate 16 0
  { circuitID := circuitID
    hops := [markedKeys 1, markedKeys 3]
    relays := [{ circuitID := circuitID, keys := markedKeys 1, outbound := true },
      { circuitID := circuitID, keys := markedKeys 3 }] }

theorem twoHops_established : twoHops.Established where
  inStep := .cons rfl rfl (fun _ => rfl) (.cons rfl rfl (fun h => absurd rfl h) .nil)
  lawful k hk := by
    rcases List.mem_cons.1 hk with rfl | hk
    · exact markedKeys_lawful _
    · rw [List.mem_singleton.1 hk]
      exact markedKeys_lawful _
  nonempty := by decide
  layers := by decide

/-- On two hops there is one layer under another, that of the second hop. -/
theorem hides_of_two {k k' : CircuitKeyState} {payload : Bytes}
    (h : ¬ relayMagic <+: (k'.sealForward payload).1) : Hides [k, k'] payload := by
  intro inner hinner hne
  rcases List.suffix_cons_iff.1 hinner with rfl | hnil
  · exact h
  · exact absurd (List.suffix_nil.1 hnil) hne

theorem layers_deliver_two_hops :
    ∃ c', twoHops.transmitAll [.forward relayCmdData [1, 2], .backward relayCmdData [3],
      .forward relayCmdEnd []] =
        .ok (c', [.atRelay 1 relayCmdData [1, 2], .atClient relayCmdData [3], .atRelay 1 relayCmdEnd []]) ∧
      c'.Established :=
  layers_deliver twoHops_established _ (by decide)
    ⟨hides_of_two (by decide), trivial, hides_of_two (by decide), trivial⟩

end Vx6.Onion
