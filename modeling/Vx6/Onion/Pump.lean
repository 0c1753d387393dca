import Vx6.Onion.Layers

/-!
# What the client hears of a failure

`readPump` on the client takes one layer off for each hop of the circuit. A relay whose outbound hop
failed sends an End or Error command backward, which gets a layer from that relay and from those before
it, but from none behind it. `notice_reported_iff` says which of these commands the client reads as what
they are: those of the last relay.
-/

set_option autoImplicit false

namespace Vx6.Onion

open Vx6.Go Vx6.Lib

/-- JSON encoding and decoding of an `errorCommand`. -/
structure ErrorFormat where
  marshal : String → Option Bytes
  unmarshal : Bytes → Option String

/-- What `readPump` puts into the error channel. -/
inductive StreamEnd where
  | eof
  | circuit (e : CircuitError)
  | remote (message : String)
  | relayClosed
  deriving DecidableEq, Repr

/-- What `readPump` makes of a cell: data for the reader, the end of the stream, or nothing. -/
inductive PumpEvent where
  | data (body : Bytes)
  | finished (e : StreamEnd)
  | ignored
  deriving DecidableEq, Repr

/-- The error that an Error command carries. -/
def reportedError (json : ErrorFormat) (body : Bytes) : StreamEnd :=
  match json.unmarshal body with
  | some message => if message ≠ "" then .remote message else .relayClosed
  | none => .relayClosed

/-- What `readPump` makes of a command. -/
def pumpCommand (json : ErrorFormat) (command : UInt8) (body : Bytes) : PumpEvent :=
  if command = relayCmdData then .data body
  else if command = relayCmdEnd then .finished .eof
  else if command = relayCmdError then .finished (reportedError json body)
  else .ignored

/-- What `readPump` makes of a cell, and the keys after it. -/
def pumpCell (json : ErrorFormat) (hops : List CircuitKeyState) (c : Cell) :
    PumpEvent × List CircuitKeyState :=
  if c.type = cellTypeRelay then
    match openLayers hops c.payload with
    | .error e => (.finished (.circuit e), hops)
    | .ok (payload, hops') =>
        match decodeRelayEnvelope payload with
        | .error e => (.finished (.circuit e), hops')
        | .ok none => (.finished (.circuit .opaquePayload), hops')
        | .ok (some (command, body)) => (pumpCommand json command body, hops')
  else if c.type = cellTypeDestroy then (.finished .eof, hops)
  else (.finished (.circuit (.cellType c.type)), hops)

/-- A round of `readPump` with what `readCell` returned. The ID of the circuit is not looked at. -/
def readPump (json : ErrorFormat) (hops : List CircuitKeyState) :
    Except CircuitError Cell → PumpEvent × List CircuitKeyState
  | .error e => (.finished (.circuit e), hops)
  | .ok c => pumpCell json hops c

/-! ## Notices of relays -/

/-- What a relay tells the client about a failure: an End or an Error command. -/
inductive Notice where
  | ended
  | failed (message : String)
  deriving DecidableEq, Repr

namespace Notice

/-- The command of a notice. -/
def command : Notice → UInt8
  | .ended => relayCmdEnd
  | .failed _ => relayCmdError

/-- The body of a notice. -/
def body (json : ErrorFormat) : Notice → Option Bytes
  | .ended => some []
  | .failed message => json.marshal message

/-- What the client is to report. -/
def report : Notice → StreamEnd
  | .ended => .eof
  | .failed message => .remote message

/-- The body fits into an envelope, and an error message is read back from it. -/
structure Sendable (json : ErrorFormat) (n : Notice) (body : Bytes) : Prop where
  encoded : n.body json = some body
  fits : body.length ≤ maxRelayDataPayload
  readBack : ∀ message, n = .failed message → message ≠ "" ∧ json.unmarshal body = some message

/-- A client that finds the command of a notice reports what it is to report. -/
theorem Sendable.pumpCommand_eq {json : ErrorFormat} {n : Notice} {body : Bytes}
    (h : n.Sendable json body) : pumpCommand json n.command body = .finished n.report := by
  cases n with
  | ended => rfl
  | failed message =>
    obtain ⟨hne, hjson⟩ := h.readBack message rfl
    show PumpEvent.finished (reportedError json body) = _
    rw [reportedError, hjson]
    simp [hne, report]

end Notice

namespace RelayCircuit

/-- `sendBackwardError`. -/
def sendBackwardError (json : ErrorFormat) (c : RelayCircuit) (message : String) :
    Except CircuitError (RelayCircuit × Bytes) := do
  let body ← orReject (json.marshal message) .marshal
  c.sendBackwardPlain relayCmdError body

/-- A round of `pumpOutbound`: the cell that goes to the previous hop, and whether there is another
round. -/
def pumpOutbound (json : ErrorFormat) (c : RelayCircuit) (stream : Bytes) :
    Except CircuitError (RelayCircuit × Bytes × Bool) := do
  match readCell stream with
  | .error _ =>
      let (c', raw) ← c.sendBackwardPlain relayCmdEnd []
      return (c', raw, false)
  | .ok (next, _) =>
      if next.type = cellTypeRelay then
        let (c', raw) ← c.pumpRelayCell stream
        return (c', raw, true)
      else if next.type = cellTypeDestroy then
        let raw ← writeCell { type := cellTypeDestroy, circuitID := c.circuitID, payload := [] }
        return (c, raw, false)
      else
        let (c', raw) ← c.sendBackwardError json (unexpectedCell next.type)
        return (c', raw, false)
where
  /-- The text for a cell that has no business on an outbound connection. -/
  unexpectedCell (type : UInt8) : String := "unexpected downstream cell type " ++ toString type.toNat

/-- The notice that what arrives on the outbound connection makes `pumpOutbound` send, if any. -/
def outboundNotice (stream : Bytes) : Option Notice :=
  match readCell stream with
  | .error _ => some .ended
  | .ok (next, _) =>
      if next.type = cellTypeRelay ∨ next.type = cellTypeDestroy then none
      else some (.failed (pumpOutbound.unexpectedCell next.type))

/-- A notice goes out as a backward command, and the pump stops. -/
theorem pumpOutbound_of_notice {json : ErrorFormat} {c : RelayCircuit} {stream : Bytes} {n : Notice}
    {body : Bytes} (hnotice : outboundNotice stream = some n) (hbody : n.body json = some body) :
    c.pumpOutbound json stream = (do
      let (c', raw) ← c.sendBackwardPlain n.command body
      return (c', raw, false)) := by
  unfold outboundNotice at hnotice
  cases hread : readCell stream with
  | error e =>
    rw [hread] at hnotice
    cases hnotice
    cases hbody
    rw [pumpOutbound, hread]
    rfl
  | ok next =>
    simp only [hread] at hnotice
    split at hnotice
    · cases hnotice
    · rename_i htype
      obtain ⟨hrelay, hdestroy⟩ := not_or.1 htype
      cases hnotice
      have hmarshal : json.marshal (pumpOutbound.unexpectedCell next.1.type) = some body := hbody
      simp only [pumpOutbound, hread, if_neg hrelay, if_neg hdestroy, sendBackwardError, hmarshal,
        orReject]
      rfl

end RelayCircuit

/-- The relay with number `i` sends a notice, and the client reads the cell that arrives. -/
def Circuit.notify (json : ErrorFormat) (c : Circuit) (i : Nat) (n : Notice) :
    Except CircuitError PumpEvent := do
  let body ← orReject (n.body json) .marshal
  let (_, raw) ← passBackward c.relays i n.command body
  return (readPump json c.hops ((readCell raw).map Prod.fst)).1

/-- The keys of the hop behind the relay with number `i`, if there is one, do not open a plain text: it
does not carry their tag. -/
def Circuit.NextRefuses (c : Circuit) (i : Nat) (plain : Bytes) : Prop :=
  ∀ k, c.hops[i + 1]? = some k → k.backward.openBytes (counterNonce k.backwardCounter) plain = none

/-- The client of an established circuit reads the cell of a relay that is not the last as one it cannot
decrypt, and the cell of the last relay as what it is. -/
theorem Circuit.Established.notify {json : ErrorFormat} {c : Circuit} (h : c.Established) {i : Nat}
    (hi : i < c.hops.length) {n : Notice} {body : Bytes} (hsend : n.Sendable json body)
    (hrefuses : c.NextRefuses i (envelope n.command body)) :
    c.notify json i n = .ok (if i + 1 = c.hops.length then .finished n.report
      else .finished (.circuit .decryptBackward)) := by
  obtain ⟨relays, raw, hpass, hraw, -⟩ :=
    passBackward_sealBack h.inStep h.lawful hi n.command hsend.fits (hi.trans_le h.layers)
  have hread := readCell_writeCell hraw []
  have hfirst : ∀ k ∈ c.hops.take (i + 1), k.Lawful := fun k hk => h.lawful k (List.mem_of_mem_take hk)
  have hopen := openLayers_sealBack hfirst (c.hops.drop (i + 1)) (envelope n.command body)
  rw [List.append_nil] at hread
  rw [List.take_append_drop] at hopen
  simp only [Circuit.notify, hsend.encoded, orReject, bind, Except.bind, hpass, hread, Except.map,
    readPump, pumpCell, ↓reduceIte, hopen]
  by_cases hlast : i + 1 = c.hops.length
  · rw [if_pos hlast, hlast, List.drop_length]
    simp only [openLayers, pure, Except.pure, decode_envelope hsend.fits, hsend.pumpCommand_eq]
  · -- the envelope meets the keys of the next hop
    rw [if_neg hlast]
    have hlt : i + 1 < c.hops.length := by omega
    have hnone := hrefuses _ (List.getElem?_eq_getElem hlt)
    rw [List.drop_eq_getElem_cons hlt]
    simp only [openLayers, CircuitKeyState.openBackward, hnone, orReject, bind, Except.bind]
    rfl

/-- At every point of a run the client reports the notice of a relay exactly when that relay is the last
one of the circuit, provided that the keys of the next hop do not open the envelope of the notice. -/
theorem notice_reported_iff {json : ErrorFormat} {c c' : Circuit} (h : c.Established)
    {run : List Traffic} {receipts : List Receipt}
    (hrun : ∀ t ∈ run, t.body.length ≤ maxRelayDataPayload) (hhidden : HiddenRun c.hops run)
    (hstate : c.transmitAll run = .ok (c', receipts)) {i : Nat} (hi : i < c.hops.length) {n : Notice}
    {body : Bytes} (hsend : n.Sendable json body)
    (hrefuses : c'.NextRefuses i (envelope n.command body)) :
    c'.notify json i n = .ok (.finished n.report) ↔ i + 1 = c.hops.length := by
  obtain ⟨h', hlen⟩ := h.of_transmitAll hrun hhidden hstate
  rw [h'.notify (hlen.symm ▸ hi) hsend hrefuses, hlen]
  by_cases hlast : i + 1 = c.hops.length
  · simp [hlast]
  · rw [if_neg hlast]
    refine iff_of_false (fun heq => ?_) hlast
    cases n <;> cases heq

/-- A message goes out as its code points. -/
def plainErrors : ErrorFormat where
  marshal message := some (message.toList.map fun c => UInt8.ofNat c.toNat)
  unmarshal body := some (String.ofList (body.map fun b => Char.ofNat b.toNat))

theorem sendable_ended (json : ErrorFormat) : Notice.ended.Sendable json [] :=
  ⟨rfl, Nat.zero_le _, fun _ h => nomatch h⟩

theorem sendable_failed : (Notice.failed "hop").Sendable plainErrors [104, 111, 112] := by
  refine ⟨rfl, by decide, fun message h => ?_⟩
  cases h
  exact ⟨by decide, by decide⟩

theorem notice_reported_two_hops :
    ∃ c' receipt, twoHops.transmitAll [.forward relayCmdData [1, 2]] = .ok (c', [receipt]) ∧
      (c'.notify plainErrors 1 .ended = .ok (.finished .eof) ↔ 1 + 1 = 2) ∧
      (c'.notify plainErrors 0 (.failed "hop") = .ok (.finished (.remote "hop")) ↔ 0 + 1 = 2) := by
  have hhidden : HiddenRun twoHops.hops [.forward relayCmdData [1, 2]] :=
    ⟨hides_of_two (by decide), trivial⟩
  obtain ⟨c', htransmit, -, hkeys, -⟩ := twoHops_established.transmit (by decide) hhidden.1
  have hall : twoHops.transmitAll [.forward relayCmdData [1, 2]] =
      .ok (c', [(Traffic.forward relayCmdData [1, 2]).arrival 2]) := by
    rw [Circuit.transmitAll, htransmit]
    rfl
  refine ⟨c', _, hall,
    notice_reported_iff twoHops_established (by decide) hhidden hall (by decide)
      (sendable_ended _) fun k hk => ?_,
    notice_reported_iff twoHops_established (by decide) hhidden hall (by decide)
      sendable_failed fun k hk => ?_⟩
  · rw [hkeys] at hk
    cases hk
  · rw [hkeys] at hk
    cases hk
    rfl

/-- The first of two relays loses its outbound hop and says so. The client cannot decrypt the cell, and
reports that, where it reports the end of the stream if the last relay says the same. -/
theorem notice_of_first_relay_unreadable :
    RelayCircuit.outboundNotice [] = some .ended ∧
      twoHops.notify plainErrors 0 .ended = .ok (.finished (.circuit .decryptBackward)) ∧
      twoHops.notify plainErrors 1 .ended = .ok (.finished .eof) := by
  refine ⟨rfl, twoHops_established.notify (by decide) (sendable_ended _) fun k hk => ?_,
    twoHops_established.notify (by decide) (sendable_ended _) fun k hk => ?_⟩
  · cases hk
    rfl
  · cases hk

end Vx6.Onion
