import Vx6.Go.Chan
import Vx6.Lib.Run
import Vx6.Onion.Pump

/-!
# The reading side of a client circuit

`readPump` runs beside the `Read` calls of the user of a circuit. Data bodies go through the channel
`readCh`, the end of the stream goes through `errCh`, and `Read` waits on both. `Reader.step` is one
step of either side, so that a run is any interleaving of the two.

`delivered_before_end_iff` says when no run loses data before the end of the stream is reported: when
nothing waits in `readCh` at the moment the pump reports it.
-/

set_option autoImplicit false

namespace Vx6.Onion

open Vx6.Go Vx6.Lib

/-- Where `readPump` is: about to read a cell, about to send a body or the end of the stream, or done. -/
inductive PumpPhase where
  | running
  | sending (body : Bytes)
  | reporting (e : StreamEnd)
  | stopped
  deriving DecidableEq, Repr

/-- What the pump holds and has not put into a channel yet. -/
def PumpPhase.pending : PumpPhase → Bytes
  | .sending body => body
  | _ => []

/-- The pump will read no further cell. -/
def PumpPhase.ended : PumpPhase → Bool
  | .reporting _ => true
  | .stopped => true
  | _ => false

/-- The reading side of a `clientCircuitConn`, and where its pump and the `Read` call in progress are.
The last three fields record what has happened: the data that arrived, the data that `Read` returned and
the error that it returned. -/
structure Reader where
  hops : List CircuitKeyState
  pump : PumpPhase := .running
  readCh : Chan Bytes 16 := {}
  errCh : Chan StreamEnd 1 := {}
  readBuf : Bytes := []
  call : Option Nat := none
  arrived : Bytes := []
  returned : Bytes := []
  failed : Option StreamEnd := none

/-- The steps of `readPump` and of `Read`. -/
inductive ReaderStep where
  | arrive (next : Except CircuitError Cell)
  | sendChunk
  | sendError
  | read (size : Nat)
  | takeChunk
  | takeError
  | returnBytes

namespace Reader

/-- One step. A step that waits cannot be taken. -/
def step (json : ErrorFormat) (s : Reader) : ReaderStep → Option Reader
  -- the pump reads a cell, or fails to
  | .arrive next =>
      match s.pump with
      | .running =>
          match readPump json s.hops next with
          | (.data body, hops) =>
              some { s with hops := hops, pump := .sending body, arrived := s.arrived ++ body }
          | (.finished e, hops) => some { s with hops := hops, pump := .reporting e }
          | (.ignored, hops) => some { s with hops := hops }
      | _ => none
  | .sendChunk =>
      match s.pump with
      | .sending body => (s.readCh.send body).map fun ch => { s with readCh := ch, pump := .running }
      | _ => none
  | .sendError =>
      match s.pump with
      | .reporting e => (s.errCh.send e).map fun ch => { s with errCh := ch, pump := .stopped }
      | _ => none
  -- a call of `Read` starts
  | .read size =>
      match s.call with
      | none => some { s with call := some size }
      | some _ => none
  -- the two cases of its select; an empty chunk leaves the buffer empty, and the loop goes on
  | .takeChunk =>
      match s.call, s.readBuf with
      | some _, [] => s.readCh.receive.map fun (chunk, ch) => { s with readCh := ch, readBuf := chunk }
      | _, _ => none
  | .takeError =>
      match s.call, s.readBuf with
      | some _, [] =>
          s.errCh.receive.map fun (e, ch) => { s with errCh := ch, call := none, failed := some e }
      | _, _ => none
  | .returnBytes =>
      match s.call, s.readBuf with
      | some size, b :: bs =>
          some { s with
            call := none
            returned := s.returned ++ (b :: bs).take size
            readBuf := (b :: bs).drop size }
      | _, _ => none

/-- Any interleaving of the pump and the calls. -/
abbrev Run (json : ErrorFormat) : Reader → Reader → Prop := Reach (step json) fun _ _ => True

variable {json : ErrorFormat} {s t : Reader}

/-- What a step does to the channels, the buffer and the record, whatever the cells were. -/
inductive Moves (s : Reader) : Reader → Prop
  | data {hops : List CircuitKeyState} (body : Bytes) : s.pump = .running →
      Moves s { s with hops := hops, pump := .sending body, arrived := s.arrived ++ body }
  | finished {hops : List CircuitKeyState} (e : StreamEnd) : s.pump = .running →
      Moves s { s with hops := hops, pump := .reporting e }
  | ignored {hops : List CircuitKeyState} : s.pump = .running → Moves s { s with hops := hops }
  | sent {body : Bytes} {ch : Chan Bytes 16} : s.pump = .sending body →
      ch.buf = s.readCh.buf ++ [body] → Moves s { s with readCh := ch, pump := .running }
  | reported {e : StreamEnd} {ch : Chan StreamEnd 1} : s.pump = .reporting e →
      ch.buf = s.errCh.buf ++ [e] → Moves s { s with errCh := ch, pump := .stopped }
  | called (size : Nat) : s.call = none → Moves s { s with call := some size }
  | took {chunk : Bytes} {ch : Chan Bytes 16} : s.readBuf = [] → s.readCh.buf = chunk :: ch.buf →
      Moves s { s with readCh := ch, readBuf := chunk }
  | failed {e : StreamEnd} {ch : Chan StreamEnd 1} : s.readBuf = [] → s.errCh.buf = e :: ch.buf →
      Moves s { s with errCh := ch, call := none, failed := some e }
  | returned (size : Nat) : s.readBuf ≠ [] →
      Moves s { s with
        call := none
        returned := s.returned ++ s.readBuf.take size
        readBuf := s.readBuf.drop size }

theorem Moves.of_step {a : ReaderStep} (h : s.step json a = some t) : s.Moves t := by
  cases a with
  | arrive next =>
    simp only [step] at h
    split at h
    · rename_i hpump
      split at h <;> cases h
      · exact .data _ hpump
      · exact .finished _ hpump
      · exact .ignored hpump
    · cases h
  | sendChunk =>
    simp only [step] at h
    split at h
    · rename_i body hpump
      obtain ⟨ch, hsend, rfl⟩ := Option.map_eq_some_iff.1 h
      exact .sent hpump (Chan.buf_of_send hsend)
    · cases h
  | sendError =>
    simp only [step] at h
    split at h
    · rename_i e hpump
      obtain ⟨ch, hsend, rfl⟩ := Option.map_eq_some_iff.1 h
      exact .reported hpump (Chan.buf_of_send hsend)
    · cases h
  | read size =>
    simp only [step] at h
    split at h
    · rename_i hcall
      cases h
      exact .called size hcall
    · cases h
  | takeChunk =>
    simp only [step] at h
    split at h
    · rename_i hbuf
      obtain ⟨⟨chunk, ch⟩, hreceive, rfl⟩ := Option.map_eq_some_iff.1 h
      exact .took hbuf (Chan.buf_of_receive hreceive)
    · cases h
  | takeError =>
    simp only [step] at h
    split at h
    · rename_i hbuf
      obtain ⟨⟨e, ch⟩, hreceive, rfl⟩ := Option.map_eq_some_iff.1 h
      exact .failed hbuf (Chan.buf_of_receive hreceive)
    · cases h
  | returnBytes =>
    simp only [step] at h
    split at h
    · rename_i size b bs hcall hbuf
      cases h
      rw [← hbuf]
      exact .returned size (hbuf ▸ List.cons_ne_nil b bs)
    · cases h

/-- A property that every move keeps holds at the end of a run. -/
theorem Run.invariant {inv : Reader → Prop} (hmoves : ∀ s t, inv s → s.Moves t → inv t)
    (h : Run json s t) (hs : inv s) : inv t :=
  Reach.invariant (fun s _ t hinv _ hstep => hmoves s t hinv (.of_step hstep)) h hs

/-! ## Nothing is lost on the way -/

/-- What arrived is what was returned, what is in the buffer, what waits in the channel and what the pump
holds, in this order. The error channel is empty until the pump has stopped. -/
structure Conserved (s : Reader) : Prop where
  bytes : s.arrived = s.returned ++ s.readBuf ++ s.readCh.buf.flatten ++ s.pump.pending
  quiet : s.pump ≠ .stopped → s.errCh.buf = [] ∧ s.failed = none

theorem Conserved.moves (h : s.Conserved) (hmoves : s.Moves t) : t.Conserved := by
  obtain ⟨hbytes, hquiet⟩ := h
  cases hmoves with
  | data body hpump =>
    refine ⟨?_, fun _ => hquiet (by simp [hpump])⟩
    simp [hbytes, hpump, PumpPhase.pending]
  | finished e hpump =>
    refine ⟨?_, fun _ => hquiet (by simp [hpump])⟩
    simp [hbytes, hpump, PumpPhase.pending]
  | ignored hpump => exact ⟨hbytes, hquiet⟩
  | sent hpump hch =>
    refine ⟨?_, fun _ => hquiet (by simp [hpump])⟩
    simp [hbytes, hpump, hch, PumpPhase.pending]
  | reported hpump hch =>
    refine ⟨?_, fun hne => absurd rfl hne⟩
    simp [hbytes, hpump, PumpPhase.pending]
  | called size hcall => exact ⟨hbytes, hquiet⟩
  | took hbuf hch =>
    refine ⟨?_, hquiet⟩
    simp [hbytes, hbuf, hch]
  | failed hbuf hch =>
    refine ⟨hbytes, fun hne => ?_⟩
    -- there was an error in the channel, so the pump has stopped
    rw [(hquiet hne).1] at hch
    cases hch
  | returned size hbuf =>
    refine ⟨?_, hquiet⟩
    simp [hbytes]

/-- A circuit that was just dialled. -/
def start (hops : List CircuitKeyState) : Reader := { hops := hops }

theorem Conserved.of_run {hops : List CircuitKeyState} (h : Run json (start hops) s) : s.Conserved :=
  Run.invariant (fun _ _ hinv hmoves => Conserved.moves hinv hmoves) h ⟨rfl, fun _ => ⟨rfl, rfl⟩⟩

/-! ## Before the end -/

/-- `Read` has returned what arrived in order, and all of it if it has returned an error. -/
def Delivered (s : Reader) : Prop :=
  s.returned <+: s.arrived ∧ (s.failed.isSome → s.returned = s.arrived)

/-- The pump has read the end of the stream, only empty chunks wait in the channel, and an error is
returned only with an empty buffer. -/
structure Settled (s : Reader) : Prop where
  pump : s.pump.ended = true
  empty : s.readCh.buf.flatten = []
  buffer : s.failed.isSome → s.readBuf = []

theorem Settled.moves (h : s.Settled) (hmoves : s.Moves t) : t.Settled := by
  obtain ⟨hended, hempty, hbuffer⟩ := h
  cases hmoves with
  | data body hpump => simp [hpump, PumpPhase.ended] at hended
  | finished e hpump => simp [hpump, PumpPhase.ended] at hended
  | ignored hpump => exact ⟨hended, hempty, hbuffer⟩
  | sent hpump hch => simp [hpump, PumpPhase.ended] at hended
  | reported hpump hch => exact ⟨rfl, hempty, hbuffer⟩
  | called size hcall => exact ⟨hended, hempty, hbuffer⟩
  | took hbuf hch =>
    rw [hch, List.flatten_cons, List.append_eq_nil_iff] at hempty
    exact ⟨hended, hempty.2, fun _ => hempty.1⟩
  | failed hbuf hch => exact ⟨hended, hempty, fun _ => hbuf⟩
  | returned size hbuf => exact ⟨hended, hempty, fun hfailed => absurd (hbuffer hfailed) hbuf⟩

theorem PumpPhase.pending_of_ended {p : PumpPhase} (h : p.ended = true) : p.pending = [] := by
  cases p with
  | sending body => cases h
  | running => rfl
  | reporting e => rfl
  | stopped => rfl

theorem Settled.delivered (h : s.Settled) (hconserved : s.Conserved) : s.Delivered := by
  have hbytes := hconserved.bytes
  rw [h.empty, PumpPhase.pending_of_ended h.pump, List.append_nil, List.append_nil] at hbytes
  refine ⟨⟨s.readBuf, hbytes.symm⟩, fun hfailed => ?_⟩
  rw [hbytes, h.buffer hfailed, List.append_nil]

/-- The user reads until the buffer is empty and calls `Read` once more. -/
theorem exists_waiting (json : ErrorFormat) (s : Reader) : ∃ size, Run json s
    { s with call := some size, readBuf := [], returned := s.returned ++ s.readBuf } := by
  -- from a state without a call in progress, one call takes what is left in the buffer
  have hidle : ∀ s : Reader, s.call = none → Run json s
      { s with call := some 0, readBuf := [], returned := s.returned ++ s.readBuf } := by
    rintro ⟨hops, pump, readCh, errCh, readBuf, call, arrived, returned, failed⟩ hcall
    cases hcall
    cases readBuf with
    | nil =>
      rw [List.append_nil]
      exact .single ⟨.read 0, trivial, rfl⟩
    | cons b bs =>
      apply Reach.of_foldlM (fun _ _ => trivial) [.read (bs.length + 1), .returnBytes, .read 0]
      simp [step]
  cases hcall : s.call with
  | none => exact ⟨0, hidle s hcall⟩
  | some size =>
    cases hbuf : s.readBuf with
    | nil =>
      refine ⟨size, ?_⟩
      obtain ⟨hops, pump, readCh, errCh, readBuf, call, arrived, returned, failed⟩ := s
      cases hcall
      cases hbuf
      rw [List.append_nil]
    | cons b bs =>
      have hfirst : s.step json .returnBytes = some { s with
          call := none
          returned := s.returned ++ (b :: bs).take size
          readBuf := (b :: bs).drop size } := by
        simp only [step, hcall, hbuf]
      refine ⟨0, .head ⟨_, trivial, hfirst⟩ ?_⟩
      have hrest := hidle _ (rfl : ({ s with
          call := none
          returned := s.returned ++ (b :: bs).take size
          readBuf := (b :: bs).drop size } : Reader).call = none)
      rw [List.append_assoc, List.take_append_drop] at hrest
      exact hrest

theorem takeError_eq {size : Nat} {e : StreamEnd} {ch : Chan StreamEnd 1} (hcall : s.call = some size)
    (hbuf : s.readBuf = []) (hreceive : s.errCh.receive = some (e, ch)) :
    s.step json .takeError = some { s with errCh := ch, call := none, failed := some e } := by
  simp only [step, hcall, hbuf, hreceive, Option.map_some]

/-- From a state in which the pump reports the end, `Read` can return it before it takes anything from
the channel of chunks. -/
theorem exists_failed (json : ErrorFormat) (hconserved : s.Conserved) {e : StreamEnd}
    (hpump : s.pump = .reporting e) :
    ∃ t, Run json s t ∧ t.failed = some e ∧ t.arrived = s.arrived ∧
      t.returned = s.returned ++ s.readBuf := by
  have hempty : s.errCh.buf = [] := (hconserved.quiet (by simp [hpump])).1
  obtain ⟨ch, hsend⟩ := Chan.send_eq_some (c := s.errCh) (a := e) (by simp [hempty])
  have hch : ch.buf = [e] := by rw [Chan.buf_of_send hsend, hempty, List.nil_append]
  obtain ⟨ch', hreceive⟩ := Chan.receive_eq_some hch
  obtain ⟨size, hwait⟩ := exists_waiting json { s with errCh := ch, pump := .stopped }
  -- the pump reports, the user empties the buffer, and the select takes the error
  have hreport : s.step json .sendError = some { s with errCh := ch, pump := .stopped } := by
    simp only [step, hpump, hsend, Option.map_some]
  exact ⟨_, (Relation.ReflTransGen.head ⟨_, trivial, hreport⟩ hwait).tail
    ⟨.takeError, trivial, takeError_eq rfl rfl hreceive⟩, rfl, rfl, rfl⟩

end Reader

/-- When the pump has read the end of the stream, every run from there on returns all data before the
error exactly if no data waits in the channel. -/
theorem delivered_before_end_iff {json : ErrorFormat} {hops : List CircuitKeyState} {s : Reader}
    (hrun : Reader.Run json (Reader.start hops) s) {e : StreamEnd} (hpump : s.pump = .reporting e) :
    (∀ t, Reader.Run json s t → t.Delivered) ↔ s.readCh.buf.flatten = [] := by
  have hconserved := Reader.Conserved.of_run hrun
  constructor
  · intro hall
    obtain ⟨t, ht, hfailed, harrived, hreturned⟩ := Reader.exists_failed json hconserved hpump
    -- that run has returned the buffer and nothing from the channel
    have hdelivered := (hall t ht).2 (hfailed ▸ rfl)
    rw [harrived, hreturned, hconserved.bytes, hpump] at hdelivered
    simpa [PumpPhase.pending] using hdelivered
  · intro hempty t ht
    have hsettled : s.Settled := by
      refine ⟨hpump ▸ rfl, hempty, fun hfailed => ?_⟩
      rw [(hconserved.quiet (by simp [hpump])).2] at hfailed
      cases hfailed
    have hpreserved : ∀ s t : Reader, s.Conserved ∧ s.Settled → s.Moves t → t.Conserved ∧ t.Settled :=
      fun s t h hmoves => ⟨h.1.moves hmoves, h.2.moves hmoves⟩
    obtain ⟨hconserved', hsettled'⟩ := Reader.Run.invariant hpreserved ht ⟨hconserved, hsettled⟩
    exact hsettled'.delivered hconserved'

/-- The cell of a data command of the last relay. -/
def dataCell (hops : List CircuitKeyState) (body : Bytes) : Cell :=
  ⟨cellTypeRelay, Vector.replicate 16 0, (sealBack hops (envelope relayCmdData body)).1⟩

/-- The cell that closes a circuit. -/
def destroyCell : Cell := ⟨cellTypeDestroy, Vector.replicate 16 0, []⟩

/-- One byte arrives and is put into the channel, then the circuit is closed, and then come other
steps. -/
def byteThenDestroy (rest : List ReaderStep) : List ReaderStep :=
  .arrive (.ok (dataCell [markedKeys 1] [7])) :: .sendChunk :: .arrive (.ok destroyCell) :: rest

theorem delivered_before_end_taken :
    ∃ s, Reader.Run plainErrors (Reader.start [markedKeys 1]) s ∧ s.pump = .reporting .eof ∧
      ((∀ t, Reader.Run plainErrors s t → t.Delivered) ↔ s.readCh.buf.flatten = []) := by
  have hsteps : ∃ s, (byteThenDestroy [.read 1, .takeChunk]).foldlM (Reader.step plainErrors)
      (Reader.start [markedKeys 1]) = some s ∧ s.pump = .reporting .eof := ⟨_, rfl, rfl⟩
  obtain ⟨s, hsteps, hpump⟩ := hsteps
  have hrun := Reach.of_foldlM (fun _ _ => trivial) _ hsteps
  exact ⟨s, hrun, hpump, delivered_before_end_iff hrun hpump⟩

/-- One byte arrives, then the circuit is closed, and the select of the next `Read` takes the error: the
call returns the end of the stream and the byte is still in the channel. -/
theorem byte_lost_before_eof :
    ∃ s, Reader.Run plainErrors (Reader.start [markedKeys 1]) s ∧ s.failed = some .eof ∧
      s.arrived = [7] ∧ s.returned = [] ∧ ¬ s.Delivered := by
  have hsteps : ∃ s, (byteThenDestroy [.sendError, .read 1, .takeError]).foldlM
      (Reader.step plainErrors) (Reader.start [markedKeys 1]) = some s ∧ s.failed = some .eof ∧
      s.arrived = [7] ∧ s.returned = [] := ⟨_, rfl, rfl, rfl, rfl⟩
  obtain ⟨s, hsteps, hfailed, harrived, hreturned⟩ := hsteps
  refine ⟨s, Reach.of_foldlM (fun _ _ => trivial) _ hsteps, hfailed, harrived, hreturned, fun h => ?_⟩
  have hall := h.2 (hfailed ▸ rfl)
  rw [harrived, hreturned] at hall
  cases hall

end Vx6.Onion
