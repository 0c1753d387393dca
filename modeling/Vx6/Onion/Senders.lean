import Vx6.Lib.Run
import Vx6.Onion.Layers

/-!
# The goroutines of a relay that send towards the client

The serve loop, `pumpOutbound` and `pumpTarget` of a relay all seal backward cells with the keys they
share. `sealBackward` reads the counter and increments it without a lock; only the write of the cell is
under `writeMu`. `Senders.step` is one of these three steps by one goroutine.

`backward_cells_in_order` says what holds when a goroutine seals only while no other one is between its
seal and its write: every counter is used once, the cells are written in the order of their counters,
and the client opens them all. `counter_used_twice_and_cells_swapped` are two runs without that.
-/

set_option autoImplicit false

namespace Vx6.Onion

open Vx6.Go Vx6.Lib

/-- The goroutines of a relay that send backward cells. There is one `pumpTarget` for each target: after
an End command and a new Begin command the one of the old target can still be sending. -/
inductive Sender where
  | serve
  | pumpOutbound
  | pumpTarget (target : Nat)
  deriving DecidableEq, Repr

/-- A sealed payload on its way to the inbound connection, with its counter and the plain text. -/
structure Draft where
  counter : UInt64
  plain : Bytes
  payload : Bytes
  deriving DecidableEq, Repr

/-- Where a goroutine is: it has nothing to send, it has sealed a payload, or it has incremented the
counter too and is about to write the cell. -/
inductive SendPhase where
  | idle
  | sealed (d : Draft)
  | ready (d : Draft)
  deriving DecidableEq, Repr

/-- What `sealBackward` seals, before it increments the counter. -/
def CircuitKeyState.draft (k : CircuitKeyState) (plain : Bytes) : Draft :=
  { counter := k.backwardCounter
    plain := plain
    payload := k.backward.sealBytes (counterNonce k.backwardCounter) plain }

/-- The keys of a relay, where its goroutines are, the counters that were used to seal, and the relay
cells on the inbound connection, the first one first. -/
structure Senders where
  circuitID : CircuitID
  keys : CircuitKeyState
  phase : Sender → SendPhase := fun _ => .idle
  used : List UInt64 := []
  wire : List Draft := []

/-- The steps of a goroutine that sends: the two halves of `sealBackward`, and `writeInbound`. -/
inductive SendStep where
  | sealPayload (g : Sender) (plain : Bytes)
  | increment (g : Sender)
  | writeInbound (g : Sender)
  deriving DecidableEq, Repr

namespace Senders

/-- One step of one goroutine. -/
def step (s : Senders) : SendStep → Option Senders
  | .sealPayload g plain =>
      match s.phase g with
      | .idle => some { s with
          phase := Function.update s.phase g (.sealed (s.keys.draft plain))
          used := s.used ++ [s.keys.backwardCounter] }
      | _ => none
  | .increment g =>
      match s.phase g with
      | .sealed d => some { s with
          keys := { s.keys with backwardCounter := s.keys.backwardCounter + 1 }
          phase := Function.update s.phase g (.ready d) }
      | _ => none
  | .writeInbound g =>
      match s.phase g with
      | .ready d =>
          match writeCell { type := cellTypeRelay, circuitID := s.circuitID, payload := d.payload } with
          | .ok _ => some { s with
              phase := Function.update s.phase g .idle
              wire := s.wire ++ [d] }
          -- the counter is used up, and nothing is written
          | .error _ => some { s with phase := Function.update s.phase g .idle }
      | _ => none

/-- A relay whose circuit was just created. -/
def start (circuitID : CircuitID) (keys : CircuitKeyState) : Senders :=
  { circuitID := circuitID, keys := { keys with backwardCounter := 0 } }

/-- A goroutine seals only while the others are idle, what it seals fits into a cell, and the counter has
not wrapped around. -/
def Exclusive (s : Senders) : SendStep → Prop
  | .sealPayload g plain => (∀ g', g' ≠ g → s.phase g' = .idle) ∧
      plain.length + tagSize ≤ cellPayloadSize ∧ s.used.length < 2 ^ 64
  | _ => True

end Senders

/-! ## One sender -/

namespace CircuitKeyState

/-- The keys after `n` backward cells. -/
def advanced (k : CircuitKeyState) (n : Nat) : CircuitKeyState :=
  { k with backwardCounter := k.backwardCounter + UInt64.ofNat n }

/-- What a single sender seals, one payload after the other. -/
def drafts (k : CircuitKeyState) : List Bytes → List Draft
  | [] => []
  | p :: ps => k.draft p :: (k.sealBackward p).2.drafts ps

/-- The client opens one payload after the other. -/
def openAll (k : CircuitKeyState) : List Bytes → Except CircuitError (List Bytes × CircuitKeyState)
  | [] => .ok ([], k)
  | c :: cs => do
      let (plain, k') ← k.openBackward c
      let (rest, k'') ← k'.openAll cs
      return (plain :: rest, k'')

@[simp] theorem advanced_zero (k : CircuitKeyState) : k.advanced 0 = k := by
  simp [advanced]

theorem advanced_succ (k : CircuitKeyState) (n : Nat) :
    k.advanced (n + 1) = { k.advanced n with backwardCounter := (k.advanced n).backwardCounter + 1 } := by
  simp [advanced, UInt64.ofNat_add, UInt64.add_assoc]

theorem advanced_sealBackward (k : CircuitKeyState) (p : Bytes) (n : Nat) :
    (k.sealBackward p).2.advanced n = k.advanced (n + 1) := by
  simp [advanced, sealBackward, UInt64.ofNat_add, UInt64.add_assoc, UInt64.add_comm]

theorem drafts_append (k : CircuitKeyState) (ps : List Bytes) (p : Bytes) :
    k.drafts (ps ++ [p]) = k.drafts ps ++ [(k.advanced ps.length).draft p] := by
  induction ps generalizing k with
  | nil => simp [drafts]
  | cons q qs ih =>
    rw [List.cons_append, drafts, ih, advanced_sealBackward]
    rfl

theorem map_plain_drafts (k : CircuitKeyState) (ps : List Bytes) : (k.drafts ps).map Draft.plain = ps := by
  induction ps generalizing k with
  | nil => rfl
  | cons p ps ih => exact congrArg (p :: ·) (ih _)

theorem map_counter_drafts (k : CircuitKeyState) (ps : List Bytes) :
    (k.drafts ps).map Draft.counter =
      (List.range ps.length).map fun i => k.backwardCounter + UInt64.ofNat i := by
  induction ps using List.reverseRecOn with
  | nil => rfl
  | append_singleton ps p ih =>
    rw [drafts_append, List.map_append, ih, List.length_append, List.length_singleton,
      List.range_succ, List.map_append]
    rfl

/-- The client opens what a single sender seals. -/
theorem Lawful.openAll_drafts {k : CircuitKeyState} (h : k.Lawful) (ps : List Bytes) :
    ∃ k', k.openAll ((k.drafts ps).map Draft.payload) = .ok (ps, k') := by
  induction ps generalizing k with
  | nil => exact ⟨k, rfl⟩
  | cons p ps ih =>
    have h' : (k.sealBackward p).2.Lawful := h.of_ciphers rfl
    obtain ⟨k', hrest⟩ := ih h'
    have hopen : k.openBackward (k.draft p).payload = .ok (p, (k.sealBackward p).2) :=
      h.openBackward_seal p
    refine ⟨k', ?_⟩
    simp only [drafts, List.map_cons, openAll, hopen, bind, Except.bind, hrest]
    rfl

end CircuitKeyState

/-! ## The goroutines as one sender -/

namespace Senders

/-- The first `n` values of a counter that starts at zero. -/
def counters (n : Nat) : List UInt64 := (List.range n).map UInt64.ofNat

theorem counters_succ (n : Nat) : counters (n + 1) = counters n ++ [UInt64.ofNat n] := by
  rw [counters, List.range_succ, List.map_append]
  rfl

theorem counters_pairwise {n : Nat} (h : n ≤ 2 ^ 64) : (counters n).Pairwise (· < ·) := by
  refine List.pairwise_map.2 (List.pairwise_lt_range.imp_of_mem fun {i j} hi hj hlt => ?_)
  have hi' := List.mem_range.1 hi
  have hj' := List.mem_range.1 hj
  rw [UInt64.lt_iff_toNat_lt, UInt64.toNat_ofNat', UInt64.toNat_ofNat', Nat.mod_eq_of_lt (by omega),
    Nat.mod_eq_of_lt (by omega)]
  exact hlt

/-- The states of a relay whose goroutines seal one at a time: all are idle after `ps` was sent, or one of
them is on its way with the next payload. -/
inductive Orderly (circuitID : CircuitID) (k : CircuitKeyState) : Senders → Prop
  | quiet (ps : List Bytes) : ps.length ≤ 2 ^ 64 → Orderly circuitID k
      { circuitID := circuitID
        keys := k.advanced ps.length
        used := counters ps.length
        wire := k.drafts ps }
  | sealing (ps : List Bytes) (g : Sender) (p : Bytes) : ps.length < 2 ^ 64 →
      p.length + tagSize ≤ cellPayloadSize → Orderly circuitID k
      { circuitID := circuitID
        keys := k.advanced ps.length
        phase := Function.update (fun _ => .idle) g (.sealed ((k.advanced ps.length).draft p))
        used := counters (ps.length + 1)
        wire := k.drafts ps }
  | ready (ps : List Bytes) (g : Sender) (p : Bytes) : ps.length < 2 ^ 64 →
      p.length + tagSize ≤ cellPayloadSize → Orderly circuitID k
      { circuitID := circuitID
        keys := k.advanced (ps.length + 1)
        phase := Function.update (fun _ => .idle) g (.ready ((k.advanced ps.length).draft p))
        used := counters (ps.length + 1)
        wire := k.drafts ps }

variable {circuitID : CircuitID} {k : CircuitKeyState} {s t : Senders}

/-- What each step does. -/
theorem step_cases {a : SendStep} (h : s.step a = some t) :
    (∃ g p, a = .sealPayload g p ∧ s.phase g = .idle ∧ t = { s with
      phase := Function.update s.phase g (.sealed (s.keys.draft p))
      used := s.used ++ [s.keys.backwardCounter] }) ∨
    (∃ g d, a = .increment g ∧ s.phase g = .sealed d ∧ t = { s with
      keys := { s.keys with backwardCounter := s.keys.backwardCounter + 1 }
      phase := Function.update s.phase g (.ready d) }) ∨
    (∃ g d, a = .writeInbound g ∧ s.phase g = .ready d ∧ t = { s with
      phase := Function.update s.phase g .idle
      wire := if d.payload.length ≤ cellPayloadSize then s.wire ++ [d] else s.wire }) := by
  cases a with
  | sealPayload g p =>
    simp only [step] at h
    split at h
    · rename_i hphase
      exact .inl ⟨g, p, rfl, hphase, (Option.some.inj h).symm⟩
    · cases h
  | increment g =>
    simp only [step] at h
    split at h
    · rename_i d hphase
      exact .inr (.inl ⟨g, d, rfl, hphase, (Option.some.inj h).symm⟩)
    · cases h
  | writeInbound g =>
    simp only [step] at h
    split at h
    · rename_i d hphase
      refine .inr (.inr ⟨g, d, rfl, hphase, ?_⟩)
      split at h
      · rename_i raw hwrite
        rw [if_pos (writeCell_isOk_iff.1 ⟨raw, hwrite⟩)]
        exact (Option.some.inj h).symm
      · rename_i e hwrite
        rw [if_neg fun hfits => by rw [writeCell_eq_ok hfits] at hwrite; cases hwrite]
        exact (Option.some.inj h).symm
    · cases h

/-- With one goroutine on its way, another phase than idle is the one of that goroutine. -/
theorem busy_eq {g g' : Sender} {x y : SendPhase}
    (h : Function.update (fun _ => SendPhase.idle) g x g' = y) (hy : y ≠ .idle) : g' = g ∧ x = y := by
  by_cases hself : g' = g
  · subst hself
    exact ⟨rfl, by rwa [Function.update_self] at h⟩
  · rw [Function.update_of_ne hself] at h
    exact absurd h.symm hy

/-- With one goroutine on its way, none may seal. -/
theorem not_exclusive_of_busy {g g' : Sender} {x : SendPhase} {p : Bytes}
    (hphase : s.phase = Function.update (fun _ => SendPhase.idle) g x) (hx : x ≠ .idle)
    (hidle : s.phase g' = .idle) (hok : s.Exclusive (.sealPayload g' p)) : False := by
  have hg : s.phase g = x := by rw [hphase, Function.update_self]
  by_cases hself : g = g'
  · exact hx (hg.symm.trans (hself ▸ hidle))
  · exact hx (hg.symm.trans (hok.1 g hself))

/-- Every step that seals alone keeps the goroutines orderly. -/
theorem Orderly.step (hlawful : k.Lawful) (hzero : k.backwardCounter = 0) (h : Orderly circuitID k s)
    {a : SendStep} (hok : s.Exclusive a) (hstep : s.step a = some t) : Orderly circuitID k t := by
  cases h with
  | quiet ps hlen =>
    rcases step_cases hstep with ⟨g, p, rfl, -, rfl⟩ | ⟨g, d, -, hphase, -⟩ | ⟨g, d, -, hphase, -⟩
    · obtain ⟨-, hfits, hcount⟩ := hok
      have hused : counters ps.length ++ [(k.advanced ps.length).backwardCounter] =
          counters (ps.length + 1) := by
        rw [counters_succ, CircuitKeyState.advanced, hzero, UInt64.zero_add]
      simp only [hused]
      exact .sealing ps g p (by simpa [counters] using hcount) hfits
    · cases hphase
    · cases hphase
  | sealing ps g p hlen hfits =>
    rcases step_cases hstep with ⟨g', q, rfl, hidle, -⟩ | ⟨g', d, -, hphase, rfl⟩ | ⟨g', d, -, hphase, -⟩
    · exact (not_exclusive_of_busy rfl (by simp) hidle hok).elim
    · obtain ⟨rfl, hd⟩ := busy_eq hphase (by simp)
      cases hd
      simp only [Function.update_idem, ← CircuitKeyState.advanced_succ]
      exact .ready ps g' p hlen hfits
    · cases (busy_eq hphase (by simp)).2
  | ready ps g p hlen hfits =>
    rcases step_cases hstep with ⟨g', q, rfl, hidle, -⟩ | ⟨g', d, -, hphase, -⟩ | ⟨g', d, -, hphase, rfl⟩
    · exact (not_exclusive_of_busy rfl (by simp) hidle hok).elim
    · cases (busy_eq hphase (by simp)).2
    · obtain ⟨rfl, hd⟩ := busy_eq hphase (by simp)
      cases hd
      -- the cell is written, and the goroutine is idle again
      have hsealed : ((k.advanced ps.length).draft p).payload.length ≤ cellPayloadSize := by
        rw [CircuitKeyState.draft, CircuitKeyState.advanced, hlawful.backward.length_seal]
        exact hfits
      have hidle : Function.update (fun _ => SendPhase.idle) g' .idle = fun _ => SendPhase.idle :=
        Function.update_eq_self g' _
      have hnext : Orderly circuitID k _ := .quiet (ps ++ [p]) (by rw [List.length_append]; exact hlen)
      rw [CircuitKeyState.drafts_append, List.length_append, List.length_singleton] at hnext
      simp only [Function.update_idem, hidle, if_pos hsealed]
      exact hnext

/-- A send that nothing interrupts seals with `sealBackward` and writes the cell. -/
theorem send_alone (hlawful : s.keys.Lawful) (hidle : ∀ g, s.phase g = .idle) (g : Sender)
    (plain : Bytes) (hfits : plain.length + tagSize ≤ cellPayloadSize) (hcount : s.used.length < 2 ^ 64) :
    Reach step Exclusive s { s with
      keys := (s.keys.sealBackward plain).2
      used := s.used ++ [s.keys.backwardCounter]
      wire := s.wire ++ [s.keys.draft plain] } := by
  have hsealed : (s.keys.draft plain).payload.length ≤ cellPayloadSize := by
    rw [CircuitKeyState.draft, hlawful.backward.length_seal]
    exact hfits
  have hback : Function.update s.phase g .idle = s.phase := by
    rw [← hidle g]
    exact Function.update_eq_self g _
  have hseal : s.step (.sealPayload g plain) = some { s with
      phase := Function.update s.phase g (.sealed (s.keys.draft plain))
      used := s.used ++ [s.keys.backwardCounter] } := by
    simp only [step, hidle]
  refine .head ⟨.sealPayload g plain, ⟨fun g' _ => hidle g', hfits, hcount⟩, hseal⟩ ?_
  have hincrement : step { s with
      phase := Function.update s.phase g (.sealed (s.keys.draft plain))
      used := s.used ++ [s.keys.backwardCounter] } (.increment g) = some { s with
      keys := (s.keys.sealBackward plain).2
      phase := Function.update s.phase g (.ready (s.keys.draft plain))
      used := s.used ++ [s.keys.backwardCounter] } := by
    simp only [step, Function.update_self, Function.update_idem]
    rfl
  refine .head ⟨.increment g, trivial, hincrement⟩ (.single ⟨.writeInbound g, trivial, ?_⟩)
  obtain ⟨raw, hwrite⟩ := (writeCell_isOk_iff
    (c := ⟨cellTypeRelay, s.circuitID, (s.keys.draft plain).payload⟩)).2 hsealed
  simp only [step, Function.update_self, hwrite, Function.update_idem, hback]

/-- An orderly relay has sent what a single sender sends. -/
theorem Orderly.eq_drafts (h : Orderly circuitID k s) :
    ∃ n ≤ 2 ^ 64, s.used = counters n ∧ ∃ ps : List Bytes, ps.length ≤ 2 ^ 64 ∧ s.wire = k.drafts ps := by
  cases h with
  | quiet ps hlen => exact ⟨_, hlen, rfl, ps, hlen, rfl⟩
  | sealing ps g p hlen hfits => exact ⟨_, hlen, rfl, ps, hlen.le, rfl⟩
  | ready ps g p hlen hfits => exact ⟨_, hlen, rfl, ps, hlen.le, rfl⟩

end Senders

/-- In every run in which the goroutines seal one at a time, no counter is used twice, the relay cells
stand on the inbound connection in the order of their counters, and the client opens them all. -/
theorem backward_cells_in_order {circuitID : CircuitID} {keys : CircuitKeyState} (hlawful : keys.Lawful)
    {s : Senders} (hrun : Reach Senders.step Senders.Exclusive (Senders.start circuitID keys) s) :
    s.used.Nodup ∧ (s.wire.map Draft.counter).Pairwise (· < ·) ∧
      ∃ client, (Senders.start circuitID keys).keys.openAll (s.wire.map Draft.payload) =
        .ok (s.wire.map Draft.plain, client) := by
  have hfresh : (Senders.start circuitID keys).keys.Lawful := hlawful.of_ciphers rfl
  have hpreserved : ∀ s a t, Senders.Orderly circuitID (Senders.start circuitID keys).keys s →
      s.Exclusive a → s.step a = some t →
      Senders.Orderly circuitID (Senders.start circuitID keys).keys t :=
    fun s a t h hok hstep => h.step hfresh rfl hok hstep
  have hstart : Senders.Orderly circuitID (Senders.start circuitID keys).keys _ :=
    .quiet [] (Nat.zero_le _)
  rw [List.length_nil, CircuitKeyState.advanced_zero] at hstart
  obtain ⟨n, hn, hused, ps, hlen, hwire⟩ := (Reach.invariant hpreserved hrun hstart).eq_drafts
  refine ⟨?_, ?_, ?_⟩
  · rw [hused]
    exact (Senders.counters_pairwise hn).imp fun hlt => UInt64.ne_of_lt hlt
  · have hcounters : s.wire.map Draft.counter = Senders.counters ps.length := by
      rw [hwire, CircuitKeyState.map_counter_drafts]
      exact List.map_congr_left fun i _ => UInt64.zero_add _
    rw [hcounters]
    exact Senders.counters_pairwise hlen
  · rw [hwire, CircuitKeyState.map_plain_drafts]
    exact hfresh.openAll_drafts ps

/-- Data from the target, then the answer to an End command, one after the other. -/
theorem backward_cells_in_order_sequential :
    ∃ s, Reach Senders.step Senders.Exclusive (Senders.start (Vector.replicate 16 0) (markedKeys 1)) s ∧
      s.wire.map Draft.counter = [0, 1] ∧ s.used.Nodup ∧
      (s.wire.map Draft.counter).Pairwise (· < ·) ∧
      ∃ client, (Senders.start (Vector.replicate 16 0) (markedKeys 1)).keys.openAll
        (s.wire.map Draft.payload) = .ok (s.wire.map Draft.plain, client) := by
  have hlawful : (markedKeys 1).Lawful := markedKeys_lawful 1
  have hfirst := Senders.send_alone (s := Senders.start (Vector.replicate 16 0) (markedKeys 1))
    (hlawful.of_ciphers rfl) (fun _ => rfl) (.pumpTarget 0) (envelope relayCmdData [7]) (by decide)
    (by decide)
  have hboth := hfirst.trans (Senders.send_alone (hlawful.of_ciphers rfl) (fun _ => rfl) .serve
    (envelope relayCmdEnd []) (by decide) (by decide))
  exact ⟨_, hboth, rfl, backward_cells_in_order hlawful hboth⟩

/-- `pumpTarget` has data for the client while the serve loop answers an End command. If both read the
counter before one increments it, it is used twice. If both have sealed and the serve loop writes first,
the client cannot open what it gets. -/
theorem counter_used_twice_and_cells_swapped :
    (∃ s, Reach Senders.step (fun _ _ => True)
        (Senders.start (Vector.replicate 16 0) (markedKeys 1)) s ∧ s.used = [0, 0]) ∧
    ∃ s, Reach Senders.step (fun _ _ => True)
        (Senders.start (Vector.replicate 16 0) (markedKeys 1)) s ∧
      s.wire.map Draft.counter = [1, 0] ∧
      (Senders.start (Vector.replicate 16 0) (markedKeys 1)).keys.openAll
        (s.wire.map Draft.payload) = .error .decryptBackward := by
  have htwice : ∃ s, List.foldlM Senders.step (Senders.start (Vector.replicate 16 0) (markedKeys 1))
      [.sealPayload (.pumpTarget 0) (envelope relayCmdData [7]),
        .sealPayload .serve (envelope relayCmdEnd [])] = some s ∧ s.used = [0, 0] := ⟨_, rfl, rfl⟩
  have hswapped : ∃ s, List.foldlM Senders.step (Senders.start (Vector.replicate 16 0) (markedKeys 1))
      [.sealPayload (.pumpTarget 0) (envelope relayCmdData [7]), .increment (.pumpTarget 0),
        .sealPayload .serve (envelope relayCmdEnd []), .increment .serve, .writeInbound .serve,
        .writeInbound (.pumpTarget 0)] = some s ∧ s.wire.map Draft.counter = [1, 0] ∧
      (Senders.start (Vector.replicate 16 0) (markedKeys 1)).keys.openAll
        (s.wire.map Draft.payload) = .error .decryptBackward := ⟨_, rfl, rfl, rfl⟩
  obtain ⟨s, hs, hused⟩ := htwice
  obtain ⟨t, ht, hcounters, hclient⟩ := hswapped
  exact ⟨⟨s, Reach.of_foldlM (fun _ _ => trivial) _ hs, hused⟩,
    t, Reach.of_foldlM (fun _ _ => trivial) _ ht, hcounters, hclient⟩

end Vx6.Onion
