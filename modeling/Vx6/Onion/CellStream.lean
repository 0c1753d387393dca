import Vx6.Onion.Envelope

/-!
# Cells on a stream

Cells follow each other on a connection, whose reads return the bytes in pieces of any size.
`io.ReadFull` puts the pieces together. `readCells_write` reads a list of cells back from any pieces, with
1024 bytes for each cell. `formats_lossless` has this and the same for relay envelopes: what follows an
envelope does not matter, and an envelope that was read is written again as it stood.
-/

set_option autoImplicit false

namespace Vx6.Onion

open Vx6.Go Vx6.Lib

/-! ## Reading in pieces -/

/-- `io.ReadFull` on a connection whose reads return the given pieces: the bytes, and the pieces that are
left. A read takes no more of a piece than is wanted. -/
def readFull : Nat → List Bytes → Option (Bytes × List Bytes)
  | n, [] => if n = 0 then some ([], []) else none
  | n, piece :: pieces =>
    if n = 0 then some ([], piece :: pieces)
    else if piece.length < n then
      (readFull (n - piece.length) pieces).map fun r => (piece ++ r.1, r.2)
    else some (piece.take n, piece.drop n :: pieces)

/-- The bytes do not depend on the pieces in which they come. -/
theorem readFull_eq {n : Nat} {pieces : List Bytes} (h : n ≤ pieces.flatten.length) :
    ∃ rest, readFull n pieces = some (pieces.flatten.take n, rest) ∧
      rest.flatten = pieces.flatten.drop n := by
  induction pieces generalizing n with
  | nil =>
    have hzero : n = 0 := Nat.le_zero.1 h
    exact ⟨[], by rw [readFull, if_pos hzero, hzero]; rfl, by rw [hzero]; rfl⟩
  | cons piece pieces ih =>
    rw [List.flatten_cons, List.length_append] at h
    rw [readFull, List.flatten_cons]
    by_cases hzero : n = 0
    · exact ⟨piece :: pieces, by rw [if_pos hzero, hzero, List.take_zero], by rw [hzero]; rfl⟩
    by_cases hshort : piece.length < n
    · obtain ⟨rest, hread, hrest⟩ := ih (n := n - piece.length) (by omega)
      refine ⟨rest, ?_, ?_⟩
      · rw [if_neg hzero, if_pos hshort, hread, List.take_append, List.take_of_length_le hshort.le]
        rfl
      · rw [hrest, List.drop_append, List.drop_of_length_le hshort.le, List.nil_append]
    · refine ⟨piece.drop n :: pieces, ?_, ?_⟩
      · rw [if_neg hzero, if_neg hshort, List.take_append_of_le_length (Nat.not_lt.1 hshort)]
      · rw [List.flatten_cons, List.drop_append_of_le_length (Nat.not_lt.1 hshort)]

/-! ## Cells -/

/-- `readCell` on a connection. -/
def readCellFrom (pieces : List Bytes) : Except CircuitError (Cell × List Bytes) :=
  match readFull cellSize pieces with
  | none => .error .readCell
  | some (raw, rest) => (readCell raw).map fun r => (r.1, rest)

/-- Reading a number of cells. -/
def readCells : Nat → List Bytes → Except CircuitError (List Cell × List Bytes)
  | 0, pieces => .ok ([], pieces)
  | n + 1, pieces => do
    let (c, rest) ← readCellFrom pieces
    let (cells, rest) ← readCells n rest
    return (c :: cells, rest)

/-- Writing cells one after the other. -/
def writeCells : List Cell → Except CircuitError Bytes
  | [] => .ok []
  | c :: cells => do
    let raw ← writeCell c
    let more ← writeCells cells
    return raw ++ more

theorem readCellFrom_write {c : Cell} {raw more : Bytes} (h : writeCell c = .ok raw) {pieces : List Bytes}
    (hpieces : pieces.flatten = raw ++ more) :
    ∃ rest, readCellFrom pieces = .ok (c, rest) ∧ rest.flatten = more := by
  have hlength := length_writeCell h
  have hlong : cellSize ≤ pieces.flatten.length := by
    rw [hpieces, List.length_append, hlength]
    omega
  obtain ⟨rest, hread, hrest⟩ := readFull_eq hlong
  have hcell : readCell raw = .ok (c, []) := by
    have hback := readCell_writeCell h []
    rwa [List.append_nil] at hback
  refine ⟨rest, ?_, ?_⟩
  · rw [readCellFrom, hread, hpieces, List.take_left' hlength]
    show (readCell raw).map _ = _
    rw [hcell]
    rfl
  · rw [hrest, hpieces, List.drop_left' hlength]

theorem writeCells_cons {c : Cell} {cells : List Cell} {raw more : Bytes} (hc : writeCell c = .ok raw)
    (hcells : writeCells cells = .ok more) : writeCells (c :: cells) = .ok (raw ++ more) := by
  rw [writeCells, hc]
  show (writeCells cells).bind _ = _
  rw [hcells]
  rfl

/-- Cells with payloads that fit are written. -/
theorem writeCells_ok {cells : List Cell} (h : ∀ c ∈ cells, c.payload.length ≤ cellPayloadSize) :
    ∃ raw, writeCells cells = .ok raw ∧ raw.length = cellSize * cells.length := by
  induction cells with
  | nil => exact ⟨[], rfl, rfl⟩
  | cons c cells ih =>
    obtain ⟨hc, hrest⟩ := List.forall_mem_cons.1 h
    obtain ⟨raw, hraw⟩ := writeCell_isOk_iff.2 hc
    obtain ⟨more, hmore, hlength⟩ := ih hrest
    refine ⟨raw ++ more, writeCells_cons hraw hmore, ?_⟩
    rw [List.length_append, length_writeCell hraw, hlength, List.length_cons, Nat.mul_succ, Nat.add_comm]

/-- Any number of the cells that were written is read back, and just their bytes are taken. -/
theorem readCells_write {cells : List Cell} {raw more : Bytes} (h : writeCells cells = .ok raw) {k : Nat}
    (hk : k ≤ cells.length) {pieces : List Bytes} (hpieces : pieces.flatten = raw ++ more) :
    ∃ rest, readCells k pieces = .ok (cells.take k, rest) ∧
      rest.flatten = pieces.flatten.drop (cellSize * k) := by
  induction k generalizing cells raw pieces with
  | zero => exact ⟨pieces, rfl, rfl⟩
  | succ k ih =>
    cases cells with
    | nil => cases hk
    | cons c cells =>
      simp only [writeCells, bind_eq_ok, pure_eq_ok] at h
      obtain ⟨first, hfirst, others, hothers, rfl⟩ := h
      rw [List.append_assoc] at hpieces
      obtain ⟨rest, hread, hrest⟩ := readCellFrom_write hfirst hpieces
      obtain ⟨last, hcells, hlast⟩ := ih hothers (Nat.le_of_succ_le_succ hk) hrest
      refine ⟨last, ?_, ?_⟩
      · rw [readCells, hread]
        show (readCells k rest).bind _ = _
        rw [hcells]
        rfl
      · -- the first cell takes the first 1024 bytes
        rw [hlast, hrest, hpieces, Nat.mul_succ, Nat.add_comm, ← List.drop_drop,
          List.drop_left' (length_writeCell hfirst)]

/-! ## Envelopes -/

theorem putUint16_bigEndian {field : Bytes} (h : field.length = 2) : putUint16 (bigEndian field) = field := by
  obtain ⟨a, b, rfl⟩ := List.length_eq_two.1 h
  have ha := a.toNat_lt
  have hb := b.toNat_lt
  have hvalue : bigEndian [a, b] = 256 * a.toNat + b.toNat := by simp [bigEndian]
  have hhigh : UInt8.ofNat ((256 * a.toNat + b.toNat) >>> 8) = a := by
    have hdiv : (256 * a.toNat + b.toNat) >>> 8 = a.toNat := by
      rw [Nat.shiftRight_eq_div_pow]
      omega
    rw [hdiv, UInt8.ofNat_toNat]
  have hlow : UInt8.ofNat (256 * a.toNat + b.toNat) = b := by
    apply UInt8.toNat.inj
    rw [UInt8.toNat_ofNat']
    omega
  rw [putUint16, hvalue, hhigh, hlow]

/-- The magic, the command, the length and the content of a payload. -/
theorem header_fields {payload : Bytes} (h : relayEnvelopeSize ≤ payload.length) :
    payload.take 4 ++ [payload.getD 4 0] ++ (payload.drop 5).take 2 ++ payload.drop relayEnvelopeSize =
      payload := by
  have hlong : 4 < payload.length := Nat.lt_of_lt_of_le (by decide) h
  have hcommand : payload.drop 4 = payload.getD 4 0 :: payload.drop 5 := by
    rw [List.drop_eq_getElem_cons hlong, List.getD_eq_getElem?_getD, List.getElem?_eq_getElem hlong,
      Option.getD_some]
  have hlength : payload.drop 5 = (payload.drop 5).take 2 ++ payload.drop relayEnvelopeSize := by
    have hdrop : payload.drop relayEnvelopeSize = (payload.drop 5).drop 2 := by rw [List.drop_drop]; rfl
    rw [hdrop, List.take_append_drop]
  rw [List.append_assoc, ← hlength, List.append_assoc, List.singleton_append, ← hcommand,
    List.take_append_drop]

/-- An envelope that was read stands at the start of the payload. -/
theorem envelope_of_decode {payload body : Bytes} {command : UInt8}
    (h : decodeRelayEnvelope payload = .ok (some (command, body))) :
    envelope command body <+: payload := by
  simp only [decodeRelayEnvelope] at h
  split_ifs at h with hshort hmagic hlong
  · cases h
  · cases h
  · cases h
    have hlong' := Nat.not_lt.1 hlong
    have hfield : ((payload.drop 5).take 2).length = 2 := by
      rw [List.length_take, List.length_drop]
      have hsize : relayEnvelopeSize = 7 := rfl
      omega
    have hfits : bigEndian ((payload.drop 5).take 2) ≤ (payload.drop relayEnvelopeSize).length := by
      rw [List.length_drop]
      omega
    refine ⟨(payload.drop relayEnvelopeSize).drop (bigEndian ((payload.drop 5).take 2)), ?_⟩
    rw [envelope, List.length_take_of_le hfits, putUint16_bigEndian hfield, List.append_assoc,
      List.take_append_drop, ← not_not.1 hmagic]
    exact header_fields (Nat.not_lt.1 hshort)

/-- Cells with payloads of up to 1004 bytes are written one after the other in 1024 bytes each, and any
number of them is read back from the pieces in which the bytes come, without a byte of what follows. A relay
envelope is read back with its command and body whatever padding follows, and the envelope of a body that
was read is the start of the payload. -/
theorem formats_lossless :
    (∀ cells : List Cell, (∀ c ∈ cells, c.payload.length ≤ 1004) →
      ∃ raw, writeCells cells = .ok raw ∧ raw.length = 1024 * cells.length ∧
        ∀ (more : Bytes) (pieces : List Bytes), pieces.flatten = raw ++ more →
          ∀ k ≤ cells.length, ∃ rest, readCells k pieces = .ok (cells.take k, rest) ∧
            rest.flatten = pieces.flatten.drop (1024 * k)) ∧
    (∀ (command : UInt8) (body : Bytes), body.length ≤ maxRelayDataPayload →
      ∃ out, encodeRelayEnvelope command body = .ok out ∧
        ∀ padding, decodeRelayEnvelope (out ++ padding) = .ok (some (command, body))) ∧
    ∀ (payload : Bytes) (command : UInt8) (body : Bytes),
      decodeRelayEnvelope payload = .ok (some (command, body)) → body.length ≤ maxRelayDataPayload →
        ∃ out, encodeRelayEnvelope command body = .ok out ∧ out <+: payload := by
  refine ⟨?_, ?_, ?_⟩
  · intro cells hfit
    obtain ⟨raw, hraw, hlength⟩ := writeCells_ok hfit
    refine ⟨raw, hraw, hlength, ?_⟩
    intro more pieces hpieces k hk
    exact readCells_write hraw hk hpieces
  · intro command body hbody
    refine ⟨envelope command body, encodeRelayEnvelope_eq_ok hbody, ?_⟩
    intro padding
    exact decode_envelope_append hbody padding
  · intro payload command body hdecode hbody
    exact ⟨envelope command body, encodeRelayEnvelope_eq_ok hbody, envelope_of_decode hdecode⟩

/-- A relay cell and a destroy cell without payload. -/
def sampleCells : List Cell :=
  [⟨cellTypeRelay, .replicate 16 1, [104, 105]⟩, ⟨cellTypeDestroy, .replicate 16 1, []⟩]

/-- The first of the sample cells is read from a connection that holds both. -/
theorem formats_lossless_two :
    ∃ raw, writeCells sampleCells = .ok raw ∧ raw.length = 2048 ∧
      ∃ rest, readCells 1 [raw.take 3, [], raw.drop 3] = .ok (sampleCells.take 1, rest) ∧
        rest.flatten = raw.drop 1024 := by
  obtain ⟨raw, hraw, hlength, hread⟩ := formats_lossless.1 sampleCells (by decide)
  have hpieces : ([raw.take 3, [], raw.drop 3] : List Bytes).flatten = raw ++ [] := by
    simp [List.flatten_cons, List.take_append_drop]
  obtain ⟨rest, hcells, hrest⟩ := hread [] [raw.take 3, [], raw.drop 3] hpieces 1 (by decide)
  refine ⟨raw, hraw, hlength, rest, hcells, ?_⟩
  rw [hrest, hpieces, List.append_nil]

end Vx6.Onion
