import Vx6.Secure.Stream

/-!
# Nonces of a session

`Write` advances its counter only after the connection has taken the frame, so a call of `Write` that
follows a failed one seals under the nonce of the frame that failed. `nonces_unique_iff` says when that
is harmless: exactly when such a call begins with the chunk that failed. The two directions never meet,
whatever fails.
-/

set_option autoImplicit false

namespace Vx6.Secure

open Vx6.Go Vx6.Lib

/-! ## Calls of one end -/

/-- Every call after one whose frame failed seals the same text. -/
def Retried (calls : List SealCall) : Prop :=
  calls.IsChain fun x y => x.delivery ≠ .sent → y.plain = x.plain

/-- The first call of a sequence that follows a failed one has its counter. -/
theorem Numbered.head_counter {dir : UInt8} {c c' : UInt64} {x y : SealCall} {calls : List SealCall}
    (h : Numbered dir c (x :: calls) c') (hfailed : x.delivery ≠ .sent) (hy : y ∈ calls.head?) :
    y.counter = x.counter := by
  obtain ⟨-, hx, hrest⟩ := h
  rw [if_neg hfailed] at hrest
  cases calls with
  | nil => cases hy
  | cons z calls =>
    cases hy
    exact hrest.2.1.trans hx.symm

/-- After a frame is sent its counter does not come back before it has come round. -/
theorem Numbered.counter_ne_of_sent {dir : UInt8} {c c' : UInt64} {x y : SealCall}
    {calls : List SealCall} (h : Numbered dir c (x :: calls) c') (hsent : x.delivery = .sent)
    (hshort : sentCount (x :: calls) < 2 ^ 64) (hy : y ∈ calls) : y.counter ≠ x.counter := by
  obtain ⟨-, hx, hrest⟩ := h
  rw [if_pos hsent] at hrest
  obtain ⟨-, k, hk, hcounter⟩ := hrest.counter_of_mem hy
  have hcount : sentCount (x :: calls) = sentCount calls + 1 :=
    List.countP_cons_of_pos (by simpa using hsent)
  intro heq
  -- the counter of `y` is `k + 1` past the one of `x`, with `k + 1` below the modulus
  rw [hcounter, hx, UInt64.add_assoc] at heq
  have hzero : (1 + UInt64.ofNat k : UInt64) = 0 := by
    have := UInt64.add_right_inj (c := c) (a := 1 + UInt64.ofNat k) (b := 0)
    rw [UInt64.add_zero] at this
    exact this.1 heq
  have hval := congrArg UInt64.toNat hzero
  rw [UInt64.toNat_add, UInt64.toNat_ofNat', UInt64.toNat_zero, UInt64.toNat_one] at hval
  omega

/-- Calls of one end under one counter seal one text exactly when failed frames are retried, as long as
the counter does not come round. -/
theorem Numbered.plain_eq_iff_retried {dir : UInt8} {c c' : UInt64} {calls : List SealCall}
    (h : Numbered dir c calls c') (hshort : sentCount calls < 2 ^ 64) :
    (∀ x ∈ calls, ∀ y ∈ calls, x.counter = y.counter → x.plain = y.plain) ↔ Retried calls := by
  induction calls generalizing c with
  | nil => simp [Retried]
  | cons x calls ih =>
    have hle : sentCount calls ≤ sentCount (x :: calls) := by
      rw [sentCount, sentCount, List.countP_cons]
      exact Nat.le_add_right _ _
    specialize ih h.2.2 (hle.trans_lt hshort)
    rw [Retried, List.isChain_cons]
    constructor
    · intro hunique
      refine ⟨fun y hy hfailed => ?_, ih.1 fun y hy z hz => hunique y (.tail _ hy) z (.tail _ hz)⟩
      exact hunique y (.tail _ (List.mem_of_mem_head? hy)) x (.head _) (h.head_counter hfailed hy)
    · rintro ⟨hhead, hchain⟩
      have hrest := ih.2 hchain
      -- what is left is the first call against a later one
      have hfirst : ∀ y ∈ calls, y.counter = x.counter → y.plain = x.plain := by
        intro y hy heq
        by_cases hsent : x.delivery = .sent
        · exact absurd heq (h.counter_ne_of_sent hsent hshort hy)
        · obtain ⟨z, hz⟩ : ∃ z, z ∈ calls.head? := by
            cases calls with
            | nil => cases hy
            | cons z calls => exact ⟨z, rfl⟩
          have hzx := h.head_counter hsent hz
          rw [hrest y hy z (List.mem_of_mem_head? hz) (heq.trans hzx.symm), hhead z hz hsent]
      intro y hy z hz heq
      rcases List.mem_cons.1 hy with hyx | hyr <;> rcases List.mem_cons.1 hz with hzx | hzr
      · rw [hyx, hzx]
      · rw [hyx] at heq ⊢
        exact (hfirst z hzr heq.symm).symm
      · rw [hzx] at heq ⊢
        exact hfirst y hyr heq
      · exact hrest y hyr z hzr heq

/-- Only the last call of a `Write` can fail, and the first seals the first chunk. -/
theorem Conn.writeChunks_seals (aead : Aead) (c : Conn) (plains : List Bytes) (link : List Delivery) :
    ((c.writeChunks aead plains link).seals.IsChain fun x _ => x.delivery = .sent) ∧
      (c.writeChunks aead plains link).seals.head?.map SealCall.plain = plains.head? := by
  induction plains generalizing c link with
  | nil => exact ⟨List.IsChain.nil, rfl⟩
  | cons plain rest ih =>
    by_cases h : link.headD .sent = .sent
    · rw [writeChunks_sent aead c plain rest h]
      exact ⟨List.isChain_cons.2 ⟨fun _ _ => rfl, (ih _ _).1⟩, rfl⟩
    · obtain ⟨e, wire, heq⟩ := writeChunks_failed aead c plain rest h
      rw [heq]
      exact ⟨List.IsChain.singleton _, rfl⟩

/-! ## Runs of a session -/

/-- The session after a sequence of steps. -/
def Session.run (aead : Aead) (s : Session) (ops : List Op) : Session := ops.foldl (Session.step aead) s

/-- The chunk of the last frame of an end, if that frame failed. -/
def EndState.failedChunk (e : EndState) : Option Bytes :=
  e.seals.getLast?.bind fun c => if c.delivery = .sent then none else some c.plain

/-- A `Write` of some data that follows a failed one at the same end begins with the chunk that
failed. -/
def RepeatsFailed (s : Session) : Op → Prop
  | .write side data _ => data ≠ [] →
      ∀ chunk, (s side).failedChunk = some chunk → data.take maxChunkSize = chunk
  | _ => True

/-- Every `Write` of a run repeats what failed before it. -/
def RetriesRepeat (aead : Aead) : Session → List Op → Prop
  | _, [] => True
  | s, op :: ops => RepeatsFailed s op ∧ RetriesRepeat aead (s.step aead op) ops

/-- An end writes and reads in its directions, and its counter goes with its calls. -/
structure EndState.Counted (side : Side) (e : EndState) : Prop where
  writeDir : e.conn.writeDir = side.dir
  readDir : e.conn.readDir = side.other.dir
  numbered : Numbered side.dir 0 e.seals e.conn.writeCtr

theorem counted_start (side : Side) : (Session.start side).Counted side := by
  cases side <;> exact ⟨rfl, rfl, rfl⟩

/-- A step is a `Write` of an end, or it leaves the calls of that end and the writing side of its
connection alone. -/
theorem Session.step_cases (aead : Aead) (s : Session) (op : Op) (side : Side) :
    (∃ data link, op = .write side data link) ∨
      (∀ data link, op ≠ .write side data link) ∧ (s.step aead op side).seals = (s side).seals ∧
        ∃ counter buf, (s.step aead op side).conn =
          { (s side).conn with readCounter := counter, readBuf := buf } := by
  cases op with
  | write w data link =>
    rcases Side.eq_or_eq_other side w with rfl | rfl
    · exact .inl ⟨data, link, rfl⟩
    · refine .inr ⟨fun data' link' heq => ?_, ?_⟩
      · exact w.ne_other (Op.write.inj heq).1
      · rw [step_write_other]
        exact ⟨rfl, _, _, rfl⟩
  | read r size =>
    refine .inr ⟨fun _ _ heq => Op.noConfusion heq, ?_⟩
    rcases Side.eq_or_eq_other side r with rfl | rfl
    · rw [step_read_self]
      exact ⟨rfl, (s side).conn.read_frame aead (s side.other).inFlight size⟩
    · rw [step_read_other]
      exact ⟨rfl, _, _, rfl⟩
  | tamper t stream =>
    refine .inr ⟨fun _ _ heq => Op.noConfusion heq, ?_⟩
    rcases Side.eq_or_eq_other side t with rfl | rfl
    · rw [step_tamper_self]
      exact ⟨rfl, _, _, rfl⟩
    · rw [step_tamper_other]
      exact ⟨rfl, _, _, rfl⟩

/-- A step keeps the counter of an end in step with its calls. -/
theorem Session.step_counted (aead : Aead) (s : Session) (op : Op) (side : Side)
    (h : (s side).Counted side) : (s.step aead op side).Counted side := by
  rcases s.step_cases aead op side with ⟨data, link, rfl⟩ | ⟨-, hseals, counter, buf, hconn⟩
  · obtain ⟨hnum, hconn⟩ := (s side).conn.writeChunks_numbered aead (chunks maxChunkSize data) link
    rw [h.writeDir] at hnum
    rw [step_write_self, Conn.write, hconn]
    exact ⟨h.writeDir, h.readDir, h.numbered.append hnum⟩
  · refine ⟨?_, ?_, ?_⟩
    · rw [hconn]
      exact h.writeDir
    · rw [hconn]
      exact h.readDir
    · rw [hseals, hconn]
      exact h.numbered

theorem Session.run_counted (aead : Aead) {s : Session} (ops : List Op) (side : Side)
    (h : (s side).Counted side) : (s.run aead ops side).Counted side := by
  induction ops generalizing s with
  | nil => exact h
  | cons op ops ih => exact ih (s.step_counted aead op side h)

/-- The calls of an end only grow. -/
theorem Session.seals_isPrefix_step (aead : Aead) (s : Session) (op : Op) (side : Side) :
    (s side).seals <+: (s.step aead op side).seals := by
  rcases s.step_cases aead op side with ⟨data, link, rfl⟩ | ⟨-, hseals, -⟩
  · rw [step_write_self]
    exact List.prefix_append _ _
  · rw [hseals]

theorem Session.seals_isPrefix_run (aead : Aead) (s : Session) (ops : List Op) (side : Side) :
    (s side).seals <+: (s.run aead ops side).seals := by
  induction ops generalizing s with
  | nil => exact List.prefix_rfl
  | cons op ops ih => exact (s.seals_isPrefix_step aead op side).trans (ih _)

/-! ## Retries -/

theorem EndState.failedChunk_eq_some {e : EndState} {chunk : Bytes} :
    e.failedChunk = some chunk ↔ ∃ c ∈ e.seals.getLast?, c.delivery ≠ .sent ∧ c.plain = chunk := by
  simp only [failedChunk, Option.bind_eq_some_iff, Option.ite_none_left_eq_some, Option.some.injEq,
    Option.mem_def, ne_eq]

/-- The calls of a `Write` are retries of the one before them exactly when the data begins with the
chunk that failed. -/
theorem retried_write_iff (aead : Aead) {e : EndState} (h : Retried e.seals) (data : Bytes)
    (link : List Delivery) :
    Retried (e.seals ++ (e.conn.write aead data link).seals) ↔
      (data ≠ [] → ∀ chunk, e.failedChunk = some chunk → data.take maxChunkSize = chunk) := by
  obtain ⟨hsent, hhead⟩ := e.conn.writeChunks_seals aead (chunks maxChunkSize data) link
  have hnew : Retried (e.conn.write aead data link).seals :=
    hsent.imp fun _ _ hx hne => absurd hx hne
  have hjoin : Retried (e.seals ++ (e.conn.write aead data link).seals) ↔
      ∀ x ∈ e.seals.getLast?, ∀ y ∈ (e.conn.write aead data link).seals.head?,
        x.delivery ≠ .sent → y.plain = x.plain := by
    rw [Retried, List.isChain_append]
    exact ⟨fun hboth => hboth.2.2, fun hlast => ⟨h, hnew, hlast⟩⟩
  rw [hjoin]
  by_cases hdata : data = []
  · -- nothing is sealed
    rw [hdata, chunks_nil, List.head?_nil, Option.map_eq_none_iff] at hhead
    rw [Conn.write, hdata, chunks_nil, hhead]
    simp
  · rw [head_chunks (by decide) hdata, Option.map_eq_some_iff] at hhead
    obtain ⟨y, hy, hplain⟩ := hhead
    rw [Conn.write, hy]
    simp only [EndState.failedChunk_eq_some, Option.mem_some, hdata, ne_eq, not_false_eq_true,
      forall_const, forall_eq', hplain]
    constructor
    · rintro hjoin chunk ⟨x, hx, hfailed, rfl⟩
      exact hjoin x hx hfailed
    · intro hjoin x hx hfailed
      exact hjoin x.plain ⟨x, hx, hfailed, rfl⟩

/-- A step that starts from retried calls leads to retried calls exactly when it repeats what
failed. -/
theorem Session.step_retried_iff (aead : Aead) {s : Session} {op : Op}
    (h : ∀ side, Retried (s side).seals) :
    (∀ side, Retried (s.step aead op side).seals) ↔ RepeatsFailed s op := by
  constructor
  · intro hnext
    cases op with
    | write side data link =>
      have hside := hnext side
      rw [step_write_self] at hside
      exact (retried_write_iff aead (h side) data link).1 hside
    | read side size => trivial
    | tamper side stream => trivial
  · intro hrepeat side
    rcases s.step_cases aead op side with ⟨data, link, rfl⟩ | ⟨-, hseals, -⟩
    · rw [step_write_self]
      exact (retried_write_iff aead (h side) data link).2 hrepeat
    · rw [hseals]
      exact h side

theorem Session.run_retried_iff (aead : Aead) {s : Session} (ops : List Op)
    (h : ∀ side, Retried (s side).seals) :
    (∀ side, Retried (s.run aead ops side).seals) ↔ RetriesRepeat aead s ops := by
  induction ops generalizing s with
  | nil => exact iff_of_true h trivial
  | cons op ops ih =>
    constructor
    · intro hend
      -- the calls after the first step are among those at the end
      have hnext : ∀ side, Retried (s.step aead op side).seals := fun side =>
        List.IsChain.prefix (hend side) (seals_isPrefix_run aead (s.step aead op) ops side)
      exact ⟨(step_retried_iff aead h).1 hnext, (ih hnext).1 hend⟩
    · rintro ⟨hop, hops⟩
      exact (ih ((step_retried_iff aead h).2 hop)).2 hops

/-! ## Unique nonces -/

/-- Calls of `Seal` with one nonce seal one text. -/
def Session.NonceUnique (s : Session) : Prop :=
  ∀ a b, ∀ x ∈ (s a).seals, ∀ y ∈ (s b).seals, x.nonce = y.nonce → x.plain = y.plain

/-- The two ends never seal under a common nonce. -/
theorem Session.sides_apart {s : Session} (h : ∀ side, (s side).Counted side) {a b : Side}
    {x y : SealCall} (hx : x ∈ (s a).seals) (hy : y ∈ (s b).seals) (heq : x.nonce = y.nonce) :
    a = b ∧ x.counter = y.counter := by
  obtain ⟨hdir, hcounter⟩ := nonce_inj.1 heq
  have hxa := ((h a).numbered.counter_of_mem hx).1
  have hyb := ((h b).numbered.counter_of_mem hy).1
  exact ⟨Side.dir_injective (hxa.symm.trans (hdir.trans hyb)), hcounter⟩

/-- In no run do the two ends share a nonce. As long as no end sends 2^64 frames, no nonce is used for
two texts exactly when every `Write` after a failed one begins with the chunk that failed. -/
theorem nonces_unique_iff (aead : Aead) (ops : List Op) :
    (∀ a b, a ≠ b → ∀ x ∈ (Session.start.run aead ops a).seals,
      ∀ y ∈ (Session.start.run aead ops b).seals, x.nonce ≠ y.nonce) ∧
    ((∀ side, sentCount (Session.start.run aead ops side).seals < 2 ^ 64) →
      ((Session.start.run aead ops).NonceUnique ↔ RetriesRepeat aead Session.start ops)) := by
  have hcounted : ∀ side, (Session.start.run aead ops side).Counted side := fun side =>
    Session.run_counted aead ops side (counted_start side)
  refine ⟨fun a b hab x hx y hy heq => hab (Session.sides_apart hcounted hx hy heq).1, fun hshort => ?_⟩
  have hstart : ∀ side, Retried (Session.start side).seals := fun side => List.IsChain.nil
  rw [← Session.run_retried_iff aead ops hstart]
  constructor
  · intro hunique side
    refine ((hcounted side).numbered.plain_eq_iff_retried (hshort side)).1 fun x hx y hy heq => ?_
    refine hunique side side x hx y hy (nonce_inj.2 ⟨?_, heq⟩)
    exact ((hcounted side).numbered.counter_of_mem hx).1.trans
      ((hcounted side).numbered.counter_of_mem hy).1.symm
  · intro hretried a b x hx y hy heq
    obtain ⟨rfl, hcounter⟩ := Session.sides_apart hcounted hx hy heq
    exact ((hcounted a).numbered.plain_eq_iff_retried (hshort a)).2 (hretried a) x hx y hy hcounter

/-- The client writes the byte 1, the connection fails, and the client writes another byte. -/
def failedWriteRun (byte : UInt8) : List Op :=
  [.write .client [1] [.payloadFailed 3], .write .client [byte] []]

theorem seals_failedWriteRun (byte : UInt8) (side : Side) :
    (Session.start.run (tagAead 0) (failedWriteRun byte) side).seals =
      if side = .client then [⟨0, 0, [1], .payloadFailed 3⟩, ⟨0, 0, [byte], .sent⟩] else [] := by
  cases side <;>
    simp [failedWriteRun, Session.run, Session.step, Session.start, newConn, Conn.write, chunks,
      Conn.writeChunks, Delivery.write]

/-- Writing the same byte again is harmless. -/
theorem nonces_unique_after_retry : (Session.start.run (tagAead 0) (failedWriteRun 1)).NonceUnique := by
  refine ((nonces_unique_iff (tagAead 0) (failedWriteRun 1)).2 fun side => ?_).2 ?_
  · rw [seals_failedWriteRun]
    cases side <;> simp [sentCount]
  · simp [failedWriteRun, RetriesRepeat, RepeatsFailed, EndState.failedChunk, Session.step,
      Session.start, newConn, Conn.write, chunks, Conn.writeChunks, Delivery.write, maxChunkSize]

/-- Another byte is sealed under the nonce of the first. -/
theorem failed_nonce_used_again :
    ¬ (Session.start.run (tagAead 0) (failedWriteRun 2)).NonceUnique := by
  intro hunique
  have hsame := hunique .client .client
  rw [seals_failedWriteRun, if_pos rfl] at hsame
  exact absurd (hsame _ (.head _) _ (.tail _ (.head _)) rfl) (by decide)

end Vx6.Secure
