import Vx6.Go.Sort
import Vx6.Go.Text
import Vx6.Go.Time
import Vx6.Lib.Checks
import Vx6.Lib.Run

/-!
# Validation of hidden-service control messages

`validateControlMessage` accepts a message of the peer of a connection if its epoch is near the current
one, it is not in the table of replays, and the peer has not sent too much. An entry of the table
expires two epochs after the message arrived, and the oldest ones go when the table is full.

`control_accepted_once` says that no message is accepted twice in a run in which no message is stamped
ahead of the clock of the receiver and the table is never full; `ahead_message_replayed` replays one
that was.
-/

set_option autoImplicit false

namespace Vx6.Hidden

open Vx6.Go Vx6.Lib

/-! ## The source -/

/-- `hiddenControlEpochDuration`. -/
def hiddenControlEpochDuration : Duration := 30 * second

/-- `maxControlReplayEntries`. -/
def maxControlReplayEntries : Nat := 8192

/-- `hiddenControlActionWindow`. -/
def hiddenControlActionWindow : Duration := 30 * second

/-- `hiddenControlActionLimit`. -/
def hiddenControlActionLimit : Int := 96

/-- The fields of a `Message` that `validateControlMessage` reads. -/
structure Message where
  action : String := ""
  senderNodeID : String := ""
  epoch : Int := 0
  nonce : String := ""
  deriving DecidableEq, Repr

/-- `windowCounter`. -/
structure WindowCounter where
  windowStart : Time := zeroTime
  count : Int := 0
  deriving DecidableEq, Repr

/-- `controlReplays` and `hiddenRateCounters`. -/
structure ControlState where
  replays : Dict String Time := ∅
  counters : Dict String WindowCounter := ∅

/-- The errors of `validateControlMessage`. -/
inductive ControlError where
  | missingAction
  | missingEnvelope
  | senderMismatch (got want : String)
  | epochWindow
  | replay
  | rateLimited
  deriving DecidableEq, Repr

/-- `controlEpoch`. -/
def controlEpoch (now : Time) : Int :=
  let duration := if hiddenControlEpochDuration ≤ 0 then 30 * second else hiddenControlEpochDuration
  now.tdiv duration

/-- The key with the smallest expiry that the inner loop of `evictOldestControlReplaysLocked` ends with. -/
def oldestReplay (order : RangeOrder) (replays : Dict String Time) : Option String :=
  ((order.arrange replays.keys).foldl (fun acc key =>
    let expiresAt := (replays.lookup key).getD zeroTime
    match acc with
    | none => some (key, expiresAt)
    | some (oldestKey, oldestAt) =>
        if expiresAt < oldestAt then some (key, expiresAt) else some (oldestKey, oldestAt)) none).map (·.1)

/-- `evictOldestControlReplaysLocked`; every pass goes through the map in an order of its own. -/
def evictOldestControlReplays (orders : Nat → RangeOrder) : Nat → Dict String Time → Dict String Time
  | 0, replays => replays
  | n + 1, replays =>
      match oldestReplay (orders n) replays with
      | none => replays
      | some oldestKey => evictOldestControlReplays orders n (replays.erase oldestKey)

/-- The key of a message in the table of replays. -/
def replayKey (senderNodeID : String) (epoch : Int) (nonce : String) : String :=
  senderNodeID ++ "\n" ++ formatInt epoch ++ "\n" ++ nonce

/-- The entries that have not expired. -/
def liveReplays (replays : Dict String Time) (now : Time) : Dict String Time :=
  replays.filter fun _ expiresAt => now < expiresAt

/-- `rememberControlReplay`. -/
def rememberControlReplay (orders : Nat → RangeOrder) (replays : Dict String Time)
    (senderNodeID : String) (epoch : Int) (nonce : String) (now : Time) : Except ControlError Unit × Dict String Time :=
  let key := replayKey senderNodeID epoch nonce
  let live := liveReplays replays now
  match live.lookup key with
  | some _ => (.error .replay, live)
  | none =>
      let live' :=
        if maxControlReplayEntries ≤ live.entries.length then
          evictOldestControlReplays orders (live.entries.length - maxControlReplayEntries + 1) live
        else live
      (.ok (), live'.insert key (now + hiddenControlEpochDuration * 2))

/-- `allowHiddenAction`. -/
def allowHiddenAction (counters : Dict String WindowCounter) (actor action : String) (window : Duration)
    (limit : Int) (now : Time) : Bool × Dict String WindowCounter :=
  if actor = "" ∨ action = "" ∨ window ≤ 0 ∨ limit ≤ 0 then (true, counters)
  else
    let kept := counters.filter fun _ counter => decide (sub now counter.windowStart ≤ window * 2)
    let key := action ++ "\n" ++ actor
    let counter := (kept.lookup key).getD {}
    if isZero counter.windowStart ∨ window ≤ sub now counter.windowStart then
      (true, kept.insert key { windowStart := now, count := 1 })
    else if limit ≤ counter.count then (false, kept)
    else (true, kept.insert key { counter with count := counter.count + 1 })

/-- The clock is read three times during a call: for the epoch, for the replays and for the rate. -/
structure Clock where
  epochAt : Time
  replayAt : Time
  rateAt : Time
  deriving DecidableEq, Repr

/-- The checks of `validateControlMessage` before it touches the tables. -/
def checkEnvelope (peerID : String) (msg : Message) (now : Time) : Except ControlError Unit := do
  rejectIf (msg.action = "") .missingAction
  rejectIf (msg.senderNodeID = "" ∨ msg.epoch = 0 ∨ msg.nonce = "") .missingEnvelope
  rejectIf (msg.senderNodeID ≠ peerID) (.senderMismatch msg.senderNodeID peerID)
  -- both are int64, and neither is near its limits when the difference is in the window
  let delta := controlEpoch now - msg.epoch
  rejectIf (delta < -1 ∨ delta > 1) .epochWindow

/-- `validateControlMessage`; `peer` is the node ID of the peer, on a connection that has one. -/
def validateControlMessage (s : ControlState) (orders : Nat → RangeOrder) (peer : Option String)
    (msg : Message) (clock : Clock) : Except ControlError Unit × ControlState :=
  match peer with
  | none => (.ok (), s)
  | some peerID =>
      if peerID = "" then (.ok (), s)
      else
        match checkEnvelope peerID msg clock.epochAt with
        | .error e => (.error e, s)
        | .ok () =>
            match rememberControlReplay orders s.replays msg.senderNodeID msg.epoch msg.nonce
                clock.replayAt with
            | (.error e, replays) => (.error e, { s with replays := replays })
            | (.ok (), replays) =>
                let (allowed, counters) := allowHiddenAction s.counters ("node:" ++ msg.senderNodeID)
                  ("control:" ++ msg.action) hiddenControlActionWindow hiddenControlActionLimit
                    clock.rateAt
                (if allowed then .ok () else .error .rateLimited,
                  { replays := replays, counters := counters })

/-! ## Runs -/

/-- A call of `validateControlMessage` on a connection with a peer. -/
structure ControlCall where
  peerID : String
  msg : Message
  clock : Clock
  orders : Nat → RangeOrder := fun _ => .asStored

/-- What identifies a message. -/
structure MessageID where
  senderNodeID : String
  epoch : Int
  nonce : String
  deriving DecidableEq, Repr

/-- The ID of a message. -/
def Message.id (msg : Message) : MessageID := ⟨msg.senderNodeID, msg.epoch, msg.nonce⟩

/-- The key of a message ID in the table of replays. -/
def MessageID.key (id : MessageID) : String := replayKey id.senderNodeID id.epoch id.nonce

/-- A run of calls: the tables, the last time that was read, and the messages that were accepted. -/
structure ControlRun where
  state : ControlState := {}
  last : Time
  accepted : List MessageID := []

namespace ControlRun

/-- One call. -/
def step (r : ControlRun) (call : ControlCall) : Option ControlRun :=
  let (result, state) := validateControlMessage r.state call.orders (some call.peerID)
    call.msg call.clock
  some { state := state
         last := call.clock.rateAt
         accepted := match result with
           | .ok () => r.accepted ++ [call.msg.id]
           | .error _ => r.accepted }

/-- The connection is authenticated and the clock does not go back. -/
structure Ordered (r : ControlRun) (call : ControlCall) : Prop where
  peer : call.peerID ≠ ""
  epochAt : r.last ≤ call.clock.epochAt
  replayAt : call.clock.epochAt ≤ call.clock.replayAt
  rateAt : call.clock.replayAt ≤ call.clock.rateAt

/-- The message is not stamped ahead of the clock, the epoch does not change between the first two times
the clock is read, and there is room in the table. -/
structure Timely (r : ControlRun) (call : ControlCall) : Prop extends Ordered r call where
  behind : call.msg.epoch * hiddenControlEpochDuration ≤ call.clock.replayAt
  sameEpoch : controlEpoch call.clock.replayAt = controlEpoch call.clock.epochAt
  room : (liveReplays r.state.replays call.clock.replayAt).entries.length < maxControlReplayEntries

end ControlRun

/-! ## One call -/

theorem lookup_liveReplays (replays : Dict String Time) (now : Time) (key : String) :
    (liveReplays replays now).lookup key = (replays.lookup key).filter (now < ·) :=
  Dict.lookup_filter ..

/-- What a call on an authenticated connection can do to the table of replays. It stays as it is; or it
loses its expired entries, one of those that are left being the message; or the message gets a new entry
and its epoch is at most one behind. -/
theorem validateControlMessage_cases (s : ControlState) {peerID : String} (hpeer : peerID ≠ "")
    (orders : Nat → RangeOrder) (msg : Message) (clock : Clock)
    (hroom : (liveReplays s.replays clock.replayAt).entries.length < maxControlReplayEntries) :
    (∃ e, validateControlMessage s orders (some peerID) msg clock = (.error e, s)) ∨
    (∃ e expiresAt, (liveReplays s.replays clock.replayAt).lookup msg.id.key = some expiresAt ∧
      validateControlMessage s orders (some peerID) msg clock =
        (.error e, { s with replays := liveReplays s.replays clock.replayAt })) ∨
    (∃ result counters, (liveReplays s.replays clock.replayAt).lookup msg.id.key = none ∧
      controlEpoch clock.epochAt ≤ msg.epoch + 1 ∧
      validateControlMessage s orders (some peerID) msg clock =
        (result, { replays := (liveReplays s.replays clock.replayAt).insert msg.id.key
                     (clock.replayAt + hiddenControlEpochDuration * 2)
                   counters := counters })) := by
  simp only [validateControlMessage, if_neg hpeer]
  cases hcheck : checkEnvelope peerID msg clock.epochAt with
  | error e => exact .inl ⟨e, rfl⟩
  | ok _ =>
    right
    have hwindow : controlEpoch clock.epochAt ≤ msg.epoch + 1 := by
      simp only [checkEnvelope, bind_eq_ok, rejectIf_eq_ok, exists_const] at hcheck
      have hdelta := of_decide_eq_false hcheck.2.2.2
      omega
    cases hlookup : (liveReplays s.replays clock.replayAt).lookup msg.id.key with
    | some expiresAt =>
      have hremember : rememberControlReplay orders s.replays msg.senderNodeID msg.epoch msg.nonce
          clock.replayAt = (.error .replay, liveReplays s.replays clock.replayAt) := by
        simp only [rememberControlReplay]
        rw [show replayKey msg.senderNodeID msg.epoch msg.nonce = msg.id.key from rfl, hlookup]
      left
      exact ⟨.replay, expiresAt, rfl, by rw [hremember]⟩
    | none =>
      have hremember : rememberControlReplay orders s.replays msg.senderNodeID msg.epoch msg.nonce
          clock.replayAt = (.ok (), (liveReplays s.replays clock.replayAt).insert msg.id.key
            (clock.replayAt + hiddenControlEpochDuration * 2)) := by
        simp only [rememberControlReplay]
        rw [show replayKey msg.senderNodeID msg.epoch msg.nonce = msg.id.key from rfl, hlookup]
        simp only [if_neg (Nat.not_le.2 hroom)]
      right
      exact ⟨_, _, rfl, hwindow, by rw [hremember]⟩

/-! ## At most once -/

/-- The time at which no receiver accepts a message any longer. -/
def MessageID.deadline (id : MessageID) : Time := (id.epoch + 2) * hiddenControlEpochDuration

/-- A time lies before the end of its epoch. -/
theorem lt_of_controlEpoch_le {now : Time} {epoch : Int} (h : controlEpoch now ≤ epoch) :
    now < (epoch + 1) * hiddenControlEpochDuration := by
  have hpos : 0 < hiddenControlEpochDuration := by decide
  rw [controlEpoch, if_neg (not_le.2 hpos)] at h
  calc now < (now.tdiv hiddenControlEpochDuration + 1) * hiddenControlEpochDuration :=
        Int.lt_tdiv_add_one_mul_self now hpos
    _ ≤ (epoch + 1) * hiddenControlEpochDuration :=
        Int.mul_le_mul_of_nonneg_right (Int.add_le_add_right h 1) hpos.le

namespace ControlRun

/-- The table still holds every accepted message until its deadline. -/
structure Remembers (r : ControlRun) : Prop where
  nodup : r.accepted.Nodup
  kept : ∀ id ∈ r.accepted, id.deadline ≤ r.last ∨
    ∃ expiresAt, r.state.replays.lookup id.key = some expiresAt ∧ id.deadline ≤ expiresAt

/-- An entry is live or past the deadline of its message. -/
theorem Remembers.live {r : ControlRun} (h : r.Remembers) {now : Time} (hnow : r.last ≤ now)
    {id : MessageID} (hid : id ∈ r.accepted) : id.deadline ≤ now ∨
    ∃ expiresAt, (liveReplays r.state.replays now).lookup id.key = some expiresAt ∧
      id.deadline ≤ expiresAt := by
  rcases h.kept id hid with hpast | ⟨expiresAt, hlookup, hdeadline⟩
  · exact .inl (le_trans hpast hnow)
  · rcases lt_or_ge now expiresAt with hlive | hexpired
    · refine .inr ⟨expiresAt, ?_, hdeadline⟩
      rw [lookup_liveReplays, hlookup]
      simp [hlive]
    · exact .inl (le_trans hdeadline hexpired)

/-- A timely call keeps the accepted messages distinct and in the table. -/
theorem Remembers.step {r r' : ControlRun} {call : ControlCall} (h : r.Remembers)
    (hok : r.Timely call) (hstep : r.step call = some r') : r'.Remembers := by
  have hlast : r.last ≤ call.clock.replayAt := hok.epochAt.trans hok.replayAt
  have hrate : call.clock.replayAt ≤ call.clock.rateAt := hok.rateAt
  rcases validateControlMessage_cases r.state hok.peer call.orders call.msg call.clock hok.room with
    ⟨e, hvalidate⟩ | ⟨e, expiresAt, -, hvalidate⟩ | ⟨result, counters, hfresh, hwindow, hvalidate⟩
  · simp only [ControlRun.step, hvalidate, Option.some.injEq] at hstep
    subst hstep
    exact ⟨h.nodup, fun id hid => (h.kept id hid).imp_left fun hpast =>
      hpast.trans (hlast.trans hrate)⟩
  · simp only [ControlRun.step, hvalidate, Option.some.injEq] at hstep
    subst hstep
    exact ⟨h.nodup, fun id hid => (h.live hlast hid).imp_left fun hpast => hpast.trans hrate⟩
  · -- the message is new to the table, and its deadline is still ahead
    have hbefore : call.clock.replayAt < call.msg.id.deadline := by
      have hepoch : controlEpoch call.clock.replayAt ≤ call.msg.epoch + 1 := hok.sameEpoch ▸ hwindow
      have hlt := lt_of_controlEpoch_le hepoch
      rwa [Int.add_assoc] at hlt
    have hnew : call.msg.id ∉ r.accepted := by
      intro hid
      rcases h.live hlast hid with hpast | ⟨expiresAt, hlookup, -⟩
      · exact absurd hbefore (not_lt.2 hpast)
      · rw [hfresh] at hlookup
        cases hlookup
    have hexpiry : call.msg.id.deadline ≤ call.clock.replayAt + hiddenControlEpochDuration * 2 := by
      have hbehind := hok.behind
      show (call.msg.epoch + 2) * hiddenControlEpochDuration ≤ _
      rw [Int.add_mul, Int.mul_comm 2]
      exact Int.add_le_add_right hbehind _
    -- the entries of the other messages stay
    have hkept : ∀ id ∈ r.accepted, id.deadline ≤ call.clock.rateAt ∨ ∃ expiresAt,
        ((liveReplays r.state.replays call.clock.replayAt).insert call.msg.id.key
          (call.clock.replayAt + hiddenControlEpochDuration * 2)).lookup id.key = some expiresAt ∧
          id.deadline ≤ expiresAt := by
      intro id hid
      refine (h.live hlast hid).imp (fun hpast => hpast.trans hrate) ?_
      rintro ⟨expiresAt, hlookup, hdeadline⟩
      refine ⟨expiresAt, ?_, hdeadline⟩
      rw [Dict.lookup_insert_eq, if_neg, hlookup]
      intro hkey
      rw [hkey, hfresh] at hlookup
      cases hlookup
    simp only [ControlRun.step, hvalidate, Option.some.injEq] at hstep
    subst hstep
    cases result with
    | error e => exact ⟨h.nodup, hkept⟩
    | ok _ =>
      refine ⟨?_, fun id hid => ?_⟩
      · exact h.nodup.append (List.nodup_singleton _) (by simpa using hnew)
      · rcases List.mem_append.1 hid with hid | hid
        · exact hkept id hid
        · rw [List.mem_singleton.1 hid]
          exact .inr ⟨_, by rw [Dict.lookup_insert_eq, if_pos rfl], hexpiry⟩

/-- Before the first call. -/
def start (now : Time) : ControlRun := { last := now }

end ControlRun

/-- In every run of timely calls no message is accepted twice. -/
theorem control_accepted_once {now : Time} {r : ControlRun}
    (hrun : Reach ControlRun.step ControlRun.Timely (ControlRun.start now) r) : r.accepted.Nodup := by
  have hpreserved : ∀ r call r', ControlRun.Remembers r → r.Timely call → r.step call = some r' →
      r'.Remembers := fun _ _ _ h hok hstep => h.step hok hstep
  exact (Reach.invariant hpreserved hrun ⟨List.nodup_nil, fun _ h => absurd h List.not_mem_nil⟩).nodup

/-- A message of epoch 100, on the connection of its sender, with all times the same. -/
def callAt (now : Time) : ControlCall :=
  { peerID := "node-a"
    msg := { action := "intro_request", senderNodeID := "node-a", epoch := 100, nonce := "n" }
    clock := ⟨now, now, now⟩ }

theorem ordered_callAt {r : ControlRun} {now : Time} (h : r.last ≤ now) : r.Ordered (callAt now) :=
  ⟨show "node-a" ≠ "" by decide, h, le_refl now, le_refl now⟩

/-- A message is accepted at the start of its epoch and refused 30 s later. -/
theorem control_accepted_once_replay_refused :
    ∃ r r', Reach ControlRun.step ControlRun.Timely (ControlRun.start 0) r ∧
      r.step (callAt (101 * hiddenControlEpochDuration)) = some r' ∧
      Reach ControlRun.step ControlRun.Timely (ControlRun.start 0) r' ∧
      r.accepted = [⟨"node-a", 100, "n"⟩] ∧ r'.accepted = r.accepted ∧ r'.accepted.Nodup := by
  have hfirst : (ControlRun.start 0).Timely (callAt (100 * hiddenControlEpochDuration)) :=
    ⟨ordered_callAt (by decide), by decide, rfl, by decide⟩
  obtain ⟨r, r', hstep, hreplay, hlast, hlive, haccepted, hrefused⟩ : ∃ r r', (ControlRun.start 0).step
      (callAt (100 * hiddenControlEpochDuration)) = some r ∧
      r.step (callAt (101 * hiddenControlEpochDuration)) = some r' ∧
      r.last = 100 * hiddenControlEpochDuration ∧
      (liveReplays r.state.replays (101 * hiddenControlEpochDuration)).entries.length = 1 ∧
      r.accepted = [⟨"node-a", 100, "n"⟩] ∧ r'.accepted = [⟨"node-a", 100, "n"⟩] :=
    ⟨_, _, rfl, rfl, rfl, by decide, by decide, by decide⟩
  have hsecond : r.Timely (callAt (101 * hiddenControlEpochDuration)) :=
    ⟨ordered_callAt (by rw [hlast]; decide), by decide, rfl, by
      show (liveReplays r.state.replays (101 * hiddenControlEpochDuration)).entries.length < _
      rw [hlive]
      decide⟩
  have hrun := Relation.ReflTransGen.single (r := Step ControlRun.step ControlRun.Timely)
    ⟨_, hfirst, hstep⟩
  have hrun' := hrun.tail ⟨_, hsecond, hreplay⟩
  exact ⟨r, r', hrun, hreplay, hrun', haccepted, hrefused.trans haccepted.symm,
    control_accepted_once hrun'⟩

/-- The sender is one epoch ahead. Its message of epoch 100 arrives at the start of epoch 99 and is
accepted; at the start of epoch 101 its entry has expired, and it is accepted again. -/
theorem ahead_message_replayed :
    ∃ r, Reach ControlRun.step ControlRun.Ordered (ControlRun.start 0) r ∧
      r.accepted = [⟨"node-a", 100, "n"⟩, ⟨"node-a", 100, "n"⟩] := by
  obtain ⟨r, r', hfirst, hsecond, hlast, haccepted⟩ : ∃ r r', (ControlRun.start 0).step
      (callAt (99 * hiddenControlEpochDuration)) = some r ∧
      r.step (callAt (101 * hiddenControlEpochDuration)) = some r' ∧
      r.last = 99 * hiddenControlEpochDuration ∧
      r'.accepted = [⟨"node-a", 100, "n"⟩, ⟨"node-a", 100, "n"⟩] := ⟨_, _, rfl, rfl, rfl, by decide⟩
  have hlater : r.last ≤ 101 * hiddenControlEpochDuration := by
    rw [hlast]
    decide
  exact ⟨r', .head ⟨_, ordered_callAt (by decide), hfirst⟩
    (.single ⟨_, ordered_callAt hlater, hsecond⟩), haccepted⟩

end Vx6.Hidden
