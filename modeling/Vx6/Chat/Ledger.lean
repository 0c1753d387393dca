import Vx6.Record.Json
import Vx6.Lib.Run

/-!
# The ledger of a conversation

`PublishEnvelope` of `sdk/chat/client.go`. Both parties keep their messages in one ledger under one
key of the DHT. A call reads the ledger, adds its envelope and puts the ledger back, with nothing
that holds other calls off between the two. A read that fails counts as an empty ledger. The DHT holds
what a call put, so only texts that `json.Marshal` wrote are decoded.

If every call puts its ledger while the DHT still holds what the call read, then the ledger has
every envelope once (`ledger_complete`). Otherwise a call that returned `nil` may have removed the
envelopes of others.
-/

set_option autoImplicit false

namespace Vx6.Chat

open Vx6.Go Vx6.Lib Vx6.Record

/-! ## Envelopes and ledgers -/

/-- `Envelope` with all its fields. -/
structure WireEnvelope where
  version : Int64 := 0
  id : String := ""
  type : String := ""
  seq : UInt64 := 0
  ackFor : String := ""
  mediaName : String := ""
  mediaSize : Int64 := 0
  mediaSHA : String := ""
  groupID : String := ""
  fromNode : String := ""
  toNode : String := ""
  createdAt : String := ""
  nonce : String := ""
  cipher : String := ""
  deriving DecidableEq

/-- `Ledger`. -/
structure Ledger where
  pairKey : String := ""
  updatedAt : String := ""
  messages : List WireEnvelope := []

/-- The members of an envelope. -/
def envelopeMembers (env : WireEnvelope) : List (String × String) :=
  [("version", formatInt env.version.toInt), ("id", jsonString env.id), ("type", jsonString env.type)] ++
  omitEmpty (env.seq = 0) ("seq", jsonNat env.seq.toNat) ++
  omitEmpty (env.ackFor = "") ("ack_for", jsonString env.ackFor) ++
  omitEmpty (env.mediaName = "") ("media_name", jsonString env.mediaName) ++
  omitEmpty (env.mediaSize = 0) ("media_size", formatInt env.mediaSize.toInt) ++
  omitEmpty (env.mediaSHA = "") ("media_sha", jsonString env.mediaSHA) ++
  omitEmpty (env.groupID = "") ("group_id", jsonString env.groupID) ++
  [("from", jsonString env.fromNode), ("to", jsonString env.toNode),
    ("created_at", jsonString env.createdAt),
   ("nonce", jsonString env.nonce), ("cipher", jsonString env.cipher)]

/-- `json.Marshal` of an envelope. -/
def marshalEnvelope (env : WireEnvelope) : String := jsonObject (envelopeMembers env)

/-- A number of 64 bits with a sign. -/
def readInt64 (text : String) : Option Int64 := (readInt text).map Int64.ofInt

/-- `json.Unmarshal` into an envelope, on a text that `json.Marshal` wrote. -/
def unmarshalEnvelope (text : String) : Option WireEnvelope := do
  let members ← readObject text
  return {
    version := ← readField readInt64 0 members "version"
    id := ← stringField members "id"
    type := ← stringField members "type"
    seq := UInt64.ofNat (← readField (readBelow UInt64.size) 0 members "seq")
    ackFor := ← stringField members "ack_for"
    mediaName := ← stringField members "media_name"
    mediaSize := ← readField readInt64 0 members "media_size"
    mediaSHA := ← stringField members "media_sha"
    groupID := ← stringField members "group_id"
    fromNode := ← stringField members "from"
    toNode := ← stringField members "to"
    createdAt := ← stringField members "created_at"
    nonce := ← stringField members "nonce"
    cipher := ← stringField members "cipher" }

/-- The members of a ledger. -/
def ledgerMembers (ledger : Ledger) : List (String × String) :=
  [("pair_key", jsonString ledger.pairKey), ("updated_at", jsonString ledger.updatedAt),
   ("messages", jsonList marshalEnvelope ledger.messages)]

/-- `json.Marshal` of a ledger. -/
def marshalLedger (ledger : Ledger) : String := jsonObject (ledgerMembers ledger)

/-- `json.Unmarshal` into a ledger, on a text that `json.Marshal` wrote. -/
def unmarshalLedger (text : String) : Option Ledger := do
  let members ← readObject text
  return {
    pairKey := ← stringField members "pair_key"
    updatedAt := ← stringField members "updated_at"
    messages := ← readField (readList unmarshalEnvelope) [] members "messages" }

/-! ## Publishing -/

/-- `PairKey`. -/
def pairKey (a b : String) : String :=
  if a ≤ b then "vx6chat/conv/" ++ a ++ "/" ++ b else "vx6chat/conv/" ++ b ++ "/" ++ a

/-- The ledger that a call works on: what it decodes from what `DHTGet` returned, if that did not fail. -/
def ledgerOf (seen : Option Bytes) : Ledger :=
  match seen with
  | none => {}
  | some raw => ((textOf raw).bind unmarshalLedger).getD {}

/-- The latest 800 messages. -/
def latest {α : Type} (messages : List α) : List α :=
  if 800 < messages.length then messages.drop (messages.length - 800) else messages

/-- `PublishEnvelope` between `DHTGet` and `DHTPut`: the ledger to put, unless the message is there
already. -/
def publishLedger (key : String) (seen : Option Bytes) (env : WireEnvelope) (now : Time) : Option Ledger :=
  let ledger := ledgerOf seen
  if ledger.messages.any fun existing => existing.id = env.id then none
  else some {
    pairKey := key
    updatedAt := formatRFC3339 now
    messages := latest (ledger.messages ++ [env]) }

/-! ## Interleavings -/

/-- A call between `DHTGet` and `DHTPut`. -/
structure Call where
  key : String
  env : WireEnvelope
  /-- What `DHTGet` returned; nothing if it failed. -/
  seen : Option Bytes
  next : Ledger

/-- The DHT with the calls in flight, the envelopes of all calls so far and those that were put, in
order. -/
structure Conversation where
  dht : String → Option Bytes := fun _ => none
  inFlight : List Call := []
  started : List WireEnvelope := []
  published : List WireEnvelope := []

/-- A call begins with its `DHTGet`, which may fail, and ends with its `DHTPut`. -/
inductive Action where
  | get (self contact : String) (env : WireEnvelope) (fails : Bool) (now : Time)
  | put (call : Nat)

/-- One action. -/
def step (s : Conversation) : Action → Option Conversation
  | .get self contact env fails now =>
    let key := pairKey self contact
    let seen := if fails then none else s.dht key
    match publishLedger key seen env now with
    | none => some { s with started := s.started ++ [env] }
    | some next =>
      some { s with inFlight := s.inFlight ++ [⟨key, env, seen, next⟩], started := s.started ++ [env] }
  | .put call =>
    match s.inFlight[call]? with
    | none => none
    | some c =>
      some { s with
        dht := Function.update s.dht c.key (some (bytes (marshalLedger c.next)))
        inFlight := s.inFlight.eraseIdx call
        published := s.published ++ [c.env] }

/-- The calls are those of the two parties, an ID belongs to one envelope, which may be published again,
and a call puts its ledger while the DHT holds what the call read. -/
def Undisturbed (a b : String) (s : Conversation) : Action → Prop
  | .get self contact env _ _ =>
    (self = a ∧ contact = b ∨ self = b ∧ contact = a) ∧ ∀ other ∈ s.started, other.id = env.id → other = env
  | .put call => ∀ c ∈ s.inFlight[call]?, s.dht c.key = c.seen

/-! ## Reading back -/

theorem readInt64_formatInt (n : Int64) : readInt64 (formatInt n.toInt) = some n := by
  rw [readInt64, readInt_formatInt n.le_toInt n.toInt_lt, Option.map_some, Int64.ofInt_toInt]

theorem closed_envelopeMembers (env : WireEnvelope) : ∀ m ∈ envelopeMembers env, Closed m.2.toList := by
  simp only [envelopeMembers, List.forall_mem_append, List.forall_mem_cons, closed_jsonString,
    closed_formatInt,
    true_and]
  have hnil : ∀ m ∈ ([] : List (String × String)), Closed m.2.toList :=
    fun m hm => absurd hm List.not_mem_nil
  exact ⟨⟨⟨⟨⟨⟨⟨hnil, closed_omitEmpty _ _ (closed_jsonNat _)⟩, closed_omitEmpty _ _ (closed_jsonString _)⟩,
    closed_omitEmpty _ _ (closed_jsonString _)⟩, closed_omitEmpty _ _ (closed_formatInt _)⟩,
    closed_omitEmpty _ _ (closed_jsonString _)⟩, closed_omitEmpty _ _ (closed_jsonString _)⟩, hnil⟩

/-- The members that are always written. -/
theorem fixed_envelopeMembers (env : WireEnvelope) :
    readField readInt64 0 (envelopeMembers env) "version" = some env.version ∧
      stringField (envelopeMembers env) "id" = some env.id ∧
      stringField (envelopeMembers env) "type" = some env.type ∧
      stringField (envelopeMembers env) "from" = some env.fromNode ∧
      stringField (envelopeMembers env) "to" = some env.toNode ∧
      stringField (envelopeMembers env) "created_at" = some env.createdAt ∧
      stringField (envelopeMembers env) "nonce" = some env.nonce ∧
      stringField (envelopeMembers env) "cipher" = some env.cipher := by
  refine ⟨readField_of_some ?_ (readInt64_formatInt _), stringField_of_some ?_, stringField_of_some ?_,
    stringField_of_some ?_, stringField_of_some ?_, stringField_of_some ?_, stringField_of_some ?_,
    stringField_of_some ?_⟩
  all_goals simp [envelopeMembers, lookupMember_append, lookupMember_omitEmpty, lookupMember]

/-- The members that are left out when they are empty. -/
theorem omitted_envelopeMembers (env : WireEnvelope) :
    readField (readBelow UInt64.size) 0 (envelopeMembers env) "seq" = some env.seq.toNat ∧
      stringField (envelopeMembers env) "ack_for" = some env.ackFor ∧
      stringField (envelopeMembers env) "media_name" = some env.mediaName ∧
      readField readInt64 0 (envelopeMembers env) "media_size" = some env.mediaSize ∧
      stringField (envelopeMembers env) "media_sha" = some env.mediaSHA ∧
      stringField (envelopeMembers env) "group_id" = some env.groupID := by
  refine ⟨readField_of_omitEmpty (decide (env.seq = 0)) ?_ (readBelow_jsonNat env.seq.toNat_lt) ?_,
    stringField_of_omitEmpty ?_, stringField_of_omitEmpty ?_,
    readField_of_omitEmpty _ ?_ (readInt64_formatInt _) of_decide_eq_true, stringField_of_omitEmpty ?_,
    stringField_of_omitEmpty ?_⟩
  · simp [envelopeMembers, lookupMember_append, lookupMember_omitEmpty, lookupMember]
  · exact fun h => congrArg UInt64.toNat (of_decide_eq_true h)
  all_goals simp [envelopeMembers, lookupMember_append, lookupMember_omitEmpty, lookupMember]

/-- An envelope is read back as it was written. -/
theorem unmarshalEnvelope_marshal (env : WireEnvelope) :
    unmarshalEnvelope (marshalEnvelope env) = some env := by
  obtain ⟨hversion, hid, htype, hfrom, hto, hcreated, hnonce, hcipher⟩ := fixed_envelopeMembers env
  obtain ⟨hseq, hack, hname, hsize, hsha, hgroup⟩ := omitted_envelopeMembers env
  rw [unmarshalEnvelope, marshalEnvelope]
  refine bind_of_some (readObject_jsonObject (closed_envelopeMembers env)) ?_
  refine bind_of_some hversion (bind_of_some hid (bind_of_some htype (bind_of_some hseq ?_)))
  refine bind_of_some hack (bind_of_some hname (bind_of_some hsize (bind_of_some hsha ?_)))
  refine bind_of_some hgroup (bind_of_some hfrom (bind_of_some hto (bind_of_some hcreated ?_)))
  refine bind_of_some hnonce (bind_of_some hcipher ?_)
  rw [UInt64.ofNat_toNat]
  rfl

theorem closed_marshalEnvelope (env : WireEnvelope) : Closed (marshalEnvelope env).toList :=
  closed_jsonObject (closed_envelopeMembers env)

theorem marshalEnvelope_ne_empty (env : WireEnvelope) : marshalEnvelope env ≠ "" := by
  intro h
  have hread := unmarshalEnvelope_marshal env
  rw [h] at hread
  cases hread

/-- A ledger is read back as it was written. -/
theorem unmarshalLedger_marshal (ledger : Ledger) :
    unmarshalLedger (marshalLedger ledger) = some ledger := by
  have hclosed : ∀ m ∈ ledgerMembers ledger, Closed m.2.toList := by
    simp only [ledgerMembers, List.forall_mem_cons, closed_jsonString,
      closed_jsonList closed_marshalEnvelope, true_and]
    exact fun m hm => absurd hm List.not_mem_nil
  have hmessages := readList_jsonList unmarshalEnvelope_marshal closed_marshalEnvelope
    marshalEnvelope_ne_empty
    ledger.messages
  refine bind_of_some (readObject_jsonObject hclosed) (bind_of_some (stringField_of_some rfl) ?_)
  exact bind_of_some (stringField_of_some rfl) (bind_of_some (readField_of_some rfl hmessages) rfl)

/-- What a call put is what the next one works on. -/
theorem ledgerOf_marshal (ledger : Ledger) : ledgerOf (some (bytes (marshalLedger ledger))) = ledger := by
  rw [ledgerOf, textOf_bytes, Option.bind_some, unmarshalLedger_marshal]
  rfl

/-! ## The latest messages -/

section Latest

variable {α : Type}

theorem latest_eq (l : List α) : latest l = l.drop (l.length - 800) := by
  rw [latest]
  split_ifs with h
  · rfl
  · rw [show l.length - 800 = 0 by omega, List.drop_zero]

/-- Only the latest messages are needed to add one more. -/
theorem latest_latest_append (l : List α) (a : α) : latest (latest l ++ [a]) = latest (l ++ [a]) := by
  rw [latest_eq l, latest_eq, latest_eq]
  have hshort : l.length - 800 ≤ l.length := by omega
  have hsplit : l.drop (l.length - 800) ++ [a] = (l ++ [a]).drop (l.length - 800) :=
    (List.drop_append_of_le_length hshort).symm
  rw [hsplit, List.drop_drop, List.length_drop, List.length_append, List.length_singleton]
  exact congrArg (fun n => (l ++ [a]).drop n) (by omega)

theorem latest_sublist (l : List α) : (latest l).Sublist l := by
  rw [latest_eq]
  exact List.drop_sublist _ _

end Latest

/-! ## Runs -/

theorem pairKey_comm (a b : String) : pairKey a b = pairKey b a := by
  rw [pairKey, pairKey]
  by_cases hab : a ≤ b
  · rw [if_pos hab]
    split_ifs with hba
    · rw [String.le_antisymm hab hba]
    · rfl
  · rw [if_neg hab, if_pos ((String.le_total a b).resolve_left hab)]

/-- The messages that the DHT holds. -/
def Conversation.messages (s : Conversation) (a b : String) : List WireEnvelope :=
  (ledgerOf (s.dht (pairKey a b))).messages

/-- A call whose message is not there yet goes on to its `DHTPut`. -/
theorem step_get {s : Conversation} {self contact key : String} {env : WireEnvelope} {fails : Bool}
    {now : Time}
    {next : Ledger} (hkey : pairKey self contact = key)
    (h : publishLedger key (if fails then none else s.dht key) env now = some next) :
    step s (.get self contact env fails now) = some { s with
      inFlight := s.inFlight ++ [⟨key, env, if fails then none else s.dht key, next⟩]
      started := s.started ++ [env] } := by
  simp only [step, hkey, h]

/-- A call whose message is there returns at once. -/
theorem step_get_again {s : Conversation} {self contact key : String} {env : WireEnvelope} {fails : Bool}
    {now : Time} (hkey : pairKey self contact = key)
    (h : publishLedger key (if fails then none else s.dht key) env now = none) :
    step s (.get self contact env fails now) = some { s with started := s.started ++ [env] } := by
  simp only [step, hkey, h]

/-- The ledger to put has the message after those that were read, unless it is among them. -/
theorem publishLedger_cases (key : String) (seen : Option Bytes) (env : WireEnvelope) (now : Time) :
    (publishLedger key seen env now = none ∧ ∃ existing ∈ (ledgerOf seen).messages, existing.id = env.id) ∨
    (publishLedger key seen env now =
        some ⟨key, formatRFC3339 now, latest ((ledgerOf seen).messages ++ [env])⟩ ∧
      env.id ∉ (ledgerOf seen).messages.map WireEnvelope.id) := by
  rw [publishLedger]
  split_ifs with hany
  · obtain ⟨existing, hmem, hid⟩ := List.any_eq_true.1 hany
    exact .inl ⟨rfl, existing, hmem, of_decide_eq_true hid⟩
  · refine .inr ⟨rfl, fun hmem => hany ?_⟩
    obtain ⟨existing, hmem, hid⟩ := List.mem_map.1 hmem
    exact List.any_eq_true.2 ⟨existing, hmem, decide_eq_true hid⟩

/-- The DHT holds the latest messages that were put, each once, each call in flight adds an envelope to what
it read, and every envelope was put or is in flight. -/
structure Tracked (a b : String) (s : Conversation) : Prop where
  stored : s.messages a b = latest s.published
  calls : ∀ c ∈ s.inFlight, c.key = pairKey a b ∧
    c.next.messages = latest ((ledgerOf c.seen).messages ++ [c.env]) ∧
    c.env.id ∉ (ledgerOf c.seen).messages.map WireEnvelope.id
  subperm : (s.published ++ s.inFlight.map Call.env).Subperm s.started
  covered : ∀ env ∈ s.started, env ∈ s.published ++ s.inFlight.map Call.env
  nodup : ((latest s.published).map WireEnvelope.id).Nodup

section Runs

variable {a b : String} {s t : Conversation}

theorem tracked_start : Tracked a b {} where
  stored := rfl
  calls := fun _ hc => absurd hc List.not_mem_nil
  subperm := .refl _
  covered := fun _ henv => absurd henv List.not_mem_nil
  nodup := List.nodup_nil

/-- A message that a call finds in what it read was put. -/
theorem Tracked.mem_published (h : Tracked a b s) {existing : WireEnvelope} {fails : Bool}
    (hmem : existing ∈ (ledgerOf (if fails then none else s.dht (pairKey a b))).messages) :
    existing ∈ s.published := by
  cases fails with
  | true => cases hmem
  | false =>
    have hlatest : existing ∈ latest s.published := h.stored ▸ hmem
    exact (latest_sublist s.published).subset hlatest

theorem Tracked.get (h : Tracked a b s) {self contact : String} {env : WireEnvelope} {fails : Bool}
    {now : Time}
    (hok : Undisturbed a b s (.get self contact env fails now))
    (hstep : step s (.get self contact env fails now) = some t) :
    Tracked a b t := by
  obtain ⟨hparties, hone⟩ := hok
  have hkey : pairKey self contact = pairKey a b := by
    rcases hparties with ⟨rfl, rfl⟩ | ⟨rfl, rfl⟩
    · rfl
    · exact pairKey_comm _ _
  rcases publishLedger_cases (pairKey a b) (if fails then none else s.dht (pairKey a b)) env now with
    ⟨hpublish, existing, hmem, hid⟩ | ⟨hpublish, hnew⟩
  · rw [step_get_again hkey hpublish, Option.some.injEq] at hstep
    subst hstep
    -- the message with this ID is the envelope itself, and was put before
    have hpublished := h.mem_published hmem
    have hstarted := h.subperm.subset (List.mem_append_left _ hpublished)
    obtain rfl := hone existing hstarted hid
    refine ⟨h.stored, h.calls, h.subperm.trans (List.sublist_append_left _ _).subperm, ?_, h.nodup⟩
    rw [List.forall_mem_append, List.forall_mem_singleton]
    exact ⟨h.covered, List.mem_append_left _ hpublished⟩
  · rw [step_get hkey hpublish, Option.some.injEq] at hstep
    subst hstep
    refine ⟨h.stored, ?_, ?_, ?_, h.nodup⟩
    · rw [List.forall_mem_append, List.forall_mem_singleton]
      exact ⟨h.calls, rfl, rfl, hnew⟩
    · rw [List.map_append, ← List.append_assoc]
      exact (List.subperm_append_right [env]).2 h.subperm
    · rw [List.map_append, ← List.append_assoc, List.forall_mem_append, List.forall_mem_singleton]
      exact ⟨fun e he => List.mem_append_left _ (h.covered e he), List.mem_append_right _ List.mem_cons_self⟩

theorem Tracked.put (h : Tracked a b s) {call : Nat} (hok : Undisturbed a b s (.put call))
    (hstep : step s (.put call) = some t) : Tracked a b t := by
  cases hcall : s.inFlight[call]? with
  | none =>
    simp only [step, hcall] at hstep
    cases hstep
  | some c =>
    simp only [step, hcall, Option.some.injEq] at hstep
    subst hstep
    have hmem := List.mem_of_getElem? hcall
    obtain ⟨hkey, hnext, hnew⟩ := h.calls c hmem
    have hseen : s.dht c.key = c.seen := hok c hcall
    have hbefore : (ledgerOf c.seen).messages = latest s.published := by
      rw [← hseen, hkey]
      exact h.stored
    rw [hbefore] at hnext hnew
    have hmoved : ((s.published ++ [c.env]) ++ (s.inFlight.eraseIdx call).map Call.env).Perm
        (s.published ++ s.inFlight.map Call.env) := by
      obtain ⟨hlt, hget⟩ := List.getElem?_eq_some_iff.1 hcall
      have hperm : (c :: s.inFlight.eraseIdx call).Perm s.inFlight :=
        hget ▸ List.getElem_cons_eraseIdx_perm hlt
      rw [List.append_assoc]
      exact (hperm.map Call.env).append_left s.published
    refine ⟨?_, fun c' hc' => h.calls c' ((List.eraseIdx_sublist _ _).subset hc'),
      hmoved.subperm.trans h.subperm, fun e he => hmoved.mem_iff.2 (h.covered e he), ?_⟩
    · rw [Conversation.messages]
      dsimp only
      rw [hkey, Function.update_self, ledgerOf_marshal, hnext, latest_latest_append]
    · rw [← latest_latest_append]
      refine ((latest_sublist _).map _).nodup ?_
      rw [List.map_append, List.nodup_append]
      refine ⟨h.nodup, List.nodup_singleton _, fun x hx y hy => ?_⟩
      rw [List.mem_singleton.1 hy]
      rintro rfl
      exact hnew hx

/-- Along a run in which no call is disturbed the DHT holds the latest messages that were put. -/
theorem tracked_of_reach (hrun : Reach step (Undisturbed a b) {} s) : Tracked a b s := by
  have hstep : ∀ s action t, Tracked a b s → Undisturbed a b s action → step s action = some t →
      Tracked a b t := by
    intro s action t hs hok hstep
    cases action with
    | get self contact env fails now => exact hs.get hok hstep
    | put call => exact hs.put hok hstep
  exact Reach.invariant hstep hrun tracked_start

end Runs

/-- Once no call is in flight, the ledger holds the latest 800 envelopes in the order in which they were put,
each of them once. The envelope of every call was put, and no more often than there were calls with it: a
call that found its envelope in the ledger put nothing. -/
theorem ledger_complete {a b : String} {s : Conversation} (hrun : Reach step (Undisturbed a b) {} s)
    (hidle : s.inFlight = []) :
    s.messages a b = latest s.published ∧ s.published.Subperm s.started ∧
      (∀ env ∈ s.started, env ∈ s.published) ∧ ((s.messages a b).map WireEnvelope.id).Nodup := by
  obtain ⟨hstored, -, hsubperm, hcovered, hnodup⟩ := tracked_of_reach hrun
  rw [hidle, List.map_nil, List.append_nil] at hsubperm hcovered
  refine ⟨hstored, hsubperm, hcovered, ?_⟩
  rw [hstored]
  exact hnodup

/-! ## Samples -/

/-- An envelope with an ID. -/
def envelopeOf (id fromNode toNode : String) : WireEnvelope where
  version := 1
  id := id
  type := "msg"
  fromNode := fromNode
  toNode := toNode

/-- The envelope of the one party. -/
def greeting : WireEnvelope := envelopeOf "1" "alice" "bob"

/-- The envelope of the other. -/
def answer : WireEnvelope := envelopeOf "2" "bob" "alice"

/-- The key of the two parties. -/
def sampleKey : String := pairKey "alice" "bob"

/-- The ledger with some messages, put at the start of 1970. -/
def ledgerWith (messages : List WireEnvelope) : Ledger := ⟨sampleKey, formatRFC3339 0, messages⟩

/-- The DHT holds the ledger with some messages. -/
def dhtWith (messages : List WireEnvelope) : String → Option Bytes :=
  Function.update (fun _ => none) sampleKey (some (bytes (marshalLedger (ledgerWith messages))))

/-- A call that read some messages and adds its own. -/
def callAfter (seen : Option Bytes) (messages : List WireEnvelope) (env : WireEnvelope) : Call :=
  ⟨sampleKey, env, seen, ledgerWith (messages ++ [env])⟩

theorem messages_dhtWith (messages : List WireEnvelope) {s : Conversation}
    (h : s.dht sampleKey = dhtWith messages sampleKey) :
    s.messages "alice" "bob" = messages := by
  rw [Conversation.messages, ← sampleKey, h, dhtWith, Function.update_self, ledgerOf_marshal]
  rfl

/-- The greeting was put. -/
def greeted : Conversation := { dht := dhtWith [greeting], started := [greeting], published := [greeting] }

/-- The answer is to be put, by a call that read the greeting. -/
def answering : Conversation :=
  { greeted with
    inFlight := [callAfter (dhtWith [greeting] sampleKey) [greeting] answer]
    started := [greeting, answer] }

theorem step_answering : step greeted (.get "bob" "alice" answer false 0) = some answering := by
  have hpublish : publishLedger sampleKey (dhtWith [greeting] sampleKey) answer 0 =
      some (ledgerWith ([greeting] ++ [answer])) := by
    rw [publishLedger, dhtWith, Function.update_self, ledgerOf_marshal]
    rfl
  exact step_get (pairKey_comm _ _) hpublish

/-- The answer was put as well. -/
def answered : Conversation :=
  { dht := Function.update (dhtWith [greeting]) sampleKey
      (some (bytes (marshalLedger (ledgerWith [greeting, answer]))))
    started := [greeting, answer]
    published := [greeting, answer] }

theorem step_repeated : step answered (.get "alice" "bob" greeting false 0) =
    some { answered with started := [greeting, answer, greeting] } := by
  have hseen : answered.dht sampleKey = some (bytes (marshalLedger (ledgerWith [greeting, answer]))) :=
    Function.update_self sampleKey _ (dhtWith [greeting])
  have hfound : publishLedger sampleKey (answered.dht sampleKey) greeting 0 = none := by
    rw [publishLedger, hseen, ledgerOf_marshal]
    rfl
  exact step_get_again rfl hfound

/-- Two calls one after the other are both in the ledger, and the first one, made again, adds nothing. -/
theorem ledger_complete_in_turn :
    ∃ s, Reach step (Undisturbed "alice" "bob") {} s ∧ s.inFlight = [] ∧
      s.started = [greeting, answer, greeting] ∧ s.messages "alice" "bob" = [greeting, answer] := by
  have hgreeting : Reach step (Undisturbed "alice" "bob") {} greeted := by
    refine .tail (.single ⟨.get "alice" "bob" greeting true 0,
      ⟨.inl ⟨rfl, rfl⟩, fun _ h => absurd h List.not_mem_nil⟩, rfl⟩) ⟨.put 0, ?_, rfl⟩
    rintro c ⟨⟩
    rfl
  have hanswering := hgreeting.tail ⟨.get "bob" "alice" answer false 0, ⟨.inr ⟨rfl, rfl⟩, by decide⟩,
    step_answering⟩
  have hanswered : Reach step (Undisturbed "alice" "bob") {} answered :=
    hanswering.tail ⟨.put 0, fun c hc => by cases hc; rfl, rfl⟩
  have hreach := hanswered.tail ⟨.get "alice" "bob" greeting false 0, ⟨.inl ⟨rfl, rfl⟩, by decide⟩,
    step_repeated⟩
  obtain ⟨hmessages, -⟩ := ledger_complete hreach rfl
  exact ⟨_, hreach, rfl, rfl, hmessages⟩

/-- Both parties read before one of them puts, and the later ledger replaces the earlier one. So
does a ledger that is put after a read that failed. All calls have returned `nil`. -/
theorem envelope_lost :
    (∃ s, [.get "alice" "bob" greeting false 0, .get "bob" "alice" answer false 0, .put 0,
      .put 0].foldlM step {} = some s ∧
      s.inFlight = [] ∧ s.started = [greeting, answer] ∧ s.messages "alice" "bob" = [answer]) ∧
    ∃ s, [.get "alice" "bob" greeting false 0, .put 0, .get "bob" "alice" answer true 0,
      .put 0].foldlM step {} = some s ∧
      s.inFlight = [] ∧ s.started = [greeting, answer] ∧ s.messages "alice" "bob" = [answer] := by
  constructor
  · exact ⟨_, rfl, rfl, rfl, messages_dhtWith [answer] rfl⟩
  · exact ⟨_, rfl, rfl, rfl, messages_dhtWith [answer] rfl⟩

end Vx6.Chat
