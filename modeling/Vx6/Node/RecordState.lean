import Vx6.Lib.Dict
import Vx6.Lib.Run
import Vx6.Record.Issue

/-!
# The sequence of the node's endpoint record

`endpointRecordState` of `node.go` numbers the endpoint records that the node signs. It keeps the last
number in memory and, so that the numbering goes on after a restart, in the configuration file.
`RecordNode` is the node with that file and the other writers of it: each of them reads the file, changes
other settings, and writes all of it back. `Current` holds a mutex, so one call at a time is between its
read and its write; the reads and writes of the others may fall anywhere.

A writer that read the file before `Current` wrote it puts the old sequence back. As long as the node runs
this does no harm, because it goes by the larger of the two numbers; but a restart starts from the file.
`sequences_increase` says that numbers are not used again if no writer is late (`Timely`), or if the node
does not restart.
-/

set_option autoImplicit false

namespace Vx6.Node

open Vx6.Go Vx6.Lib Vx6.Record

/-! ## The configuration file -/

/-- `config.File`, as far as it concerns the sequence; the other settings are one text. -/
structure ConfigFile where
  recordSequence : UInt64 := 0
  recordName : String := ""
  recordAddress : String := ""
  settings : String := ""
  deriving DecidableEq

/-- What is on the disk. -/
inductive Disk where
  | missing
  /-- A write that failed halfway has left a text that does not decode. -/
  | torn
  | holds (cfg : ConfigFile)

/-- `Load`. Without a file the settings are the defaults. -/
def Disk.load : Disk → Option ConfigFile
  | missing => some {}
  | torn => none
  | holds cfg => some cfg

/-- How a call of `Save` ends. -/
inductive SaveResult where
  | written
  /-- An error before anything was written. -/
  | refused
  /-- An error after the file was truncated. -/
  | broken

/-- The disk after `Save`. -/
def Disk.save (disk : Disk) (cfg : ConfigFile) : SaveResult → Disk
  | .written => .holds cfg
  | .refused => disk
  | .broken => .torn

/-! ## `endpointRecordState` -/

/-- `endpointRecordState`. -/
structure RecordState where
  config : String
  sequence : UInt64 := 0
  name : String := ""
  address : String := ""
  current : EndpointRecord := {}

/-- `newEndpointRecordState`, where `loaded` is what the file was read as. -/
def newEndpointRecordState (config : String) (loaded : Option ConfigFile) : RecordState :=
  if config = "" then { config }
  else
    match loaded with
    | none => { config }
    | some cfg =>
      { config, sequence := cfg.recordSequence, name := cfg.recordName, address := cfg.recordAddress }

/-- The errors of `Current`. -/
inductive CurrentError where
  /-- `endpoint record sequence exhausted` -/
  | exhausted
  | issue (e : IssueError)
  | load
  | save
  deriving DecidableEq

/-- `^uint64(0)`. -/
def maxSequence : UInt64 := 0xffffffffffffffff

namespace RecordState

variable (sg : Signer) (id : Identity)

/-- The record at hand is that of the name and the address, and does not expire within five minutes. -/
def reusable (s : RecordState) (name address : String) (now : Time) : Bool :=
  s.current.nodeID = id.nodeID && s.name = name && s.address = address &&
    (match parseRFC3339 s.current.expiresAt with
      | some expiresAt => decide (now + 5 * minute < expiresAt)
      | none => false)

/-- A call of `NewEndpointRecordV2`. -/
def issue (name address : String) (next : UInt64) (now : Time) : Except CurrentError EndpointRecord :=
  (newEndpointRecordV2 sg id name address next (20 * minute) now).mapError .issue

/-- The number after the one in memory, with the record that `Current` signs first. -/
def propose (s : RecordState) (name address : String) (now : Time) :
    Except CurrentError EndpointRecord := do
  rejectIf (s.sequence = maxSequence) .exhausted
  issue sg id name address (if s.sequence + 1 = 0 then 1 else s.sequence + 1) now

/-- The record that `Current` signs with the file at hand: the number goes past that of the file. -/
def renumber (created : EndpointRecord) (cfg : ConfigFile) (name address : String) (now : Time) :
    Except CurrentError EndpointRecord :=
  if created.sequence ≤ cfg.recordSequence then do
    rejectIf (cfg.recordSequence = maxSequence) .exhausted
    issue sg id name address (cfg.recordSequence + 1) now
  else .ok created

/-- The end of `Current`: the record and its number are remembered. -/
def remember (s : RecordState) (created : EndpointRecord) (name address : String) : RecordState :=
  { s with sequence := created.sequence, name := name, address := address, current := created }

end RecordState

/-- A call of `Current` that has read the file and is about to write it. -/
structure Pending where
  created : EndpointRecord
  name : String
  address : String
  cfg : ConfigFile

/-- What `Current` writes. -/
def Pending.file (p : Pending) : ConfigFile :=
  { p.cfg with recordSequence := p.created.sequence, recordName := p.name, recordAddress := p.address }

namespace RecordState

variable {sg : Signer} {id : Identity} {s : RecordState} {name address : String} {now : Time}
  {created signed : EndpointRecord} {cfg : ConfigFile} {next : UInt64}

theorem sequence_of_issue (h : issue sg id name address next now = .ok created) :
    created.sequence = next :=
  sequence_of_newEndpointRecordV2 (mapError_eq_ok.1 h)

theorem lt_succ_of_ne_max {n : UInt64} (h : n ≠ maxSequence) : n < n + 1 := by
  have hmax : n.toNat ≠ 2 ^ 64 - 1 := fun heq => h (UInt64.toNat.inj heq)
  have hlt := n.toNat_lt
  rw [UInt64.lt_iff_toNat_lt, UInt64.toNat_add]
  simp only [UInt64.toNat_one]
  omega

/-- The proposed number is larger than that in memory. -/
theorem lt_of_propose (h : s.propose sg id name address now = .ok created) :
    s.sequence < created.sequence := by
  rw [propose, bind_eq_ok] at h
  obtain ⟨_, hroom, hissue⟩ := h
  have hlt := lt_succ_of_ne_max (by simpa using rejectIf_eq_ok.1 hroom)
  rw [sequence_of_issue hissue, if_neg]
  · exact hlt
  · intro hzero
    rw [hzero] at hlt
    exact absurd hlt (by simp [UInt64.lt_iff_toNat_lt])

/-- The number that is signed in the end is larger than that in the file, and not smaller than the
proposed one. -/
theorem lt_of_renumber (h : renumber sg id created cfg name address now = .ok signed) :
    cfg.recordSequence < signed.sequence ∧ created.sequence ≤ signed.sequence := by
  unfold renumber at h
  split_ifs at h with hbehind
  · rw [bind_eq_ok] at h
    obtain ⟨_, hroom, hissue⟩ := h
    have hlt := lt_succ_of_ne_max (by simpa using rejectIf_eq_ok.1 hroom)
    rw [sequence_of_issue hissue]
    exact ⟨hlt, (UInt64.le_trans hbehind (UInt64.le_of_lt hlt))⟩
  · cases h
    exact ⟨UInt64.not_le.1 hbehind, UInt64.le_refl _⟩

end RecordState

/-! ## The node and the other writers -/

/-- What another writer has read, and how many records had been issued by then. -/
structure Copy where
  cfg : ConfigFile
  seen : Nat

/-- The node, the disk, the call of `Current` under way, the other writers between read and write, and
the records that `Current` has issued, the last one first. -/
structure RecordNode where
  state : RecordState
  disk : Disk
  pending : Option Pending
  copies : Dict Nat Copy
  issued : List EndpointRecord

/-- What may happen. `readable` says whether a read of the file succeeds. -/
inductive RecordAction where
  /-- `Current` begins, and goes on to its write if there is one to do. -/
  | call (name address : String) (now : Time) (readable : Bool)
  /-- `Current` writes the file. -/
  | save (result : SaveResult)
  /-- Another writer reads the file. -/
  | read (writer : Nat) (readable : Bool)
  /-- Another writer writes the file with changed settings. -/
  | write (writer : Nat) (settings : String) (result : SaveResult)
  /-- Two writes at a time leave a text that does not decode. -/
  | tear
  /-- The node stops and starts. -/
  | restart (readable : Bool)

namespace RecordNode

variable (sg : Signer) (id : Identity)

/-- The disk as it is read. -/
def loaded (s : RecordNode) (readable : Bool) : Option ConfigFile := if readable then s.disk.load else none

/-- `Current` up to its write: an error, a record for which nothing has to be written, or a call that is
about to write. -/
def begin (s : RecordNode) (name address : String) (now : Time) (readable : Bool) :
    Except CurrentError (EndpointRecord ⊕ Pending) := do
  let created ← s.state.propose sg id name address now
  if s.state.config = "" then return .inl created
  else
    let cfg ← orReject (s.loaded readable) .load
    let signed ← RecordState.renumber sg id created cfg name address now
    return .inr ⟨signed, name, address, cfg⟩

/-- The record is remembered and returned. -/
def finish (s : RecordNode) (created : EndpointRecord) (name address : String) : RecordNode :=
  { s with state := s.state.remember created name address, pending := none, issued := created :: s.issued }

/-- One step. -/
def step (s : RecordNode) : RecordAction → Option RecordNode
  | .call name address now readable =>
    match s.pending with
    | some _ => none
    | none =>
      if s.state.reusable id name address now then some s
      else
        match s.begin sg id name address now readable with
        | .error _ => some s
        | .ok (.inl created) => some (s.finish created name address)
        | .ok (.inr p) => some { s with pending := some p }
  | .save result =>
    match s.pending with
    | none => none
    | some p =>
      match result with
      | .written => some ({ s with disk := .holds p.file }.finish p.created p.name p.address)
      | failed => some { s with disk := s.disk.save p.file failed, pending := none }
  | .read writer readable =>
    match s.loaded readable with
    | none => some s
    | some cfg => some { s with copies := s.copies.insert writer ⟨cfg, s.issued.length⟩ }
  | .write writer settings result =>
    match s.copies.lookup writer with
    | none => none
    | some copy =>
      some { s with
        disk := s.disk.save { copy.cfg with settings := settings } result
        copies := s.copies.erase writer }
  | .tear => some { s with disk := .torn }
  | .restart readable =>
    some { s with state := newEndpointRecordState s.state.config (s.loaded readable), pending := none }

/-- What a call of `Current` returns with a step, if it returns then. -/
def result (s : RecordNode) : RecordAction → Option (Except CurrentError EndpointRecord)
  | .call name address now readable =>
    if s.state.reusable id name address now then some (.ok s.state.current)
    else
      match s.begin sg id name address now readable with
      | .error e => some (.error e)
      | .ok (.inl created) => some (.ok created)
      | .ok (.inr _) => none
  | .save result =>
    match s.pending, result with
    | none, _ => none
    | some p, .written => some (.ok p.created)
    | some _, _ => some (.error .save)
  | _ => none

/-- The node has started, with whatever was on the disk. -/
structure Started (s : RecordNode) : Prop where
  state : ∃ readable, s.state = newEndpointRecordState s.state.config (s.loaded readable)
  pending : s.pending = none
  copies : s.copies = ∅
  issued : s.issued = []

/-- No writer is late: when it writes, no record has been issued since it read the file. -/
def Timely (s : RecordNode) : RecordAction → Prop
  | .write writer _ .written => ∀ copy, s.copies.lookup writer = some copy → copy.seen = s.issued.length
  | _ => True

/-- The node does not restart. -/
def Uninterrupted (_ : RecordNode) : RecordAction → Prop
  | .restart _ => False
  | _ => True

/-! ## What a step can do -/

/-- The effects of the steps, with what is known when they happen. -/
inductive Effect (s : RecordNode) : RecordAction → RecordNode → Prop
  | same (a : RecordAction) : Effect s a s
  | issue {name address : String} {now : Time} {readable : Bool} {created : EndpointRecord}
    (hconfig : s.state.config = "") (hlarger : s.state.sequence < created.sequence) :
    Effect s (.call name address now readable) (s.finish created name address)
  | prepare {name address : String} {now : Time} {readable : Bool} {p : Pending}
    (hread : s.disk.load = some p.cfg) (hfile : p.cfg.recordSequence < p.created.sequence)
    (hlarger : s.state.sequence < p.created.sequence) :
    Effect s (.call name address now readable) { s with pending := some p }
  | commit {p : Pending} (hp : s.pending = some p) :
    Effect s (.save .written) ({ s with disk := .holds p.file }.finish p.created p.name p.address)
  | abandon {result : SaveResult} {disk : Disk} (hdisk : disk = s.disk ∨ disk = .torn) :
    Effect s (.save result) { s with disk := disk, pending := none }
  | read {writer : Nat} {readable : Bool} {cfg : ConfigFile} (hread : s.disk.load = some cfg) :
    Effect s (.read writer readable) { s with copies := s.copies.insert writer ⟨cfg, s.issued.length⟩ }
  | write {writer : Nat} {settings : String} {copy : Copy} (hcopy : s.copies.lookup writer = some copy) :
    Effect s (.write writer settings .written)
      { s with disk := .holds { copy.cfg with settings := settings }, copies := s.copies.erase writer }
  | fail {writer : Nat} {settings : String} {result : SaveResult} {disk : Disk}
    (hdisk : disk = s.disk ∨ disk = .torn) :
    Effect s (.write writer settings result) { s with disk := disk, copies := s.copies.erase writer }
  | tear : Effect s .tear { s with disk := .torn }
  | restart (readable : Bool) :
    Effect s (.restart readable)
      { s with state := newEndpointRecordState s.state.config (s.loaded readable), pending := none }

variable {sg id} {s t : RecordNode} {a : RecordAction}

theorem load_of_loaded {readable : Bool} {cfg : ConfigFile} (h : s.loaded readable = some cfg) :
    s.disk.load = some cfg := by
  unfold loaded at h
  split_ifs at h
  exact h

theorem begin_inl {name address : String} {now : Time} {readable : Bool} {created : EndpointRecord}
    (h : s.begin sg id name address now readable = .ok (.inl created)) :
    s.state.config = "" ∧ s.state.sequence < created.sequence := by
  rw [begin, bind_eq_ok] at h
  obtain ⟨proposed, hproposed, h⟩ := h
  split_ifs at h with hconfig
  · cases h
    exact ⟨hconfig, RecordState.lt_of_propose hproposed⟩
  · simp only [bind_eq_ok, pure_eq_ok] at h
    obtain ⟨_, _, _, _, h⟩ := h
    cases h

theorem begin_inr {name address : String} {now : Time} {readable : Bool} {p : Pending}
    (h : s.begin sg id name address now readable = .ok (.inr p)) :
    s.disk.load = some p.cfg ∧ p.cfg.recordSequence < p.created.sequence ∧
      s.state.sequence < p.created.sequence := by
  rw [begin, bind_eq_ok] at h
  obtain ⟨proposed, hproposed, h⟩ := h
  split_ifs at h with hconfig
  · cases h
  · simp only [bind_eq_ok, pure_eq_ok, orReject_eq_ok] at h
    obtain ⟨cfg, hread, signed, hsigned, h⟩ := h
    cases h
    obtain ⟨hfile, hle⟩ := RecordState.lt_of_renumber hsigned
    exact ⟨load_of_loaded hread, hfile, UInt64.lt_of_lt_of_le (RecordState.lt_of_propose hproposed) hle⟩

theorem effect_of_step (h : s.step sg id a = some t) : Effect s a t := by
  cases a with
  | call name address now readable =>
    rw [step] at h
    cases hpending : s.pending with
    | some p =>
      rw [hpending] at h
      cases h
    | none =>
      rw [hpending] at h
      dsimp only at h
      split_ifs at h
      · cases h
        exact .same _
      · rcases hbegin : s.begin sg id name address now readable with e | created | p
        · rw [hbegin] at h
          cases h
          exact .same _
        · rw [hbegin] at h
          cases h
          obtain ⟨hconfig, hlarger⟩ := begin_inl hbegin
          exact .issue hconfig hlarger
        · rw [hbegin] at h
          cases h
          obtain ⟨hread, hfile, hlarger⟩ := begin_inr hbegin
          exact .prepare hread hfile hlarger
  | save result =>
    rw [step] at h
    cases hpending : s.pending with
    | none =>
      rw [hpending] at h
      cases h
    | some p =>
      rw [hpending] at h
      cases result with
      | written =>
        cases h
        exact .commit hpending
      | refused =>
        cases h
        exact .abandon (.inl rfl)
      | broken =>
        cases h
        exact .abandon (.inr rfl)
  | read writer readable =>
    rw [step] at h
    cases hread : s.loaded readable with
    | none =>
      rw [hread] at h
      cases h
      exact .same _
    | some cfg =>
      rw [hread] at h
      cases h
      exact .read (load_of_loaded hread)
  | write writer settings result =>
    rw [step] at h
    cases hcopy : s.copies.lookup writer with
    | none =>
      rw [hcopy] at h
      cases h
    | some copy =>
      rw [hcopy] at h
      cases h
      cases result with
      | written => exact .write hcopy
      | refused => exact .fail (.inl rfl)
      | broken => exact .fail (.inr rfl)
  | tear =>
    cases h
    exact .tear
  | restart readable =>
    cases h
    exact .restart readable

/-! ## Numbers in memory -/

/-- The numbers of the records, the last one first. -/
abbrev Increasing (issued : List EndpointRecord) : Prop :=
  issued.Pairwise fun later earlier => earlier.sequence < later.sequence

/-- The number in memory is the largest, and that of the call under way is larger still. -/
structure Counted (s : RecordNode) : Prop where
  increasing : Increasing s.issued
  largest : ∀ rec ∈ s.issued, rec.sequence ≤ s.state.sequence
  pending : ∀ p, s.pending = some p → s.state.sequence < p.created.sequence

theorem Started.counted (h : s.Started) : s.Counted := by
  refine ⟨?_, ?_, ?_⟩
  · rw [h.issued]
    exact List.Pairwise.nil
  · rw [h.issued]
    exact fun _ hrec => absurd hrec List.not_mem_nil
  · intro p hp
    rw [h.pending] at hp
    cases hp

/-- A record with a larger number than the one in memory is issued. -/
theorem Counted.finish (h : s.Counted) {created : EndpointRecord} {name address : String}
    (hlarger : s.state.sequence < created.sequence) : (s.finish created name address).Counted where
  increasing := List.pairwise_cons.2
    ⟨fun rec hrec => UInt64.lt_of_le_of_lt (h.largest rec hrec) hlarger, h.increasing⟩
  largest rec hrec := by
    rcases List.mem_cons.1 hrec with rfl | hrec
    · exact UInt64.le_refl _
    · exact UInt64.le_trans (h.largest rec hrec) (UInt64.le_of_lt hlarger)
  pending := nofun

theorem Counted.step (h : s.Counted) (hok : Uninterrupted s a) (hstep : Effect s a t) : t.Counted := by
  cases hstep with
  | same => exact h
  | issue _ hlarger => exact h.finish hlarger
  | prepare _ _ hlarger =>
    refine ⟨h.increasing, h.largest, fun q hq => ?_⟩
    cases hq
    exact hlarger
  | @commit p hp =>
    have hdisk : Counted { s with disk := .holds p.file } := ⟨h.increasing, h.largest, h.pending⟩
    exact hdisk.finish (h.pending p hp)
  | abandon _ => exact ⟨h.increasing, h.largest, nofun⟩
  | read _ => exact ⟨h.increasing, h.largest, h.pending⟩
  | write _ => exact ⟨h.increasing, h.largest, h.pending⟩
  | fail _ => exact ⟨h.increasing, h.largest, h.pending⟩
  | tear => exact ⟨h.increasing, h.largest, h.pending⟩
  | restart readable => exact hok.elim

/-! ## Numbers on the disk -/

/-- No record has a larger number than the file. -/
def Covers (issued : List EndpointRecord) (cfg : ConfigFile) : Prop :=
  ∀ rec ∈ issued, rec.sequence ≤ cfg.recordSequence

/-- The number in the file is the largest, and so is that of a copy unless records were issued since; that
of the call under way is larger still. -/
structure Kept (s : RecordNode) : Prop where
  config : s.state.config ≠ ""
  increasing : Increasing s.issued
  disk : ∀ cfg, s.disk.load = some cfg → Covers s.issued cfg
  pending : ∀ p, s.pending = some p → ∀ rec ∈ s.issued, rec.sequence < p.created.sequence
  seen : ∀ writer copy, s.copies.lookup writer = some copy → copy.seen ≤ s.issued.length
  copies : ∀ writer copy, s.copies.lookup writer = some copy → copy.seen = s.issued.length →
    Covers s.issued copy.cfg

theorem Started.kept (h : s.Started) (hconfig : s.state.config ≠ "") : s.Kept := by
  have hcopies : ∀ writer copy, s.copies.lookup writer ≠ some copy := by
    intro writer copy
    rw [h.copies, Dict.lookup_empty_eq]
    nofun
  refine ⟨hconfig, h.counted.increasing, fun _ _ rec hrec => ?_, fun _ _ rec hrec => ?_,
    fun writer copy hcopy => absurd hcopy (hcopies writer copy),
    fun writer copy hcopy => absurd hcopy (hcopies writer copy)⟩
  · rw [h.issued] at hrec
    cases hrec
  · rw [h.issued] at hrec
    cases hrec

/-- What is true of the file stays so if it is left alone or torn. -/
theorem Kept.covers_of_same (h : s.Kept) {disk : Disk} (hdisk : disk = s.disk ∨ disk = .torn)
    (cfg : ConfigFile) (hread : disk.load = some cfg) : Covers s.issued cfg := by
  rcases hdisk with rfl | rfl
  · exact h.disk cfg hread
  · cases hread

theorem Kept.lookup_erase (h : s.Kept) {writer other : Nat} {copy : Copy}
    (hcopy : (s.copies.erase writer).lookup other = some copy) :
    copy.seen ≤ s.issued.length ∧ (copy.seen = s.issued.length → Covers s.issued copy.cfg) := by
  rw [Dict.lookup_erase_eq] at hcopy
  split_ifs at hcopy
  exact ⟨h.seen other copy hcopy, h.copies other copy hcopy⟩

theorem Kept.commit (h : s.Kept) {p : Pending} (hp : s.pending = some p) :
    ({ s with disk := .holds p.file }.finish p.created p.name p.address).Kept where
  config := h.config
  increasing := List.pairwise_cons.2 ⟨h.pending p hp, h.increasing⟩
  disk cfg hread := by
    cases hread
    intro rec hrec
    rcases List.mem_cons.1 hrec with rfl | hrec
    · exact UInt64.le_refl _
    · exact UInt64.le_of_lt (h.pending p hp rec hrec)
  pending := nofun
  seen writer copy hcopy := (h.seen writer copy hcopy).trans (Nat.le_succ _)
  -- every copy is older than the record
  copies writer copy hcopy hseen := by
    have hle := h.seen writer copy hcopy
    rw [hseen] at hle
    exact absurd hle (Nat.not_succ_le_self _)

theorem Kept.step (h : s.Kept) (hok : Timely s a) (hstep : Effect s a t) : t.Kept := by
  cases hstep with
  | same => exact h
  | issue hconfig _ => exact absurd hconfig h.config
  | prepare hread hfile _ =>
    refine ⟨h.config, h.increasing, h.disk, fun q hq rec hrec => ?_, h.seen, h.copies⟩
    cases hq
    exact UInt64.lt_of_le_of_lt (h.disk _ hread rec hrec) hfile
  | commit hp => exact h.commit hp
  | abandon hdisk => exact ⟨h.config, h.increasing, h.covers_of_same hdisk, nofun, h.seen, h.copies⟩
  | @read writer _ cfg hread =>
    have hnew : ∀ other copy, (s.copies.insert writer ⟨cfg, s.issued.length⟩).lookup other = some copy →
        copy.seen ≤ s.issued.length ∧ (copy.seen = s.issued.length → Covers s.issued copy.cfg) := by
      intro other copy hcopy
      rw [Dict.lookup_insert_eq] at hcopy
      split_ifs at hcopy
      · cases hcopy
        exact ⟨Nat.le_refl _, fun _ => h.disk cfg hread⟩
      · exact ⟨h.seen other copy hcopy, h.copies other copy hcopy⟩
    exact ⟨h.config, h.increasing, h.disk, h.pending, fun other copy hcopy => (hnew other copy hcopy).1,
      fun other copy hcopy => (hnew other copy hcopy).2⟩
  | write hcopy =>
    refine ⟨h.config, h.increasing, fun cfg hread => ?_, h.pending,
      fun _ _ hother => (h.lookup_erase hother).1, fun _ _ hother => (h.lookup_erase hother).2⟩
    cases hread
    exact h.copies _ _ hcopy (hok _ hcopy)
  | fail hdisk =>
    exact ⟨h.config, h.increasing, h.covers_of_same hdisk, h.pending,
      fun _ _ hother => (h.lookup_erase hother).1, fun _ _ hother => (h.lookup_erase hother).2⟩
  | tear => exact ⟨h.config, h.increasing, nofun, h.pending, h.seen, h.copies⟩
  | restart readable =>
    refine ⟨?_, h.increasing, h.disk, nofun, h.seen, h.copies⟩
    have hsame : (newEndpointRecordState s.state.config (s.loaded readable)).config = s.state.config := by
      unfold newEndpointRecordState
      rw [if_neg h.config]
      cases s.loaded readable <;> rfl
    rw [hsame]
    exact h.config

/-! ## Runs -/

/-- A call that returns an error leaves the state of the node and the issued records as they are. -/
theorem state_of_error {e : CurrentError} (hstep : s.step sg id a = some t)
    (herror : s.result sg id a = some (.error e)) : t.state = s.state ∧ t.issued = s.issued := by
  cases a with
  | call name address now readable =>
    rw [step] at hstep
    rw [result] at herror
    cases hpending : s.pending with
    | some p =>
      rw [hpending] at hstep
      cases hstep
    | none =>
      rw [hpending] at hstep
      dsimp only at hstep herror
      split_ifs at hstep herror
      · cases herror
      · rcases hbegin : s.begin sg id name address now readable with e | created | p
        · rw [hbegin] at hstep
          cases hstep
          exact ⟨rfl, rfl⟩
        · rw [hbegin] at herror
          cases herror
        · rw [hbegin] at herror
          cases herror
  | save result =>
    rw [step] at hstep
    cases hpending : s.pending with
    | none =>
      rw [hpending] at hstep
      cases hstep
    | some p =>
      rw [hpending] at hstep
      cases result with
      | written => simp [RecordNode.result, hpending] at herror
      | refused =>
        cases hstep
        exact ⟨rfl, rfl⟩
      | broken =>
        cases hstep
        exact ⟨rfl, rfl⟩
  | read writer readable => cases herror
  | write writer settings result => cases herror
  | tear => cases herror
  | restart readable => cases herror

/-- If no other writer is late, or if the node does not restart, every record has a larger number than all
records before it; and a call that fails leaves the state as it is. -/
theorem sequences_increase {sg : Signer} {id : Identity} {start s : RecordNode} (hstart : start.Started)
    (hrun : start.state.config ≠ "" ∧ Reach (step sg id) Timely start s ∨
      Reach (step sg id) Uninterrupted start s) :
    (s.issued.Pairwise fun later earlier => earlier.sequence < later.sequence) ∧
      ∀ a t e, s.step sg id a = some t → s.result sg id a = some (.error e) → t.state = s.state := by
  refine ⟨?_, fun a t e hstep herror => (state_of_error hstep herror).1⟩
  rcases hrun with ⟨hconfig, hrun⟩ | hrun
  · have hkept : ∀ s a t, Kept s → Timely s a → step sg id s a = some t → Kept t :=
      fun s a t h hok hstep => h.step hok (effect_of_step hstep)
    exact (Reach.invariant hkept hrun (hstart.kept hconfig)).increasing
  · have hcounted : ∀ s a t, Counted s → Uninterrupted s a → step sg id s a = some t → Counted t :=
      fun s a t h hok hstep => h.step hok (effect_of_step hstep)
    exact (Reach.invariant hcounted hrun hstart.counted).increasing

/-! ## A node with one other writer -/

/-- Signatures are empty and always verify. -/
def sampleSigner : Signer where
  sha256 _ := Vector.replicate 32 0
  ed25519Verify _ _ _ := true
  ed25519Sign _ _ := []

/-- The identity of a node. -/
def sampleIdentity : Identity where
  nodeID := "vx6_0000000000000000000000000000000000000000000000000000000000000000"
  publicKey := List.replicate 32 1
  privateKey := List.replicate 64 1

/-- A node that starts for the first time. -/
def firstStart : RecordNode where
  state := { config := "config.json" }
  disk := .missing
  pending := none
  copies := ∅
  issued := []

theorem firstStart_started : firstStart.Started := ⟨⟨true, rfl⟩, rfl, rfl, rfl⟩

/-- The node issues a record for an address. -/
def issueAt (address : String) (now : Time) : List RecordAction :=
  [.call "NODE" address now true, .save .written]

/-- A writer reads the file, the node issues a record, the writer writes; then the node restarts and issues
a record for another address. If `late` is not set, the writer reads the file only after the first
record. -/
def writerAndRestart (late : Bool) : List RecordAction :=
  (if late then .read 0 true :: issueAt "[::1]:1" 0 else issueAt "[::1]:1" 0 ++ [.read 0 true]) ++
    [.write 0 "pinned" .written, .restart true] ++ issueAt "[::1]:2" 0

/-- The numbers and addresses of the issued records. -/
def numbers (s : RecordNode) :
    List (UInt64 × String) := s.issued.map fun rec => (rec.sequence, rec.address)

/-- A step that is taken only if no writer is late. -/
def timelyStep (sg : Signer) (id : Identity) (s : RecordNode) (a : RecordAction) : Option RecordNode :=
  let late : Bool := match a with
    | .write writer _ .written => (s.copies.lookup writer).any fun copy => copy.seen ≠ s.issued.length
    | _ => false
  if late then none else s.step sg id a

theorem timely_of_timelyStep (s : RecordNode) (a : RecordAction) (t : RecordNode)
    (h : timelyStep sg id s a = some t) : Step (step sg id) Timely s t := by
  unfold timelyStep at h
  dsimp only at h
  split_ifs at h with hlate
  refine ⟨a, ?_, h⟩
  cases a with
  | write writer settings result =>
    cases result with
    | written =>
      intro copy hcopy
      by_contra hseen
      exact hlate (by simp [hcopy, hseen])
    | refused => trivial
    | broken => trivial
  | _ => trivial

set_option maxRecDepth 4000 in
theorem writerAndRestart_timely :
    ((writerAndRestart false).foldlM (timelyStep sampleSigner sampleIdentity) firstStart).map numbers =
      some [(2, "[::1]:2"), (1, "[::1]:1")] := by
  decide

/-- With a writer that is not late the numbers increase over the restart. -/
theorem numbers_increase_over_restart :
    ∃ s, Reach (step sampleSigner sampleIdentity) Timely firstStart s ∧
      numbers s = [(2, "[::1]:2"), (1, "[::1]:1")] ∧
      s.issued.Pairwise fun later earlier => earlier.sequence < later.sequence := by
  obtain ⟨s, hrun, hnumbers⟩ := Option.map_eq_some_iff.1 writerAndRestart_timely
  have hreach := Reach.of_checkedM timely_of_timelyStep _ hrun
  exact ⟨s, hreach, hnumbers, (sequences_increase firstStart_started (.inl ⟨by decide, hreach⟩)).1⟩

set_option maxRecDepth 4000 in
theorem writerAndRestart_late :
    ((writerAndRestart true).foldlM (step sampleSigner sampleIdentity) firstStart).map numbers =
      some [(1, "[::1]:2"), (1, "[::1]:1")] := by
  decide

/-- A writer that read the file before the first record was issued, and writes it afterwards, makes the
node use the number again after a restart. -/
theorem number_used_again :
    firstStart.Started ∧
      ∃ s, (writerAndRestart true).foldlM (step sampleSigner sampleIdentity) firstStart = some s ∧
        ∃ first second, s.issued = [second, first] ∧ first.sequence = second.sequence ∧
          first.address ≠ second.address := by
  obtain ⟨s, hrun, hnumbers⟩ := Option.map_eq_some_iff.1 writerAndRestart_late
  refine ⟨firstStart_started, s, hrun, ?_⟩
  unfold numbers at hnumbers
  rcases hissued : s.issued with _ | ⟨second, _ | ⟨first, _ | ⟨third, rest⟩⟩⟩
  · simp [hissued] at hnumbers
  · simp [hissued] at hnumbers
  · simp only [hissued, List.map_cons, List.map_nil, List.cons.injEq, Prod.mk.injEq, and_true] at hnumbers
    obtain ⟨⟨hsecond, hsecondAddr⟩, hfirst, hfirstAddr⟩ := hnumbers
    refine ⟨first, second, rfl, hfirst.trans hsecond.symm, ?_⟩
    rw [hfirstAddr, hsecondAddr]
    decide
  · simp [hissued] at hnumbers

end RecordNode

end Vx6.Node
