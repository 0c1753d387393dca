import Mathlib.Data.Finset.Card
import Vx6.Go.Sort
import Vx6.Onion.Envelope
import Vx6.Record.Service

/-!
# Planning a circuit

`PlanAutomatedCircuit` draws the relays of a circuit from the peers in the registry. `circuit_planned` says
when it finds a circuit and which peers it can draw, over every registry and every random choice.
-/

set_option autoImplicit false

namespace Vx6.Onion

open Vx6.Go Vx6.Lib Vx6.Record

/-- `CircuitPlan`. -/
structure CircuitPlan where
  circuitID : String := ""
  relays : List EndpointRecord := []
  targetAddr : String := ""
  purpose : String := ""
  deriving DecidableEq, Repr

/-- `RelayAddrs`. -/
def CircuitPlan.relayAddrs (p : CircuitPlan) : List String := p.relays.map EndpointRecord.address

/-- The errors of `PlanAutomatedCircuit`. -/
inductive PlanError where
  | hopCount
  | noAddress
  | notEnoughPeers (need got : Nat)
  | circuitID
  deriving DecidableEq, Repr

/-- The random choices of `PlanAutomatedCircuit`: an index below a bound, an order, and a circuit ID. -/
structure PlanRandom where
  intn : Nat → Nat
  shuffle : Shuffle EndpointRecord
  circuitID : Option CircuitID

/-- The address to which the circuit leads: for a hidden service, one of its introduction points. -/
def PlanRandom.target (rng : PlanRandom) (finalTarget : ServiceRecord) : String :=
  if finalTarget.isHidden ∧ 0 < finalTarget.introPoints.length then
    finalTarget.introPoints.getD (rng.intn finalTarget.introPoints.length) ""
  else finalTarget.address

/-- The loop over `allPeers`: a peer is kept if it has an address that was not seen before. -/
def filterPeers (seen : List String) : List EndpointRecord → List EndpointRecord
  | [] => []
  | peer :: peers =>
      if peer.address = "" ∨ peer.address ∈ seen then filterPeers seen peers
      else peer :: filterPeers (peer.address :: seen) peers

section Planner

variable (rng : PlanRandom) (finalTarget : ServiceRecord) (allPeers : List EndpointRecord) (hopCount : Int)
  (excludeAddrs : List String)

/-- The peers among which `PlanAutomatedCircuit` draws. -/
def candidatePeers : List EndpointRecord :=
  filterPeers (rng.target finalTarget :: excludeAddrs.filter (· ≠ "")) allPeers

/-- `PlanAutomatedCircuit`. -/
def planAutomatedCircuit : Except PlanError CircuitPlan := do
  rejectIf (hopCount ≤ 0) .hopCount
  rejectIf (rng.target finalTarget = "") .noAddress
  let filtered := candidatePeers rng finalTarget allPeers excludeAddrs
  rejectIf (filtered.length < hopCount) (.notEnoughPeers hopCount.toNat filtered.length)
  let label ← orReject rng.circuitID .circuitID
  return { circuitID := hexEncode label.toList
           relays := (rng.shuffle.arrange filtered).take hopCount.toNat
           targetAddr := rng.target finalTarget
           purpose := "relay" }

/-- The addresses that a relay may have. -/
def eligible : Finset String :=
  (allPeers.map EndpointRecord.address).toFinset.filter fun addr =>
    addr ≠ "" ∧ addr ≠ rng.target finalTarget ∧ addr ∉ excludeAddrs

end Planner

/-! ## The candidates -/

theorem mem_filterPeers {seen : List String} {peers : List EndpointRecord} {addr : String} :
    addr ∈ (filterPeers seen peers).map EndpointRecord.address ↔
      addr ≠ "" ∧ addr ∉ seen ∧ addr ∈ peers.map EndpointRecord.address := by
  induction peers generalizing seen with
  | nil => simp [filterPeers]
  | cons peer peers ih =>
    rw [filterPeers]
    split
    · rw [ih, List.map_cons, List.mem_cons]
      grind
    · rw [List.map_cons, List.mem_cons, ih, List.map_cons, List.mem_cons, List.mem_cons]
      grind

theorem nodup_filterPeers (seen : List String) (peers : List EndpointRecord) :
    ((filterPeers seen peers).map EndpointRecord.address).Nodup := by
  induction peers generalizing seen with
  | nil => exact List.nodup_nil
  | cons peer peers ih =>
    rw [filterPeers]
    split
    · exact ih seen
    · rw [List.map_cons, List.nodup_cons]
      refine ⟨?_, ih _⟩
      intro hmem
      exact (mem_filterPeers.1 hmem).2.1 List.mem_cons_self

section Planned

variable {rng : PlanRandom} {finalTarget : ServiceRecord} {allPeers : List EndpointRecord}
  {excludeAddrs : List String}

theorem mem_candidatePeers {addr : String} :
    addr ∈ (candidatePeers rng finalTarget allPeers excludeAddrs).map EndpointRecord.address ↔
      addr ∈ eligible rng finalTarget allPeers excludeAddrs := by
  simp only [candidatePeers, eligible, mem_filterPeers, Finset.mem_filter, List.mem_toFinset, List.mem_cons,
    List.mem_filter, decide_eq_true_eq]
  tauto

/-- There is one candidate for every eligible address. -/
theorem length_candidatePeers : (candidatePeers rng finalTarget allPeers excludeAddrs).length =
    (eligible rng finalTarget allPeers excludeAddrs).card := by
  rw [← List.length_map EndpointRecord.address, ← List.toFinset_card_of_nodup]
  · exact congrArg Finset.card (Finset.ext fun addr => List.mem_toFinset.trans mem_candidatePeers)
  · exact nodup_filterPeers _ _

theorem planAutomatedCircuit_eq_ok {hopCount : Int} {plan : CircuitPlan} :
    planAutomatedCircuit rng finalTarget allPeers hopCount excludeAddrs = .ok plan ↔
      0 < hopCount ∧ rng.target finalTarget ≠ "" ∧
      hopCount ≤ (eligible rng finalTarget allPeers excludeAddrs).card ∧
      ∃ label, rng.circuitID = some label ∧ ⟨hexEncode label.toList,
        (rng.shuffle.arrange (candidatePeers rng finalTarget allPeers excludeAddrs)).take hopCount.toNat,
        rng.target finalTarget, "relay"⟩ = plan := by
  simp only [planAutomatedCircuit, bind_eq_ok, rejectIf_eq_ok, orReject_eq_ok, pure_eq_ok, exists_const,
    decide_eq_false_iff_not, length_candidatePeers, ne_eq, not_le, not_lt]

end Planned

/-- A circuit is found exactly if the caller asks for a hop, the service has an address, the eligible
addresses suffice and a circuit ID can be drawn. Its relays are then as many peers as the caller asks for,
with different eligible addresses. -/
theorem circuit_planned (rng : PlanRandom) (finalTarget : ServiceRecord) (allPeers : List EndpointRecord)
    (hopCount : Int) (excludeAddrs : List String) :
    ((∃ plan, planAutomatedCircuit rng finalTarget allPeers hopCount excludeAddrs = .ok plan) ↔
      0 < hopCount ∧ rng.target finalTarget ≠ "" ∧
        hopCount ≤ (eligible rng finalTarget allPeers excludeAddrs).card ∧ rng.circuitID.isSome = true) ∧
    ∀ plan, planAutomatedCircuit rng finalTarget allPeers hopCount excludeAddrs = .ok plan →
      (plan.relayAddrs.length : Int) = hopCount ∧ plan.relayAddrs.Nodup ∧
      ∀ addr ∈ plan.relayAddrs, addr ∈ eligible rng finalTarget allPeers excludeAddrs := by
  constructor
  · constructor
    · rintro ⟨plan, hplan⟩
      obtain ⟨hpos, htarget, henough, label, hlabel, -⟩ := planAutomatedCircuit_eq_ok.1 hplan
      exact ⟨hpos, htarget, henough, hlabel ▸ rfl⟩
    · rintro ⟨hpos, htarget, henough, hlabel⟩
      obtain ⟨label, hlabel⟩ := Option.isSome_iff_exists.1 hlabel
      exact ⟨_, planAutomatedCircuit_eq_ok.2 ⟨hpos, htarget, henough, label, hlabel, rfl⟩⟩
  · intro plan hplan
    obtain ⟨hpos, -, henough, label, -, rfl⟩ := planAutomatedCircuit_eq_ok.1 hplan
    -- neither the shuffle nor the cut at `hopCount` brings in an address or repeats one
    have hperm := (rng.shuffle.perm (candidatePeers rng finalTarget allPeers excludeAddrs)).map
      EndpointRecord.address
    have hsub := fun l : List EndpointRecord =>
      (List.take_sublist hopCount.toNat l).map EndpointRecord.address
    refine ⟨?_, (hsub _).nodup (hperm.nodup_iff.2 (nodup_filterPeers _ _)), ?_⟩
    · rw [CircuitPlan.relayAddrs, List.length_map, List.length_take, (rng.shuffle.perm _).length_eq,
        length_candidatePeers]
      omega
    · intro addr haddr
      exact mem_candidatePeers.1 (hperm.mem_iff.1 ((hsub _).subset haddr))

end Vx6.Onion
