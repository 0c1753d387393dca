import Vx6.Go.Time
import Vx6.Lib.Rotation
import Mathlib.Data.Rat.Floor

/-!
# The schedule of cover lookups

`HiddenDescriptorPrivacyConfig` of `dht/privacy_transport.go` and the part of `dht/hidden_lookup.go`
that decides how many cover lookups the background worker sends. `SetHiddenDescriptorPrivacy` fills in
what the given configuration leaves out and stores it. `scheduleBucketCover` cuts the period into as
many slots as there are base covers and takes the entry of the slot that is on.

The length of a slot is counted in whole seconds and divides the time. It is zero when a slot is
shorter than a second, and then the function panics (`scheduleBucketCover_eq_none`,
`short_slots_panic`). Otherwise the slots are in rotation (`bucketIndex_eq`), and `cover_schedule`
follows from what holds of rotations.
-/

set_option autoImplicit false

namespace Vx6.Dht

open Vx6.Go Vx6.Lib

/-! ## The configuration -/

structure HiddenDescriptorPrivacyConfig where
  relayHopCount : Int
  pollInterval : Duration
  cacheWindow : Duration
  coverLookups : Int
  coverInterval : Duration
  pollJitter : Duration
  fetchParallel : Int
  fetchBatchSize : Int
  diversityAttempts : Int
  minRelayNetworkGroups : Int
  minRelayProviderGroups : Int
  minRelayASNGroups : Int
  consensusGroups : Int
  consensusMinMatches : Int
  bucketPeriod : Duration
  bucketBaseCover : List Int
  anomalyEWMAWeight : Rat
  anomalyEscalationSteps : List Rat
  deriving DecidableEq

/-- A setting that must be positive, or else its default. -/
def positiveOr (fallback x : Int) : Int := if x ≤ 0 then fallback else x

def hiddenDescriptorCoverLookups : Int := 1

/-- `SetHiddenDescriptorPrivacy`: the configuration that is stored. -/
def setHiddenDescriptorPrivacy (cfg : HiddenDescriptorPrivacyConfig) : HiddenDescriptorPrivacyConfig :=
  let relayHopCount := positiveOr 3 cfg.relayHopCount
  let fetchParallel := positiveOr 2 cfg.fetchParallel
  let consensusGroups := positiveOr 3 cfg.consensusGroups
  { relayHopCount := relayHopCount
    pollInterval := positiveOr (12 * second) cfg.pollInterval
    cacheWindow := positiveOr (45 * second) cfg.cacheWindow
    -- first raised to zero, then to the default
    coverLookups := positiveOr hiddenDescriptorCoverLookups cfg.coverLookups
    coverInterval := positiveOr (18 * second) cfg.coverInterval
    pollJitter := positiveOr (3 * second) cfg.pollJitter
    fetchParallel := fetchParallel
    fetchBatchSize := max (positiveOr 6 cfg.fetchBatchSize) fetchParallel
    diversityAttempts := positiveOr 4 cfg.diversityAttempts
    minRelayNetworkGroups := positiveOr (min relayHopCount 3) cfg.minRelayNetworkGroups
    minRelayProviderGroups := positiveOr (min relayHopCount 2) cfg.minRelayProviderGroups
    minRelayASNGroups := max cfg.minRelayASNGroups 0
    consensusGroups := consensusGroups
    consensusMinMatches := min (positiveOr 2 cfg.consensusMinMatches) consensusGroups
    bucketPeriod := positiveOr (10 * minute) cfg.bucketPeriod
    bucketBaseCover := if cfg.bucketBaseCover.length = 0 then [1, 2, 1, 3, 2, 1] else cfg.bucketBaseCover
    anomalyEWMAWeight :=
      if cfg.anomalyEWMAWeight ≤ 0 ∨ 1 ≤ cfg.anomalyEWMAWeight then 1 / 5 else cfg.anomalyEWMAWeight
    anomalyEscalationSteps :=
      if cfg.anomalyEscalationSteps.length =
        0 then [1 / 5, 7 / 20, 11 / 20] else cfg.anomalyEscalationSteps }

theorem positiveOr_pos {d : Int} (h : 0 < d) (x : Int) : 0 < positiveOr d x := by
  rw [positiveOr]
  split_ifs with hx
  · exact h
  · exact not_le.1 hx

theorem positiveOr_of_pos {x : Int} (h : 0 < x) (fallback : Int) : positiveOr fallback x = x :=
  if_neg (not_le.2 h)

/-! ## The schedule -/

/-- Division of machine integers: it panics (`none`) on zero and rounds towards zero. -/
def quo (a b : Int) : Option Int := if b = 0 then none else some (a.tdiv b)

/-- The length of a slot. -/
def slotDuration (cfg : HiddenDescriptorPrivacyConfig) : Duration :=
  let period := if cfg.bucketPeriod ≤ 0 then 10 * minute else cfg.bucketPeriod
  let slotDur := period.tdiv cfg.bucketBaseCover.length
  if slotDur ≤ 0 then minute else slotDur

/-- The slot that is on, when there are slots. -/
def bucketIndex (cfg : HiddenDescriptorPrivacyConfig) (now : Time) : Option Int := do
  let steps : Int := cfg.bucketBaseCover.length
  let turns ← quo (unix now) ((slotDuration cfg).tdiv second)
  let idx := turns.tmod steps
  some (if idx < 0 then idx + steps else idx)

/-- `scheduleBucketCover`; `none` is a panic. -/
def scheduleBucketCover (cfg : HiddenDescriptorPrivacyConfig) (now : Time) : Option Int :=
  if cfg.bucketBaseCover.length = 0 then some 0
  else do
    let idx ← bucketIndex cfg now
    let cover ← cfg.bucketBaseCover[idx.toNat]?
    some (if cover < 0 then 0 else cover)

/-- `effectiveCoverLookupCount`: the base and the cover of the slot, multiplied by the number of
escalation steps that the anomaly level has reached, and one. -/
def effectiveCoverLookupCount (cfg : HiddenDescriptorPrivacyConfig) (now : Time) (anomalyEWMA : Rat) :
    Option Int := do
  let base := if cfg.coverLookups ≤ 0 then hiddenDescriptorCoverLookups else cfg.coverLookups
  let cover ← scheduleBucketCover cfg now
  let multiplier : Int := 1 + (cfg.anomalyEscalationSteps.countP fun th => th ≤ anomalyEWMA : Nat)
  some ((base + cover) * multiplier)

section Schedule

variable {cfg : HiddenDescriptorPrivacyConfig}

theorem slotDuration_pos (cfg : HiddenDescriptorPrivacyConfig) : 0 < slotDuration cfg :=
  positiveOr_pos (d := minute) (by decide) _

/-- A slot has no whole second exactly when it is shorter than one. -/
theorem slotSeconds_eq_zero : (slotDuration cfg).tdiv second = 0 ↔ slotDuration cfg < second := by
  have key : ∀ x : Int, 0 < x → (x.tdiv 1000000000 = 0 ↔ x < 1000000000) := by
    intro x hx
    rw [Int.tdiv_eq_ediv_of_nonneg hx.le]
    omega
  exact key _ (slotDuration_pos cfg)

/-- The slots are in rotation. -/
theorem bucketIndex_eq (hslots : 0 < cfg.bucketBaseCover.length) (hslot : second ≤ slotDuration cfg)
    (now : Time) :
    bucketIndex cfg now =
      some (slotAt ((slotDuration cfg).tdiv second) cfg.bucketBaseCover.length (unix now)) := by
  have hne : (slotDuration cfg).tdiv second ≠ 0 :=
    fun h => absurd (slotSeconds_eq_zero.1 h) (not_lt.2 hslot)
  simp only [bucketIndex, quo, if_neg hne, Option.bind_eq_bind, Option.bind_some, slotAt]
  rw [wrap_tmod (by omega)]

/-- The cover of the slot that is on. -/
theorem scheduleBucketCover_eq (hslots : 0 < cfg.bucketBaseCover.length)
    (hslot : second ≤ slotDuration cfg)
    (now : Time) :
    ∃ cover ∈ cfg.bucketBaseCover, scheduleBucketCover cfg now = some (max cover 0) := by
  have hindex := bucketIndex_eq hslots hslot now
  have hnonneg := slotAt_nonneg ((slotDuration cfg).tdiv second) hslots (unix now)
  have hlt := slotAt_lt ((slotDuration cfg).tdiv second) hslots (unix now)
  have hbound : (slotAt ((slotDuration cfg).tdiv second) cfg.bucketBaseCover.length (unix now)).toNat <
      cfg.bucketBaseCover.length := by omega
  refine ⟨_, List.getElem_mem hbound, ?_⟩
  simp only [scheduleBucketCover, if_neg hslots.ne', hindex, Option.bind_eq_bind, Option.bind_some,
    List.getElem?_eq_getElem hbound, Option.some.injEq]
  split_ifs with hneg
  · exact (max_eq_right hneg.le).symm
  · exact (max_eq_left (not_lt.1 hneg)).symm

/-- The function panics exactly when there are slots and they are shorter than a second. -/
theorem scheduleBucketCover_eq_none {now : Time} :
    scheduleBucketCover cfg now = none ↔ cfg.bucketBaseCover ≠ [] ∧ slotDuration cfg < second := by
  constructor
  · intro h
    have hne : cfg.bucketBaseCover ≠ [] := by
      intro hnil
      simp [scheduleBucketCover, hnil] at h
    refine ⟨hne, lt_of_not_ge fun hslot => ?_⟩
    obtain ⟨cover, -, hcover⟩ := scheduleBucketCover_eq (List.length_pos_iff.2 hne) hslot now
    rw [hcover] at h
    cases h
  · rintro ⟨hne, hslot⟩
    have hzero := slotSeconds_eq_zero.2 hslot
    simp [scheduleBucketCover, bucketIndex, quo, hne, hzero]

/-! The stored configuration. -/

theorem bucketBaseCover_length_pos (cfg : HiddenDescriptorPrivacyConfig) :
    0 < (setHiddenDescriptorPrivacy cfg).bucketBaseCover.length := by
  rw [setHiddenDescriptorPrivacy]
  by_cases hlen : cfg.bucketBaseCover.length = 0
  · simp [hlen]
  · simp only [hlen, if_false]
    exact Nat.pos_of_ne_zero hlen

/-- With a second for each slot, the slots are at least a second long and fit in the period. -/
theorem slotDuration_fits (hslots : 0 < cfg.bucketBaseCover.length)
    (h : (cfg.bucketBaseCover.length : Int) * second ≤ cfg.bucketPeriod) :
    second ≤ slotDuration cfg ∧
      (cfg.bucketBaseCover.length : Int) * ((slotDuration cfg).tdiv second * second) ≤
        cfg.bucketPeriod := by
  have hn : (0 : Int) < cfg.bucketBaseCover.length := by omega
  have hsecond : (0 : Int) < second := by decide
  have hperiod : (0 : Int) < cfg.bucketPeriod := lt_of_lt_of_le (Int.mul_pos hn hsecond) h
  have hshare : second ≤ cfg.bucketPeriod / (cfg.bucketBaseCover.length : Int) :=
    Int.le_ediv_of_mul_le hn (by rwa [Int.mul_comm])
  have heq : slotDuration cfg = cfg.bucketPeriod / (cfg.bucketBaseCover.length : Int) := by
    have hslot : slotDuration cfg =
        positiveOr minute (cfg.bucketPeriod.tdiv cfg.bucketBaseCover.length) := by
      rw [slotDuration, if_neg (not_le.2 hperiod), positiveOr]
    rw [hslot, Int.tdiv_eq_ediv_of_nonneg hperiod.le, positiveOr_of_pos (hsecond.trans_le hshare)]
  rw [heq]
  refine ⟨hshare, ?_⟩
  rw [Int.tdiv_eq_ediv_of_nonneg (hsecond.trans_le hshare).le]
  calc (cfg.bucketBaseCover.length : Int) *
        (cfg.bucketPeriod / (cfg.bucketBaseCover.length : Int) / second * second)
      ≤ cfg.bucketBaseCover.length * (cfg.bucketPeriod / (cfg.bucketBaseCover.length : Int)) :=
        Int.mul_le_mul_of_nonneg_left (Int.ediv_mul_le _ hsecond.ne') hn.le
    _ ≤ cfg.bucketPeriod := Int.mul_ediv_self_le hn.ne'

theorem unix_add_seconds (now : Time) (k : Int) : unix (now + k * second) = unix now + k :=
  Int.add_mul_ediv_right _ _ (by decide)

theorem slotSeconds_pos (hslot : second ≤ slotDuration cfg) : 0 < (slotDuration cfg).tdiv second := by
  have hne : (slotDuration cfg).tdiv second ≠ 0 :=
    fun h => absurd (slotSeconds_eq_zero.1 h) (not_lt.2 hslot)
  have hnonneg : 0 ≤ (slotDuration cfg).tdiv second :=
    Int.tdiv_nonneg (slotDuration_pos cfg).le (by decide)
  exact lt_of_le_of_ne hnonneg hne.symm

/-- From one second to the next the slot that is on stays on or hands over to the next one. -/
theorem bucketIndex_next (hslots : 0 < cfg.bucketBaseCover.length) (hslot : second ≤ slotDuration cfg)
    {now later : Time} (hle : now ≤ later) (hsecond : later ≤ now + second) :
    bucketIndex cfg later = bucketIndex cfg now ∨
      bucketIndex cfg later =
        (bucketIndex cfg now).map fun i => (i + 1) % (cfg.bucketBaseCover.length : Int) := by
  have hlow : unix now ≤ unix later := unix_mono hle
  have hhigh : unix later ≤ unix now + 1 := by
    have hmono := unix_mono hsecond
    have hstep := unix_add_seconds now 1
    rw [one_mul] at hstep
    rwa [hstep] at hmono
  have hcase : unix later = unix now ∨ unix later = unix now + 1 := by omega
  simp only [bucketIndex_eq hslots hslot, Option.map_some, Option.some.injEq]
  rcases hcase with hsame | hnext
  · exact .inl (by rw [hsame])
  · rw [hnext]
    exact slotAt_succ (slotSeconds_pos hslot) (unix now)

/-- Every slot comes on within one period. -/
theorem exists_bucketIndex (hslots : 0 < cfg.bucketBaseCover.length)
    (h : (cfg.bucketBaseCover.length : Int) * second ≤ cfg.bucketPeriod) (now : Time) {i : Int}
    (hi : 0 ≤ i)
    (hlt : i < cfg.bucketBaseCover.length) :
    ∃ later, now ≤ later ∧ later < now + cfg.bucketPeriod ∧ bucketIndex cfg later = some i := by
  obtain ⟨hslot, hround⟩ := slotDuration_fits hslots h
  obtain ⟨x, hlow, hhigh, hx⟩ := exists_slotAt (slotSeconds_pos hslot) (unix now) hi hlt
  refine ⟨now + (x - unix now) * second, ?_, ?_, ?_⟩
  · have hnonneg : 0 ≤ (x - unix now) * second := Int.mul_nonneg (by omega) (by decide)
    exact le_add_of_nonneg_right hnonneg
  · have hsecond : (0 : Int) < second := by decide
    have hwithin : (x - unix now) * second < cfg.bucketPeriod := by
      calc (x - unix now) * second
          < (cfg.bucketBaseCover.length * (slotDuration cfg).tdiv second) * second :=
            Int.mul_lt_mul_of_pos_right (by omega) hsecond
        _ ≤ cfg.bucketPeriod := by rwa [Int.mul_assoc]
    exact Int.add_lt_add_left hwithin now
  · rw [bucketIndex_eq hslots hslot, unix_add_seconds, add_sub_cancel, hx]

end Schedule

/-- With a second of its period for every base cover, a stored configuration has a cover at every
time: an entry of the list that is not negative, or zero. The index stays or goes on to the next slot
from one second to the next, and it meets every slot within one period. -/
theorem cover_schedule (cfg : HiddenDescriptorPrivacyConfig)
    (h : ((setHiddenDescriptorPrivacy cfg).bucketBaseCover.length : Int) * second ≤
      (setHiddenDescriptorPrivacy cfg).bucketPeriod) :
    let stored := setHiddenDescriptorPrivacy cfg
    let slots := stored.bucketBaseCover.length
    (∀ now, ∃ cover, scheduleBucketCover stored now = some cover ∧ 0 ≤ cover ∧
      (cover ∈ stored.bucketBaseCover ∨ cover = 0)) ∧
    (∀ now, ∃ i : Nat, i < slots ∧ bucketIndex stored now = some (i : Int) ∧
      ∀ later, now ≤ later → later ≤ now + second →
        bucketIndex stored later = some (i : Int) ∨
          bucketIndex stored later = some (((i + 1) % slots : Nat) : Int)) ∧
    ∀ now, ∀ i < slots, ∃ later, now ≤ later ∧ later < now + stored.bucketPeriod ∧
      bucketIndex stored later = some (i : Int) := by
  intro stored slots
  have hslots : 0 < stored.bucketBaseCover.length := bucketBaseCover_length_pos cfg
  obtain ⟨hslot, -⟩ := slotDuration_fits hslots h
  refine ⟨fun now => ?_, fun now => ?_, fun now i hi => ?_⟩
  · obtain ⟨cover, hmem, hcover⟩ := scheduleBucketCover_eq hslots hslot now
    refine ⟨_, hcover, le_max_right _ _, ?_⟩
    rcases le_total cover 0 with hneg | hpos
    · exact .inr (max_eq_right hneg)
    · exact .inl (by rwa [max_eq_left hpos])
  · have hindex := bucketIndex_eq hslots hslot now
    obtain ⟨i, hi⟩ := Int.eq_ofNat_of_zero_le
      (slotAt_nonneg ((slotDuration stored).tdiv second) hslots (unix now))
    have hlt := slotAt_lt ((slotDuration stored).tdiv second) hslots (unix now)
    rw [hi] at hindex hlt
    refine ⟨i, Int.ofNat_lt.1 hlt, hindex, fun later hle hsecond => ?_⟩
    have hnext := bucketIndex_next hslots hslot hle hsecond
    rw [hindex] at hnext
    exact_mod_cast hnext
  · exact exists_bucketIndex hslots h now (Int.natCast_nonneg i) (Int.ofNat_lt.2 hi)

/-- The configuration in which nothing is set. -/
def unsetConfig : HiddenDescriptorPrivacyConfig where
  relayHopCount := 0
  pollInterval := 0
  cacheWindow := 0
  coverLookups := 0
  coverInterval := 0
  pollJitter := 0
  fetchParallel := 0
  fetchBatchSize := 0
  diversityAttempts := 0
  minRelayNetworkGroups := 0
  minRelayProviderGroups := 0
  minRelayASNGroups := 0
  consensusGroups := 0
  consensusMinMatches := 0
  bucketPeriod := 0
  bucketBaseCover := []
  anomalyEWMAWeight := 0
  anomalyEscalationSteps := []

/-- The default schedule: six slots in ten minutes. -/
theorem cover_schedule_default :
    (setHiddenDescriptorPrivacy unsetConfig).bucketBaseCover = [1, 2, 1, 3, 2, 1] ∧
    (∀ now, ∃ cover, scheduleBucketCover (setHiddenDescriptorPrivacy unsetConfig) now = some cover ∧
      0 ≤ cover ∧ (cover ∈ (setHiddenDescriptorPrivacy unsetConfig).bucketBaseCover ∨ cover = 0)) ∧
    ∀ now, ∀ i : Nat, i < 6 → ∃ later, now ≤ later ∧ later < now + 10 * minute ∧
      bucketIndex (setHiddenDescriptorPrivacy unsetConfig) later = some (i : Int) := by
  have h := cover_schedule unsetConfig (by decide)
  exact ⟨rfl, h.1, fun now i hi => h.2.2 now i hi⟩

/-- With a period of five seconds the six default slots are shorter than a second each, and the count
of cover lookups panics at every time. -/
theorem short_slots_panic :
    ∃ cfg : HiddenDescriptorPrivacyConfig, cfg.bucketPeriod = 5 * second ∧ ∀ now anomalyEWMA,
      scheduleBucketCover (setHiddenDescriptorPrivacy cfg) now = none ∧
        effectiveCoverLookupCount (setHiddenDescriptorPrivacy cfg) now anomalyEWMA = none := by
  refine ⟨{ unsetConfig with bucketPeriod := 5 * second }, rfl, ?_⟩
  intro now anomalyEWMA
  have hnone : scheduleBucketCover
      (setHiddenDescriptorPrivacy { unsetConfig with bucketPeriod := 5 * second }) now = none :=
    scheduleBucketCover_eq_none.2 ⟨List.cons_ne_nil _ _, by decide⟩
  exact ⟨hnone, by rw [effectiveCoverLookupCount, hnone]; rfl⟩

end Vx6.Dht
