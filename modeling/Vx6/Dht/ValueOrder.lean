import Vx6.Dht.Publish
import Vx6.Lib.Newest
import Mathlib.Data.Prod.Lex
import Mathlib.Data.String.Basic

/-!
# The order of validated values

`isNewerValue` compares the version number first. Between two sequence-based values of one version
the fingerprint decides; otherwise the issue time does, and the fingerprint after it. The two
tie-breaks disagree, so the comparison is not transitive: `strictOn_iff_consistent` gives the exact
condition on a list of values under which it orders their fingerprints strictly and totally.

The second half compares `isNewerValue` with `EndpointRecordNewer` on endpoint records
(`newer_orders_agree_iff`).
-/

set_option autoImplicit false

namespace Vx6.Dht

open Vx6.Go Vx6.Lib Vx6.Record

/-- Issue time, then fingerprint. -/
def ValidatedValue.stamp (v : ValidatedValue) : Time ×ₗ String := toLex (v.issuedAt, v.fingerprint)

/-- `isNewerValue` as a proposition. -/
def Newer (a b : ValidatedValue) : Prop := isNewerValue a b = true

instance : DecidableRel Newer := fun a b => inferInstanceAs (Decidable (isNewerValue a b = true))

theorem stamp_lt_iff (a b : ValidatedValue) :
    a.stamp < b.stamp ↔
      a.issuedAt < b.issuedAt ∨ a.issuedAt = b.issuedAt ∧ a.fingerprint < b.fingerprint :=
  Prod.Lex.toLex_lt_toLex

/-- The comparison, one clause for each level. -/
theorem newer_iff (a b : ValidatedValue) :
    Newer a b ↔ b.version.toNat < a.version.toNat ∨ a.version = b.version ∧
      if a.sequenceBased ∧ b.sequenceBased then b.fingerprint < a.fingerprint
      else b.stamp < a.stamp := by
  unfold Newer isNewerValue
  rw [stamp_lt_iff]
  simp only [UInt64.lt_iff_toNat_lt, ← UInt64.toNat_inj]
  rcases lt_trichotomy a.version.toNat b.version.toNat with hv | hv | hv
  · simp [hv, not_lt_of_gt hv, hv.ne]
  · by_cases hs : a.sequenceBased = true ∧ b.sequenceBased = true
    · simp [hv, hs.1, hs.2]
    · have hs' : (a.sequenceBased && b.sequenceBased) = false := by simpa using hs
      rcases lt_trichotomy a.issuedAt b.issuedAt with ht | ht | ht
      · simp [hv, hs, hs', ht, not_lt_of_gt ht, ht.ne']
      · simp [hv, hs, hs', ht]
      · simp [hv, hs, hs', ht]
  · simp [hv]

/-- Values that are both sequence-based and share their version are ordered by fingerprint. -/
theorem newer_iff_of_sequence {a b : ValidatedValue} (hv : a.version = b.version)
    (ha : a.sequenceBased = true) (hb : b.sequenceBased = true) :
    Newer a b ↔ b.fingerprint < a.fingerprint := by
  simp [newer_iff, hv, ha, hb]

/-- Other values that share their version are ordered by stamp. -/
theorem newer_iff_of_stamp {a b : ValidatedValue} (hv : a.version = b.version)
    (h : ¬ (a.sequenceBased = true ∧ b.sequenceBased = true)) :
    Newer a b ↔ b.stamp < a.stamp := by
  simp [newer_iff, hv, h]

theorem newer_asymm {a b : ValidatedValue} (hab : Newer a b) : ¬ Newer b a := by
  intro hba
  rw [newer_iff] at hab hba
  rcases hab with hab | ⟨hv, hab⟩
  · rcases hba with hba | ⟨hv', -⟩
    · omega
    · rw [hv'] at hab
      omega
  · rcases hba with hba | ⟨-, hba⟩
    · rw [hv] at hba
      omega
    · by_cases hs : a.sequenceBased = true ∧ b.sequenceBased = true
      · rw [if_pos hs] at hab
        rw [if_pos hs.symm] at hba
        exact lt_asymm hab hba
      · rw [if_neg hs] at hab
        rw [if_neg (fun h => hs h.symm)] at hba
        exact lt_asymm hab hba

/-- A newer value never has a smaller version number. -/
theorem version_le_of_newer {a b : ValidatedValue} (h : Newer a b) :
    b.version.toNat ≤ a.version.toNat := by
  rcases (newer_iff a b).1 h with h | ⟨hv, -⟩
  · exact h.le
  · exact (congrArg UInt64.toNat hv).ge

/-- Values with different fingerprints are comparable. -/
theorem newer_total {a b : ValidatedValue} (h : a.fingerprint ≠ b.fingerprint) :
    Newer a b ∨ Newer b a := by
  rcases lt_trichotomy a.version.toNat b.version.toNat with hv | hv | hv
  · exact Or.inr ((newer_iff b a).2 (Or.inl hv))
  · have hv := UInt64.toNat_inj.1 hv
    by_cases hs : a.sequenceBased = true ∧ b.sequenceBased = true
    · rw [newer_iff_of_sequence hv hs.1 hs.2, newer_iff_of_sequence hv.symm hs.2 hs.1]
      exact h.lt_or_gt.symm
    · rw [newer_iff_of_stamp hv hs, newer_iff_of_stamp hv.symm fun h => hs h.symm]
      refine Ne.lt_or_gt fun he => h ?_
      exact (congrArg (fun p => (ofLex p).2) he).symm
  · exact Or.inl ((newer_iff a b).2 (Or.inl hv))

/-! ## When the comparison is an order -/

/-- The condition under which the two tie-breaks do not contradict each other: values with one
fingerprint agree on version and issue time (between two sequence-based values the time does not
matter), and where the stamp of an issue-time value lies between those of two sequence-based values
of its version, their fingerprints are ordered as their stamps are. -/
structure Consistent (S : ValidatedValue → Prop) : Prop where
  same : ∀ a b, S a → S b → a.fingerprint = b.fingerprint →
    a.version = b.version ∧
      (a.sequenceBased = true ∧ b.sequenceBased = true ∨ a.issuedAt = b.issuedAt)
  between : ∀ x y n, S x → S y → S n → x.sequenceBased = true → y.sequenceBased = true →
    n.sequenceBased = false → x.version = n.version → y.version = n.version →
    y.stamp ≤ n.stamp → n.stamp ≤ x.stamp → y.stamp < x.stamp → y.fingerprint < x.fingerprint

theorem not_newer_of_same {a b : ValidatedValue} (hfp : a.fingerprint = b.fingerprint)
    (hv : a.version = b.version)
    (h : a.sequenceBased = true ∧ b.sequenceBased = true ∨ a.issuedAt = b.issuedAt) :
    ¬ Newer a b := by
  by_cases hs : a.sequenceBased = true ∧ b.sequenceBased = true
  · rw [newer_iff_of_sequence hv hs.1 hs.2, hfp]
    exact lt_irrefl _
  · rw [newer_iff_of_stamp hv hs, stamp_lt_iff, h.resolve_left hs, hfp]
    simp

theorem same_of_not_newer {a b : ValidatedValue} (hab : ¬ Newer a b) (hba : ¬ Newer b a) :
    a.version = b.version ∧
      (a.sequenceBased = true ∧ b.sequenceBased = true ∨ a.issuedAt = b.issuedAt) := by
  have hv : a.version = b.version := by
    rw [← UInt64.toNat_inj]
    refine le_antisymm (not_lt.1 fun h => hab ?_) (not_lt.1 fun h => hba ?_)
    · exact (newer_iff a b).2 (Or.inl h)
    · exact (newer_iff b a).2 (Or.inl h)
  refine ⟨hv, or_iff_not_imp_left.2 fun hs => ?_⟩
  rw [newer_iff_of_stamp hv hs, stamp_lt_iff] at hab
  rw [newer_iff_of_stamp hv.symm (fun h => hs h.symm), stamp_lt_iff] at hba
  exact le_antisymm (not_lt.1 fun h => hab (Or.inl h)) (not_lt.1 fun h => hba (Or.inl h))

/-- Transitivity among values of one version; `between` is needed when exactly two of them are
sequence-based. -/
theorem Consistent.newer_trans {S : ValidatedValue → Prop} (hS : Consistent S)
    {a b c : ValidatedValue} (ha : S a) (hb : S b) (hc : S c) (hvab : a.version = b.version)
    (hvbc : b.version = c.version) (hab : Newer a b) (hbc : Newer b c) : Newer a c := by
  have hvac := hvab.trans hvbc
  cases hsa : a.sequenceBased with
  | true =>
    cases hsb : b.sequenceBased with
    | true =>
      rw [newer_iff_of_sequence hvab hsa hsb] at hab
      cases hsc : c.sequenceBased with
      | true =>
        rw [newer_iff_of_sequence hvbc hsb hsc] at hbc
        rw [newer_iff_of_sequence hvac hsa hsc]
        exact hbc.trans hab
      | false =>
        rw [newer_iff_of_stamp hvbc (by simp [hsc])] at hbc
        rw [newer_iff_of_stamp hvac (by simp [hsc])]
        by_contra hlt
        exact lt_asymm hab (hS.between b a c hb ha hc hsb hsa hsc hvbc hvac (not_lt.1 hlt) hbc.le
          (lt_of_le_of_lt (not_lt.1 hlt) hbc))
    | false =>
      rw [newer_iff_of_stamp hvab (by simp [hsb])] at hab
      rw [newer_iff_of_stamp hvbc (by simp [hsb])] at hbc
      cases hsc : c.sequenceBased with
      | true =>
        rw [newer_iff_of_sequence hvac hsa hsc]
        exact hS.between a c b ha hc hb hsa hsc hsb hvab hvbc.symm hbc.le hab.le (hbc.trans hab)
      | false =>
        rw [newer_iff_of_stamp hvac (by simp [hsc])]
        exact hbc.trans hab
  | false =>
    rw [newer_iff_of_stamp hvab (by simp [hsa])] at hab
    rw [newer_iff_of_stamp hvac (by simp [hsa])]
    by_cases hs : b.sequenceBased = true ∧ c.sequenceBased = true
    · rw [newer_iff_of_sequence hvbc hs.1 hs.2] at hbc
      by_contra hlt
      exact lt_asymm hbc (hS.between c b a hc hb ha hs.2 hs.1 hsa hvac.symm hvab.symm hab.le
        (not_lt.1 hlt) (lt_of_lt_of_le hab (not_lt.1 hlt)))
    · rw [newer_iff_of_stamp hvbc hs] at hbc
      exact hbc.trans hab

theorem Consistent.strictOn {S : ValidatedValue → Prop} (hS : Consistent S) :
    StrictOn Newer ValidatedValue.fingerprint S where
  irrefl a b ha hb hfp :=
    let h := hS.same a b ha hb hfp
    not_newer_of_same hfp h.1 h.2
  trans a b c ha hb hc hab hbc := by
    have h1 := version_le_of_newer hab
    have h2 := version_le_of_newer hbc
    by_cases hv : a.version = b.version ∧ b.version = c.version
    · exact hS.newer_trans ha hb hc hv.1 hv.2 hab hbc
    · refine (newer_iff a c).2 (Or.inl (lt_of_le_of_ne (h2.trans h1) fun he => hv ?_))
      rw [← UInt64.toNat_inj, ← UInt64.toNat_inj]
      omega
  total a b _ _ hne := newer_total hne

/-- The comparison orders the fingerprints of `S` strictly and totally exactly when `S` is
consistent. -/
theorem strictOn_iff_consistent (S : ValidatedValue → Prop) :
    StrictOn Newer ValidatedValue.fingerprint S ↔ Consistent S := by
  refine ⟨fun h => ⟨?_, ?_⟩, Consistent.strictOn⟩
  · intro a b ha hb hfp
    exact same_of_not_newer (h.irrefl a b ha hb hfp) (h.irrefl b a hb ha hfp.symm)
  · intro x y n hx hy hn hsx hsy hsn hvx hvy hyn hnx hyx
    have hxn : n.stamp < x.stamp → Newer x n := (newer_iff_of_stamp hvx (by simp [hsn])).2
    have hny : y.stamp < n.stamp → Newer n y := (newer_iff_of_stamp hvy.symm (by simp [hsn])).2
    have hcls : ∀ {u w : ValidatedValue}, u.stamp = w.stamp → u.fingerprint = w.fingerprint :=
      fun he => congrArg (fun p => (ofLex p).2) he
    by_contra hfp
    -- the sequence-based pair is ordered against its stamps, or not at all
    rcases hyn.eq_or_lt with heq | hlt
    · have hxn' := hxn (heq ▸ hyx)
      rcases eq_or_lt_of_le (not_lt.1 hfp) with he | hlt'
      · exact h.irrefl x n hx hn (he.trans (hcls heq)) hxn'
      · have hyx' := (newer_iff_of_sequence (hvy.trans hvx.symm) hsy hsx).2 hlt'
        have hyn' := h.trans y x n hy hx hn hyx' hxn'
        rw [newer_iff_of_stamp hvy (by simp [hsn]), heq] at hyn'
        exact lt_irrefl _ hyn'
    · rcases hnx.eq_or_lt with heq | hlt''
      · rcases eq_or_lt_of_le (not_lt.1 hfp) with he | hlt'
        · exact h.irrefl n y hn hy ((hcls heq).trans he) (hny hlt)
        · have hyx' := (newer_iff_of_sequence (hvy.trans hvx.symm) hsy hsx).2 hlt'
          have hnx' := h.trans n y x hn hy hx (hny hlt) hyx'
          rw [newer_iff_of_stamp hvx.symm (by simp [hsn]), heq] at hnx'
          exact lt_irrefl _ hnx'
      · have hxy := h.trans x n y hx hn hy (hxn hlt'') (hny hlt)
        rw [newer_iff_of_sequence (hvx.trans hvy.symm) hsx hsy] at hxy
        exact hfp hxy

/-! ## Endpoint records -/

/-- The number `isNewerValue` compares first, for a record with the given issue time: the sequence
of version 2, the issue time as an unsigned number of seconds before that. -/
def rank (rec : EndpointRecord) (issuedAt : Time) : Nat :=
  if 2 ≤ rec.version then rec.sequence.toNat else (unix issuedAt % 2 ^ 64).toNat

/-- One record is preferred to another by rank, then issue time, then fingerprint. -/
def Outranks (cr : Crypto) (a b : EndpointRecord) (ta tb : Time) : Prop :=
  rank b tb < rank a ta ∨
    rank a ta = rank b tb ∧
      (tb < ta ∨ ta = tb ∧ Record.fingerprint cr b < Record.fingerprint cr a)

theorem outranks_asymm {cr : Crypto} {a b : EndpointRecord} {ta tb : Time}
    (h : Outranks cr a b ta tb) : ¬ Outranks cr b a tb ta := by
  rintro (h' | ⟨he', h'⟩)
  · rcases h with h | ⟨he, -⟩ <;> omega
  · rcases h with h | ⟨-, h | ⟨ht, h⟩⟩
    · omega
    · rcases h' with h' | ⟨ht', -⟩
      · exact lt_asymm h h'
      · exact h.ne ht'
    · rcases h' with h' | ⟨-, h'⟩
      · exact h'.ne ht
      · exact lt_asymm h h'

/-- The condition under which the two orders of endpoint records agree on a pair. Within version 2
they always do. Within one legacy version they do when both issue times lie on the same side of
1970. Across versions the record of the higher version must also outrank the other. -/
def OrdersAgree (cr : Crypto) (a b : EndpointRecord) (ta tb : Time) : Prop :=
  if a.version = b.version then 2 ≤ a.version ∨ (unix ta < 0 ↔ unix tb < 0)
  else if b.version < a.version then Outranks cr a b ta tb
  else ¬ Outranks cr a b ta tb

theorem keyFamily_nodeIDKey (id : String) : keyFamily (nodeIDKey id) = .nodeID := by
  simp [keyFamily, nodeIDKey, hasPrefix, KeyFamily.tag]

section Endpoint

variable {rt : Runtime} {id raw : String} {now : Time} {v : ValidatedValue}

/-- What validation under a node ID key says about the record and its value. -/
theorem validateInnerLookupValue_nodeID_ok {rec : EndpointRecord}
    (hdec : rt.decodeEndpoint raw = some rec)
    (h : validateInnerLookupValue rt (nodeIDKey id) raw now = .ok v) :
    rec.version ≤ 2 ∧ parseRFC3339 rec.issuedAt = some v.issuedAt ∧
      ∃ times, v = endpointValue rt.toCrypto raw rec times := by
  simp only [validateInnerLookupValue, keyFamily_nodeIDKey] at h
  obtain ⟨rec', times, hdec', hver, -, htimes, rfl⟩ := validateEndpoint_ok h
  rw [hdec] at hdec'
  cases hdec'
  simp only [recordTimes, bind_eq_ok, orReject_eq_ok, pure_eq_ok] at htimes
  obtain ⟨issuedAt, hissued, expiresAt, -, rfl⟩ := htimes
  exact ⟨(verifyEndpointRecord_ok hver).1, hissued, _, rfl⟩

theorem endpointValue_issuedAt (cr : Crypto) (rec : EndpointRecord) (times : RecordTimes) :
    (endpointValue cr raw rec times).issuedAt = times.issuedAt := rfl

theorem endpointValue_version_toNat {cr : Crypto} {rec : EndpointRecord} {times : RecordTimes}
    (h : parseRFC3339 rec.issuedAt = some times.issuedAt) :
    (endpointValue cr raw rec times).version.toNat = rank rec times.issuedAt := by
  simp only [endpointValue, endpointRecordSequenceVersion, rank, h]
  split_ifs
  · rfl
  · exact toUInt64_toNat _

/-- Unless both records have version 2, the values of two records are ordered by rank. -/
theorem newer_endpointValue_iff {cr : Crypto} {rawA rawB : String} {a b : EndpointRecord}
    {ta tb : RecordTimes} (ha : parseRFC3339 a.issuedAt = some ta.issuedAt)
    (hb : parseRFC3339 b.issuedAt = some tb.issuedAt) (hv : ¬ (2 ≤ a.version ∧ 2 ≤ b.version)) :
    Newer (endpointValue cr rawA a ta) (endpointValue cr rawB b tb) ↔
      Outranks cr a b ta.issuedAt tb.issuedAt := by
  have hseq : ¬ ((endpointValue cr rawA a ta).sequenceBased = true ∧
      (endpointValue cr rawB b tb).sequenceBased = true) := by
    simpa [endpointValue] using hv
  rw [newer_iff, if_neg hseq, ← UInt64.toNat_inj, endpointValue_version_toNat ha,
    endpointValue_version_toNat hb, stamp_lt_iff, Outranks]
  simp only [endpointValue]
  constructor
  · rintro (h | ⟨h, h' | h'⟩)
    · exact Or.inl h
    · exact Or.inr ⟨h, Or.inl h'⟩
    · exact Or.inr ⟨h, Or.inr ⟨h'.1.symm, h'.2⟩⟩
  · rintro (h | ⟨h, h' | h'⟩)
    · exact Or.inl h
    · exact Or.inr ⟨h, Or.inl h'⟩
    · exact Or.inr ⟨h, Or.inr ⟨h'.1.symm, h'.2⟩⟩

/-- Within version 2 both orders compare the sequences first. -/
theorem newer_endpointValue_of_sequence {cr : Crypto} {rawA rawB : String} {a b : EndpointRecord}
    {ta tb : RecordTimes} (ha : 2 ≤ a.version) (hb : 2 ≤ b.version)
    (h : b.sequence < a.sequence) :
    Newer (endpointValue cr rawA a ta) (endpointValue cr rawB b tb) := by
  rw [newer_iff]
  left
  simpa [endpointValue, endpointRecordSequenceVersion, ha, hb, ← UInt64.lt_iff_toNat_lt] using h

/-- Legacy records with issue times on one side of 1970 outrank each other as their times do. -/
theorem outranks_of_lt {cr : Crypto} {a b : EndpointRecord} {ta tb : Time}
    (hva : ¬ 2 ≤ a.version) (hvb : ¬ 2 ≤ b.version) (hta : -2 ^ 62 ≤ unix ta ∧ unix ta < 2 ^ 62)
    (htb : -2 ^ 62 ≤ unix tb ∧ unix tb < 2 ^ 62) (hside : unix ta < 0 ↔ unix tb < 0)
    (hlt : tb < ta) : Outranks cr a b ta tb := by
  have hle : unix tb ≤ unix ta := unix_mono hlt.le
  unfold Outranks rank
  rw [if_neg hva, if_neg hvb]
  rcases hle.eq_or_lt with he | hl
  · exact Or.inr ⟨by rw [he], Or.inl hlt⟩
  · left
    omega

/-- A legacy record issued before 1970 outranks one issued after it. -/
theorem outranks_of_sides {cr : Crypto} {a b : EndpointRecord} {ta tb : Time}
    (hva : ¬ 2 ≤ a.version) (hvb : ¬ 2 ≤ b.version) (hta : -2 ^ 62 ≤ unix ta ∧ unix ta < 0)
    (htb : 0 ≤ unix tb ∧ unix tb < 2 ^ 62) :
    Outranks cr a b ta tb ∧ ¬ Outranks cr b a tb ta ∧ ta < tb := by
  have hrank : rank b tb < rank a ta := by
    unfold rank
    rw [if_neg hva, if_neg hvb]
    omega
  refine ⟨Or.inl hrank, ?_, ?_⟩
  · rintro (h | ⟨h, -⟩) <;> omega
  · exact not_le.1 fun h => absurd (unix_mono h) (by omega)

/-- `EndpointRecordNewer` implies `isNewerValue` on the validated values, and its converse excludes
it, exactly when `OrdersAgree` holds. -/
theorem newer_orders_agree_iff {rawA rawB : String} {nowA nowB : Time} {a b : EndpointRecord}
    {va vb : ValidatedValue} (ha : rt.decodeEndpoint rawA = some a)
    (hb : rt.decodeEndpoint rawB = some b)
    (hva : validateInnerLookupValue rt (nodeIDKey id) rawA nowA = .ok va)
    (hvb : validateInnerLookupValue rt (nodeIDKey id) rawB nowB = .ok vb) :
    ((endpointRecordNewer a b = true → isNewerValue va vb = true) ∧
        (endpointRecordNewer b a = true → isNewerValue va vb = false)) ↔
      OrdersAgree rt.toCrypto a b va.issuedAt vb.issuedAt := by
  obtain ⟨hversA, hta, ta, rfl⟩ := validateInnerLookupValue_nodeID_ok ha hva
  obtain ⟨hversB, htb, tb, rfl⟩ := validateInnerLookupValue_nodeID_ok hb hvb
  have hboundA := parseRFC3339_unix_bounds hta
  have hboundB := parseRFC3339_unix_bounds htb
  rw [← Bool.not_eq_true (isNewerValue _ _)]
  change (_ → Newer _ _) ∧ (_ → ¬ Newer _ _) ↔ _
  by_cases hv : a.version = b.version
  · rw [OrdersAgree, if_pos hv]
    by_cases h2 : 2 ≤ a.version
    · have h2b : 2 ≤ b.version := hv ▸ h2
      simp only [endpointRecordNewer, hv, h2b, ne_eq, not_true_eq_false, if_false, if_true,
        decide_eq_true_eq, true_or, iff_true]
      exact ⟨newer_endpointValue_of_sequence h2 h2b,
        fun h => newer_asymm (newer_endpointValue_of_sequence h2b h2 h)⟩
    · have h2b : ¬ 2 ≤ b.version := hv ▸ h2
      rw [newer_endpointValue_iff hta htb fun h => h2 h.1]
      simp only [endpointRecordNewer, hv, h2b, hta, htb, ne_eq, not_true_eq_false, if_false,
        decide_eq_true_eq, false_or]
      constructor
      · rintro ⟨hfwd, hbwd⟩
        constructor
        · intro hneg
          by_contra hpos
          obtain ⟨hout, -, hlt⟩ := outranks_of_sides h2 h2b ⟨hboundA.1, hneg⟩
            ⟨not_lt.1 hpos, hboundB.2⟩
          exact hbwd hlt hout
        · intro hneg
          by_contra hpos
          obtain ⟨-, hout, hlt⟩ := outranks_of_sides h2b h2 ⟨hboundB.1, hneg⟩
            ⟨not_lt.1 hpos, hboundA.2⟩
          exact hout (hfwd hlt)
      · intro hside
        exact ⟨outranks_of_lt h2 h2b hboundA hboundB hside, fun hlt =>
          outranks_asymm (outranks_of_lt h2b h2 hboundB hboundA hside.symm hlt)⟩
  · have hne : ¬ (2 ≤ a.version ∧ 2 ≤ b.version) := fun h =>
      hv ((UInt8.le_antisymm hversA h.1).trans (UInt8.le_antisymm hversB h.2).symm)
    rw [newer_endpointValue_iff hta htb hne, OrdersAgree, if_neg hv]
    simp only [endpointRecordNewer, ne_eq, hv, Ne.symm hv, not_false_eq_true, if_true,
      decide_eq_true_eq]
    by_cases hlt : b.version < a.version
    · simp [hlt, UInt8.lt_asymm hlt, endpointValue_issuedAt]
    · have hgt : a.version < b.version := UInt8.lt_of_le_of_ne (UInt8.not_lt.1 hlt) hv
      simp [hlt, hgt, endpointValue_issuedAt]

end Endpoint

/-- The two orders agree on two version 2 records of the sample identity. -/
theorem newer_orders_agree_late_first :
    (endpointRecordNewer lateRecord firstRecord = true →
        isNewerValue (sampleInner sampleCrypto lateRecord) (sampleInner sampleCrypto firstRecord) =
          true) ∧
      (endpointRecordNewer firstRecord lateRecord = true →
        isNewerValue (sampleInner sampleCrypto lateRecord) (sampleInner sampleCrypto firstRecord) =
          false) :=
  (newer_orders_agree_iff (decodeEndpoint_sample late_mem) (decodeEndpoint_sample first_mem)
    (validateInnerLookupValue_sample late_mem) (validateInnerLookupValue_sample first_mem)).2
    (by rw [OrdersAgree, if_pos (by decide)]; exact Or.inl (by decide))

/-- A legacy record with an issue time in 2023 displaces a version 2 record with sequence 1 in the
DHT, while `EndpointRecordNewer` prefers the version 2 record. Both are signed by the sample
identity and valid in June 2024. -/
theorem legacy_displaces_first :
    validateInnerLookupValue sampleRuntime (nodeIDKey sampleNodeID) (marshalEndpoint firstRecord)
        sampleNow = .ok (sampleInner sampleCrypto firstRecord) ∧
      validateInnerLookupValue sampleRuntime (nodeIDKey sampleNodeID) (marshalEndpoint legacyRecord)
        sampleNow = .ok (sampleInner sampleCrypto legacyRecord) ∧
      endpointRecordNewer firstRecord legacyRecord = true ∧
      isNewerValue (sampleInner sampleCrypto firstRecord) (sampleInner sampleCrypto legacyRecord) =
        false ∧
      isNewerValue (sampleInner sampleCrypto legacyRecord) (sampleInner sampleCrypto firstRecord) =
        true :=
  ⟨validateInnerLookupValue_sample first_mem, validateInnerLookupValue_sample legacy_mem,
    by decide +kernel, by decide +kernel, by decide +kernel⟩

end Vx6.Dht
