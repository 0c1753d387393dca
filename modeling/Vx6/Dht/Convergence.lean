import Vx6.Dht.StoreSafety

/-!
# Replica convergence

Replicas that receive the same values of one family through `storeValidated`, in any order and with
any repetition, end with the same value when `isNewerValue` orders the values strictly. The store is
an instance of the running choice of `Vx6.Lib.Newest`; `replicas_converge_iff` gives the exact
condition on the set of values, and `newer_cycle_diverges` three signed records that violate it.
-/

set_option autoImplicit false

namespace Vx6.Dht

open Vx6.Go Vx6.Lib Vx6.Record

/-- The choice of `chooseStoredValue` between verified values of one family. -/
def chooseNewer (cur x : ValidatedValue) : ValidatedValue :=
  if x.fingerprint ≠ cur.fingerprint ∧ Newer x cur then x else cur

theorem chooses_chooseNewer : Chooses Newer ValidatedValue.fingerprint chooseNewer where
  either cur x := by
    unfold chooseNewer
    split_ifs
    · exact Or.inr rfl
    · exact Or.inl rfl
  takes _ _ hne hnew := if_pos ⟨hne, hnew⟩
  keeps _ _ _ hnot := if_neg fun h => hnot h.2

/-- The server after receiving a list of texts for a key at one time; every row is written. -/
def deliver (rt : Runtime) (key : String) (now : Time) (s : Server) (texts : List String) : Server :=
  texts.foldl (fun s raw => (storeValidated rt s key raw now true).1) s

/-- The key holds the text of a value. -/
def Stores (rt : Runtime) (key : String) (now : Time) (s : Server) (v : ValidatedValue) : Prop :=
  ∃ raw, s.values.lookup key = some raw ∧ validateLookupValue rt key raw now = .ok v

/-- The value of a valid text. -/
def valueOf (rt : Runtime) (key : String) (now : Time) (raw : String) : ValidatedValue :=
  match validateLookupValue rt key raw now with
  | .ok v => v
  | .error _ => {}

/-- The values of a list of texts. -/
def ValuesOf (rt : Runtime) (key : String) (now : Time) (texts : List String)
    (v : ValidatedValue) : Prop :=
  ∃ raw ∈ texts, validateLookupValue rt key raw now = .ok v

/-- The texts are valid and verified, and their values are of one family. -/
def OneFamily (rt : Runtime) (key : String) (now : Time) (family : String) (texts : List String) :
    Prop :=
  ∀ raw ∈ texts, ∃ v, validateLookupValue rt key raw now = .ok v ∧ v.verified = true ∧
    v.family = family

/-- Any two servers that hold nothing for the key and receive exactly the given texts end with
values of one fingerprint. -/
def Converges (rt : Runtime) (key : String) (now : Time) (texts : List String) : Prop :=
  ∀ (s₁ s₂ : Server) (l₁ l₂ : List String), s₁.values.lookup key = none →
    s₂.values.lookup key = none → (∀ raw, raw ∈ l₁ ↔ raw ∈ texts) →
    (∀ raw, raw ∈ l₂ ↔ raw ∈ texts) → texts ≠ [] →
    ∃ v₁ v₂, Stores rt key now (deliver rt key now s₁ l₁) v₁ ∧
      Stores rt key now (deliver rt key now s₂ l₂) v₂ ∧ v₁.fingerprint = v₂.fingerprint

section Delivery

variable {rt : Runtime} {key : String} {now : Time} {s : Server} {raw : String}
  {v w : ValidatedValue}

/-- Under a key of a record family a stored value is held. -/
theorem Stores.holds (h : Stores rt key now s v) (hv : v.verified = true) :
    Holds rt s key now v := by
  obtain ⟨raw, hraw, hval⟩ := h
  refine ⟨raw, hraw, ?_, hval⟩
  rintro rfl
  refine validateLookupValue_empty ?_ hval
  simpa [hv] using (validateLookupValue_verified hval).symm

/-- A valid value is stored under a key that holds nothing. -/
theorem StoreStep.stores_first {s' : Server} {err : Option StoreError}
    (h : StoreStep rt s key raw now true s' err) (hnone : ∀ v, ¬ Holds rt s key now v)
    (hw : validateLookupValue rt key raw now = .ok w) : Stores rt key now s' w := by
  cases h with
  | invalid e he =>
    rw [hw] at he
    cases he
  | conflict v _ hv _ _ _ _ => exact absurd hv (hnone v)
  | unpersisted _ _ _ _ hput => cases hput
  | replaced w' previous hw' _ =>
    rw [validateLookupValue_unique hw hw']
    exact ⟨raw, by simp, hw'⟩
  | kept v _ hv _ _ => exact absurd hv (hnone v)

/-- A key that holds a verified value chooses between it and a valid value of its family. -/
theorem StoreStep.stores_choose {s' : Server} {err : Option StoreError}
    (h : StoreStep rt s key raw now true s' err) (hv : Stores rt key now s v)
    (hvv : v.verified = true) (hw : validateLookupValue rt key raw now = .ok w)
    (hwv : w.verified = true) (hfam : v.family = w.family) :
    Stores rt key now s' (chooseNewer v w) := by
  have hholds := hv.holds hvv
  obtain ⟨cur, hcur, hval⟩ := hv
  cases h with
  | invalid e he =>
    rw [hw] at he
    cases he
  | conflict v₁ w₁ hv₁ hw₁ _ _ hne =>
    rw [← hholds.unique hv₁, ← validateLookupValue_unique hw hw₁] at hne
    exact absurd hfam hne
  | unpersisted _ _ _ _ hput => cases hput
  | replaced w₁ previous hw₁ hrep =>
    have hww := validateLookupValue_unique hw hw₁
    subst hww
    cases hrep with
    | fresh hnone => exact absurd hholds (hnone v)
    | unverified v₁ hv₁ hunv =>
      rw [← hholds.unique hv₁, hvv, hwv] at hunv
      rcases hunv with hunv | hunv <;> cases hunv
    | newer v₁ hv₁ _ _ _ hfp hnew =>
      rw [← hholds.unique hv₁] at hfp hnew
      rw [chooseNewer, if_pos ⟨hfp, hnew⟩]
      exact ⟨raw, by simp, hw⟩
  | kept v₁ w₁ hv₁ hw₁ hkeep =>
    have hww := validateLookupValue_unique hw hw₁
    subst hww
    rw [chooseNewer, if_neg]
    · exact ⟨cur, by simpa using hcur, hval⟩
    · rintro ⟨hfp, hnew⟩
      cases hkeep with
      | repeated _ hunv =>
        rw [hwv] at hunv
        cases hunv
      | older _ _ _ hold =>
        rw [← hholds.unique hv₁] at hold
        rcases hold with hold | hold
        · exact hfp hold
        · exact hold hnew

variable {family : String} {texts : List String}

theorem valueOf_eq (h : validateLookupValue rt key raw now = .ok v) : valueOf rt key now raw = v := by
  simp [valueOf, h]

/-- The value of a text of the family. -/
theorem OneFamily.valueOf (h : OneFamily rt key now family texts) (hraw : raw ∈ texts) :
    validateLookupValue rt key raw now = .ok (valueOf rt key now raw) ∧
      (valueOf rt key now raw).verified = true ∧ (valueOf rt key now raw).family = family := by
  obtain ⟨v, hv, hver, hfam⟩ := h raw hraw
  rw [valueOf_eq hv]
  exact ⟨hv, hver, hfam⟩

theorem OneFamily.valuesOf_iff (h : OneFamily rt key now family texts) (v : ValidatedValue) :
    ValuesOf rt key now texts v ↔ v ∈ texts.map (Dht.valueOf rt key now) := by
  rw [List.mem_map]
  constructor
  · rintro ⟨raw, hraw, hv⟩
    exact ⟨raw, hraw, valueOf_eq hv⟩
  · rintro ⟨raw, hraw, rfl⟩
    exact ⟨raw, hraw, (h.valueOf hraw).1⟩

/-- After a list of deliveries a key that held a value of the family holds the running choice. -/
theorem deliver_stores_foldl :
    ∀ (texts : List String) (s : Server) (v : ValidatedValue), OneFamily rt key now family texts →
      Stores rt key now s v → v.verified = true → v.family = family →
      Stores rt key now (deliver rt key now s texts)
        ((texts.map (valueOf rt key now)).foldl chooseNewer v) := by
  intro texts
  induction texts with
  | nil =>
    intro s v _ hv _ _
    exact hv
  | cons raw texts ih =>
    intro s v hfam hv hvv hvf
    obtain ⟨hw, hwv, hwf⟩ := hfam.valueOf List.mem_cons_self
    have hnext := (storeValidated_step true).stores_choose hv hvv hw hwv (hvf.trans hwf.symm)
    refine ih _ _ (fun r hr => hfam r (List.mem_cons_of_mem _ hr)) hnext ?_ ?_
    · rcases chooses_chooseNewer.either v (valueOf rt key now raw) with h | h <;> rw [h] <;> assumption
    · rcases chooses_chooseNewer.either v (valueOf rt key now raw) with h | h <;> rw [h] <;> assumption

/-- After a nonempty list of deliveries a key that held nothing holds the running choice. -/
theorem deliver_stores_cons (hfam : OneFamily rt key now family (raw :: texts))
    (hnone : s.values.lookup key = none) :
    Stores rt key now (deliver rt key now s (raw :: texts))
      ((texts.map (valueOf rt key now)).foldl chooseNewer (valueOf rt key now raw)) := by
  obtain ⟨hw, hwv, hwf⟩ := hfam.valueOf List.mem_cons_self
  have hno : ∀ v, ¬ Holds rt s key now v := by
    rintro v ⟨raw', hraw', -⟩
    rw [hnone] at hraw'
    cases hraw'
  exact deliver_stores_foldl texts _ _ (fun r hr => hfam r (List.mem_cons_of_mem _ hr))
    ((storeValidated_step true).stores_first hno hw) hwv hwf

/-- A dominating value survives every order of delivery. -/
theorem deliver_stores_dominating {m : ValidatedValue} {l : List String}
    (hfam : OneFamily rt key now family texts) (hnone : s.values.lookup key = none)
    (hl : ∀ raw, raw ∈ l ↔ raw ∈ texts) (hm : ValuesOf rt key now texts m)
    (hdom : Dominates Newer ValidatedValue.fingerprint (ValuesOf rt key now texts) m) :
    ∃ v, Stores rt key now (deliver rt key now s l) v ∧ v.fingerprint = m.fingerprint := by
  have hlfam : OneFamily rt key now family l := fun r hr => hfam r ((hl r).1 hr)
  have hvalues : ∀ v, v ∈ l.map (valueOf rt key now) ↔ ValuesOf rt key now texts v := by
    intro v
    rw [← hlfam.valuesOf_iff v]
    exact exists_congr fun raw => and_congr_left fun _ => hl raw
  cases l with
  | nil =>
    obtain ⟨raw, hraw, -⟩ := hm
    exact absurd ((hl raw).2 hraw) (List.not_mem_nil)
  | cons raw l =>
    refine ⟨_, deliver_stores_cons hlfam hnone, ?_⟩
    have hmem : ∀ v, v ∈ valueOf rt key now raw :: l.map (valueOf rt key now) ↔
        ValuesOf rt key now texts v := hvalues
    exact cls_foldl_of_dominates (fun _ _ => newer_asymm) chooses_chooseNewer hdom _ _
      ((hmem _).1 List.mem_cons_self) (fun x hx => (hmem x).1 (List.mem_cons_of_mem _ hx))
      ⟨m, (hmem m).2 hm, rfl⟩

/-- The comparison is a strict total order of the fingerprints of the values, and replicas that
receive them in any order and with any repetition end with one fingerprint, exactly when the values
are consistent. -/
theorem replicas_converge_iff (hfam : OneFamily rt key now family texts) :
    (StrictOn (fun a b => isNewerValue a b = true) ValidatedValue.fingerprint
        (ValuesOf rt key now texts) ∧ Converges rt key now texts) ↔
      Consistent (ValuesOf rt key now texts) := by
  refine ⟨fun h => (strictOn_iff_consistent _).1 h.1, fun h => ⟨h.strictOn, ?_⟩⟩
  intro s₁ s₂ l₁ l₂ hnone₁ hnone₂ hl₁ hl₂ hne
  obtain ⟨raw, rest, rfl⟩ := List.exists_cons_of_ne_nil hne
  have hvalues : ValuesOf rt key now (raw :: rest) =
      (· ∈ valueOf rt key now raw :: rest.map (valueOf rt key now)) :=
    funext fun v => propext (hfam.valuesOf_iff v)
  obtain ⟨m, hm, hdom⟩ := exists_dominates _ _ (hvalues ▸ h.strictOn)
  rw [← hvalues] at hdom
  have hm' : ValuesOf rt key now (raw :: rest) m := by rwa [hvalues]
  obtain ⟨v₁, hv₁, hfp₁⟩ := deliver_stores_dominating hfam hnone₁ hl₁ hm' hdom
  obtain ⟨v₂, hv₂, hfp₂⟩ := deliver_stores_dominating hfam hnone₂ hl₂ hm' hdom
  exact ⟨v₁, v₂, hv₁, hv₂, hfp₁.trans hfp₂.symm⟩

theorem chooseNewer_of_newer {cur x : ValidatedValue} (hfp : x.fingerprint ≠ cur.fingerprint)
    (h : Newer x cur) : chooseNewer cur x = x := if_pos ⟨hfp, h⟩

theorem chooseNewer_of_older {cur x : ValidatedValue} (h : Newer cur x) : chooseNewer cur x = cur :=
  if_neg fun hx => newer_asymm h hx.2

/-- A cycle of three values, delivered in two orders: the last delivery decides. -/
theorem deliver_cycle {textX textY textZ : String} {x y z : ValidatedValue}
    (hfam : OneFamily rt key now family [textX, textY, textZ])
    (hx : valueOf rt key now textX = x) (hy : valueOf rt key now textY = y)
    (hz : valueOf rt key now textZ = z) (hyz : Newer y z) (hzx : Newer z x) (hxy : Newer x y)
    (hfyz : y.fingerprint ≠ z.fingerprint) (hfzx : z.fingerprint ≠ x.fingerprint) :
    ∃ v₁ v₂, Stores rt key now (deliver rt key now {} [textX, textY, textZ]) v₁ ∧
      Stores rt key now (deliver rt key now {} [textZ, textX, textY]) v₂ ∧
      v₁.fingerprint ≠ v₂.fingerprint := by
  have hfam' : OneFamily rt key now family [textZ, textX, textY] := by
    intro raw hraw
    refine hfam raw ?_
    simp only [List.mem_cons] at hraw ⊢
    tauto
  have hs₁ := deliver_stores_cons (s := {}) hfam (Dict.lookup_empty_eq _)
  have hs₂ := deliver_stores_cons (s := {}) hfam' (Dict.lookup_empty_eq _)
  simp only [List.map_cons, List.map_nil, List.foldl_cons, List.foldl_nil, hx, hy, hz,
    chooseNewer_of_older hxy, chooseNewer_of_newer hfzx hzx, chooseNewer_of_older hzx,
    chooseNewer_of_newer hfyz hyz] at hs₁ hs₂
  exact ⟨z, y, hs₁, hs₂, hfyz.symm⟩

end Delivery

/-! ## Records of the sample identity -/

/-- The text in which replicas receive a sample record. -/
def sampleText (rec : EndpointRecord) (signature : String) : String :=
  marshalEnvelope (sampleEnvelope rec signature)

theorem valueOf_sample {rec : EndpointRecord} {signature : String}
    (hp : (rec, signature) ∈ samples) :
    valueOf sampleRuntime sampleKey sampleNow (sampleText rec signature) =
      sampleValue rec signature :=
  valueOf_eq (validateLookupValue_sample hp)

/-- The texts of sample records are of the family of the sample identity. -/
theorem oneFamily_samples {l : List (EndpointRecord × String)} (hl : ∀ p ∈ l, p ∈ samples) :
    OneFamily sampleRuntime sampleKey sampleNow ("endpoint:" ++ sampleNodeID)
      (l.map fun p => sampleText p.1 p.2) := by
  intro raw hraw
  obtain ⟨p, hp, rfl⟩ := List.mem_map.1 hraw
  refine ⟨_, validateLookupValue_sample (hl p hp), rfl, ?_⟩
  show "endpoint:" ++ p.1.nodeID = _
  rw [(samples_times p (hl p hp)).2.2]

/-- The order of the sample values. The sequence numbers of the early and the late record are the
issue time of the legacy one, so each of the three is newer than another. -/
theorem sample_order :
    Newer (sampleValue earlyRecord earlySignature) (sampleValue lateRecord lateSignature) ∧
      Newer (sampleValue lateRecord lateSignature) (sampleValue legacyRecord legacySignature) ∧
      Newer (sampleValue legacyRecord legacySignature) (sampleValue earlyRecord earlySignature) ∧
      Newer (sampleValue lateRecord lateSignature) (sampleValue firstRecord firstSignature) ∧
      (sampleValue earlyRecord earlySignature).fingerprint ≠
        (sampleValue lateRecord lateSignature).fingerprint ∧
      (sampleValue lateRecord lateSignature).fingerprint ≠
        (sampleValue legacyRecord legacySignature).fingerprint ∧
      (sampleValue firstRecord firstSignature).fingerprint ≠
        (sampleValue lateRecord lateSignature).fingerprint := by
  decide +kernel

theorem fingerprint_first_ne_late :
    (sampleValue firstRecord firstSignature).fingerprint ≠
      (sampleValue lateRecord lateSignature).fingerprint :=
  sample_order.2.2.2.2.2.2

/-- Three records signed by one identity of which each is newer than the next. Two empty servers
that receive them in different orders end with different ones. -/
theorem newer_cycle_diverges :
    OneFamily sampleRuntime sampleKey sampleNow ("endpoint:" ++ sampleNodeID)
        [sampleText legacyRecord legacySignature, sampleText earlyRecord earlySignature,
          sampleText lateRecord lateSignature] ∧
      ∃ v₁ v₂,
        Stores sampleRuntime sampleKey sampleNow (deliver sampleRuntime sampleKey sampleNow {}
          [sampleText legacyRecord legacySignature, sampleText earlyRecord earlySignature,
            sampleText lateRecord lateSignature]) v₁ ∧
        Stores sampleRuntime sampleKey sampleNow (deliver sampleRuntime sampleKey sampleNow {}
          [sampleText lateRecord lateSignature, sampleText legacyRecord legacySignature,
            sampleText earlyRecord earlySignature]) v₂ ∧
        v₁.fingerprint ≠ v₂.fingerprint := by
  have hfam := oneFamily_samples (l := [(legacyRecord, legacySignature),
    (earlyRecord, earlySignature), (lateRecord, lateSignature)])
    (by simp [legacy_mem, early_mem, late_mem])
  obtain ⟨hearly, hlate, hlegacy, -, hne₁, hne₂, -⟩ := sample_order
  exact ⟨hfam, deliver_cycle hfam (valueOf_sample legacy_mem) (valueOf_sample early_mem)
    (valueOf_sample late_mem) hearly hlate hlegacy hne₁ hne₂⟩

/-- `replicas_converge_iff` for the two version 2 records with different sequence numbers. -/
theorem replicas_converge_first_late :
    Converges sampleRuntime sampleKey sampleNow
      [sampleText firstRecord firstSignature, sampleText lateRecord lateSignature] := by
  have hfam := oneFamily_samples (l := [(firstRecord, firstSignature), (lateRecord, lateSignature)])
    (by simp [first_mem, late_mem])
  have hvalues : ∀ v, ValuesOf sampleRuntime sampleKey sampleNow
      [sampleText firstRecord firstSignature, sampleText lateRecord lateSignature] v →
      v = sampleValue firstRecord firstSignature ∨ v = sampleValue lateRecord lateSignature := by
    intro v hv
    have hmem := (hfam.valuesOf_iff v).1 hv
    simpa [valueOf_sample first_mem, valueOf_sample late_mem] using hmem
  have hseq : ∀ v, ValuesOf sampleRuntime sampleKey sampleNow
      [sampleText firstRecord firstSignature, sampleText lateRecord lateSignature] v →
      v.sequenceBased = true := by
    intro v hv
    rcases hvalues v hv with rfl | rfl <;> rfl
  have hne := fingerprint_first_ne_late
  refine ((replicas_converge_iff hfam).2 ⟨fun a b ha hb hfp => ?_, ?_⟩).2
  · refine ⟨?_, Or.inl ⟨hseq a ha, hseq b hb⟩⟩
    rcases hvalues a ha with rfl | rfl <;> rcases hvalues b hb with rfl | rfl
    · rfl
    · exact absurd hfp hne
    · exact absurd hfp.symm hne
    · rfl
  · intro x y n _ _ hn _ _ hns
    rw [hseq n hn] at hns
    cases hns

end Vx6.Dht
