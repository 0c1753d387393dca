import Vx6.Dht.PayloadFormats

/-!
# The fields that a service signature fixes

A service record is signed as thirteen lines, two of them lists that are joined with commas, and nothing
is escaped. Two records that are signed as the same text have the same fields exactly if line feeds and
commas are spread over their fields in the same way: `service_signature_fixes_iff`. The verifier does not
ask for this, so that two intro points of a signed record can be turned into one: `intro_points_merged`.
-/

set_option autoImplicit false

namespace Vx6.Go

/-! ## Texts that end with a separator -/

section Separated

variable {sep : Char}

/-- A text before a separator is known if it is known how many separators it has itself. -/
theorem append_sep_inj {a b rest rest' : List Char} (hcount : a.count sep = b.count sep)
    (h : a ++ sep :: rest = b ++ sep :: rest') : a = b ∧ rest = rest' := by
  induction a generalizing b with
  | nil =>
    cases b with
    | nil => exact ⟨rfl, (List.cons.inj h).2⟩
    | cons d b =>
      rw [(List.cons.inj h).1] at hcount
      simp at hcount
  | cons c a ih =>
    cases b with
    | nil =>
      rw [(List.cons.inj h).1] at hcount
      simp at hcount
    | cons d b =>
      obtain ⟨rfl, htail⟩ := List.cons.inj h
      rw [List.count_cons, List.count_cons, Nat.add_right_cancel_iff] at hcount
      obtain ⟨rfl, hrest⟩ := ih hcount htail
      exact ⟨rfl, hrest⟩

/-- How often the separator occurs in each item. -/
def counts (sep : Char) (items : List String) : List Nat := items.map fun item => item.toList.count sep

/-- Lists of items, each with the separator after it, are told apart if the separators are spread over the
items in the same way. -/
theorem flatMap_sep_inj {a b : List String} (hcounts : counts sep a = counts sep b)
    (h : (a.flatMap fun item => item.toList ++ [sep]) = b.flatMap fun item => item.toList ++ [sep]) :
    a = b := by
  induction a generalizing b with
  | nil => exact (List.map_eq_nil_iff.1 hcounts.symm).symm
  | cons item a ih =>
    cases b with
    | nil => cases hcounts
    | cons item' b =>
      obtain ⟨hitem, hitems⟩ := List.cons.inj hcounts
      rw [List.flatMap_cons, List.flatMap_cons, List.append_assoc, List.append_assoc] at h
      obtain ⟨hfirst, hrest⟩ := append_sep_inj hitem h
      rw [String.toList_inj.1 hfirst, ih hitems hrest]

theorem toList_join_append {items : List String} (h : items ≠ []) :
    (join items ",").toList ++ [','] = items.flatMap fun item => item.toList ++ [','] := by
  obtain ⟨item, rest, rfl⟩ := List.exists_cons_of_ne_nil h
  rw [join, toList_foldl_join]
  induction rest generalizing item with
  | nil => simp
  | cons next rest ih =>
    simpa using ih next (List.cons_ne_nil _ _)

/-- Lists that are joined with commas are told apart if the commas are spread over the items in the same
way. -/
theorem join_inj_of_counts {a b : List String} (hcounts : counts ',' a = counts ',' b)
    (h : join a "," = join b ",") : a = b := by
  cases a with
  | nil => exact (List.map_eq_nil_iff.1 hcounts.symm).symm
  | cons item a =>
    cases b with
    | nil => cases hcounts
    | cons item' b =>
      apply flatMap_sep_inj hcounts
      rw [← toList_join_append (List.cons_ne_nil _ _), ← toList_join_append (List.cons_ne_nil _ _), h]

end Separated

end Vx6.Go

namespace Vx6.Dht

open Vx6.Go Vx6.Lib Vx6.Record

/-! ## Lines -/

theorem count_feeds (lines : List String) :
    (unlines lines).toList.count '\n' = lines.length +
    (lines.map fun line => line.toList.count '\n').sum := by
  rw [toList_unlines]
  induction lines with
  | nil => rfl
  | cons line lines ih =>
    rw [List.flatMap_cons, List.count_append, List.count_append, ih, List.count_singleton_self,
      List.length_cons,
      List.map_cons, List.sum_cons]
    omega

/-- Two texts of equally many fields are told apart if the fields of one have no line feed: the
other then has none to spare. -/
theorem unlines_inj_of_left {a b : List String} (ha : ∀ l ∈ a, '\n' ∉ l.toList)
    (hlength : a.length = b.length)
    (h : unlines a = unlines b) : a = b := by
  have hzero : (a.map fun line => line.toList.count '\n').sum = 0 := by
    refine List.sum_eq_zero fun n hn => ?_
    obtain ⟨line, hline, rfl⟩ := List.mem_map.1 hn
    exact List.count_eq_zero.2 (ha line hline)
  have hcount := count_feeds b
  rw [← h, count_feeds a, hzero, hlength, Nat.add_zero] at hcount
  refine unlines_inj ha (fun l hl => ?_) h
  have hsum : (b.map fun line => line.toList.count '\n').sum = 0 := by omega
  exact List.count_eq_zero.1 (List.sum_eq_zero_iff.1 hsum _ (List.mem_map_of_mem hl))

/-! ## The fields -/

/-- The fields of a record that are signed. -/
def signedFields (rec : ServiceRecord) : ServiceRecord := { rec with signature := "" }

/-- The lines of the signed text, if no field has a line feed. -/
def serviceLines (rec : ServiceRecord) : List String :=
  [rec.nodeID, rec.nodeName, rec.serviceName, rec.aliasName, rec.address, boolText rec.isHidden,
    boolText rec.isPrivate, rec.hiddenProfile, join rec.introPoints ",", join rec.standbyIntroPoints ",",
    rec.publicKey, rec.issuedAt, rec.expiresAt]

/-- Line feeds are spread over the fields of two records, and commas over their intro points, in the same
way. -/
structure SpreadAlike (a b : ServiceRecord) : Prop where
  lines : counts '\n' (serviceLines a) = counts '\n' (serviceLines b)
  introPoints : counts ',' a.introPoints = counts ',' b.introPoints
  standbyIntroPoints : counts ',' a.standbyIntroPoints = counts ',' b.standbyIntroPoints

theorem boolText_inj {a b : Bool} (h : boolText a = boolText b) : a = b := by
  cases a <;> cases b <;> first | rfl | exact absurd h (by decide)

/-- Records that are signed as the same text have the same fields exactly if their separators are spread
alike. -/
theorem signedFields_eq_iff {a b : ServiceRecord} (h : serviceSigningPayload a = serviceSigningPayload b) :
    signedFields a = signedFields b ↔ SpreadAlike a b := by
  constructor
  · intro hfields
    have hspread : SpreadAlike (signedFields a) (signedFields b) := by
      rw [hfields]
      exact ⟨rfl, rfl, rfl⟩
    exact ⟨hspread.lines, hspread.introPoints, hspread.standbyIntroPoints⟩
  · intro hspread
    have htext : unlines (serviceLines a) = unlines (serviceLines b) := h
    have hlines : serviceLines a = serviceLines b := by
      apply flatMap_sep_inj hspread.lines
      rw [← toList_unlines, ← toList_unlines, htext]
    simp only [serviceLines, List.cons.injEq] at hlines
    obtain ⟨hnode, hname, hservice, halias, haddress, hhidden, hprivate, hprofile, hintro, hstandby, hkey,
      hissued, hexpires, -⟩ := hlines
    simp only [signedFields, ServiceRecord.mk.injEq]
    exact ⟨hnode, hname, hservice, halias, haddress, boolText_inj hhidden, boolText_inj hprivate, hprofile,
      join_inj_of_counts hspread.introPoints hintro,
      join_inj_of_counts hspread.standbyIntroPoints hstandby, hkey, hissued, hexpires, trivial⟩

/-- Records that are accepted and signed as the same text have the same signed fields exactly if their
separators are spread alike. So if no signature is forged, a record that is accepted is signed as one that
its node has signed, and has its fields exactly if the separators of the two are spread alike. -/
theorem service_signature_fixes_iff (rt : Runtime) :
    (∀ (a b : ServiceRecord) (now : Time), (verifyServiceRecord rt.toCrypto a now).isOk = true →
      (verifyServiceRecord rt.toCrypto b now).isOk = true →
      bytes (serviceSigningPayload a) = bytes (serviceSigningPayload b) →
      (signedFields a = signedFields b ↔ SpreadAlike a b)) ∧
    ∀ issued : String → ServiceRecord → Prop,
      Unforgeable rt.toCrypto (fun id text => ∃ rec, issued id rec ∧ serviceSigningPayload rec = text) →
      ∀ (b : ServiceRecord) (now : Time), (verifyServiceRecord rt.toCrypto b now).isOk = true →
        ∃ a, issued b.nodeID a ∧ serviceSigningPayload a = serviceSigningPayload b ∧
          (signedFields a = signedFields b ↔ SpreadAlike a b) := by
  refine ⟨fun a b now _ _ hpayload => signedFields_eq_iff (bytes_injective hpayload), ?_⟩
  intro issued hunforgeable b now hb
  obtain ⟨signed, -⟩ := exists_of_isOk hb
  obtain ⟨a, ha, hpayload⟩ := hunforgeable _ _ _ signed.verified
  rw [signed.binding] at ha
  exact ⟨a, ha, hpayload, signedFields_eq_iff hpayload⟩

/-- A hidden service with two intro points. -/
def twoIntros : ServiceRecord :=
  signServiceRecord (signerOf echoRuntime echoSign) echoIdentity {
    nodeID := echoIdentity.nodeID
    nodeName := "ALICE"
    serviceName := "web"
    aliasName := "x"
    isHidden := true
    hiddenProfile := "fast"
    introPoints := ["vx6_a", "vx6_b"]
    publicKey := stdEncoding.encodeToString echoIdentity.publicKey
    issuedAt := "2024-06-01T00:00:00Z"
    expiresAt := "2024-12-01T00:00:00Z" }

theorem twoIntros_verified :
    (verifyServiceRecord echoRuntime.toCrypto twoIntros 0).isOk = true := by decide +kernel

/-- The signature in another spelling does not change the fields. -/
theorem service_signature_fixes_spelling :
    signedFields twoIntros = signedFields { twoIntros with signature := twoIntros.signature ++ "\n" } :=
  ((service_signature_fixes_iff echoRuntime).1 _ _ 0 twoIntros_verified (by decide +kernel) rfl).2
    ⟨rfl, rfl, rfl⟩

/-- The record with one intro point in the place of the two is accepted with the same signature. -/
theorem intro_points_merged :
    let merged := { twoIntros with introPoints := ["vx6_a,vx6_b"] }
    (verifyServiceRecord echoRuntime.toCrypto twoIntros 0).isOk = true ∧
    (verifyServiceRecord echoRuntime.toCrypto merged 0).isOk = true ∧
    bytes (serviceSigningPayload twoIntros) = bytes (serviceSigningPayload merged) ∧
    twoIntros.introPoints ≠ merged.introPoints :=
  ⟨twoIntros_verified, by decide +kernel, by decide +kernel, by decide⟩

end Vx6.Dht
