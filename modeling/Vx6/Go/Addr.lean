import Vx6.Go.Net

/-!
# The text of an IPv6 address

`IP.string` writes the eight groups of an address in lower-case hexadecimal and puts an ellipsis in
place of the first longest run of zero groups; `parseIP` reads such texts and others. An IPv6
address is read back from the text that is written for it (`parseIP_string`), so code that stores
addresses as text and parses them again later loses none.
-/

set_option autoImplicit false

namespace Vx6.Go

/-! ## One group -/

/-- The digits of a group. -/
abbrev groupDigits (g : Nat) : List Char := Nat.toDigits 16 g

theorem hexValue_digitChar {d : Nat} (hd : d < 16) : hexValue d.digitChar = some d := by
  interval_cases d <;> decide

/-- Reading the hexadecimal digits of a number gives the number. -/
theorem foldl_hexValue_toDigits (n : Nat) :
    (groupDigits n).foldl (fun acc c => do some (16 * (← acc) + (← hexValue c))) (some 0) =
      some n := by
  induction n using Nat.strong_induction_on with
  | _ n ih =>
    rw [groupDigits, Nat.toDigits_eq_if (by decide)]
    by_cases hn : n < 16
    · rw [if_pos hn]
      simp [hexValue_digitChar hn]
    · rw [if_neg hn, List.foldl_append, ih (n / 16) (by omega)]
      simp [hexValue_digitChar (Nat.mod_lt n (by decide))]
      omega

theorem hexValue_isSome_of_mem_groupDigits (n : Nat) :
    ∀ c ∈ groupDigits n, (hexValue c).isSome = true := by
  induction n using Nat.strong_induction_on with
  | _ n ih =>
    intro c hc
    rw [groupDigits, Nat.toDigits_eq_if (by decide)] at hc
    split_ifs at hc with hn
    · rw [List.mem_singleton.1 hc, hexValue_digitChar hn]
      rfl
    · rcases List.mem_append.1 hc with hc | hc
      · exact ih (n / 16) (by omega) c hc
      · rw [List.mem_singleton.1 hc, hexValue_digitChar (Nat.mod_lt n (by decide))]
        rfl

theorem parseGroup_groupDigits {g : Nat} (hg : g < 65536) : parseGroup (groupDigits g) = some g := by
  have hlen : (groupDigits g).length ≤ 4 :=
    (Nat.length_toDigits_le_iff (by decide) (by decide)).2 (by omega)
  rw [parseGroup, if_neg (by simp [groupDigits, Nat.toDigits_ne_nil]; omega)]
  exact foldl_hexValue_toDigits g

/-- A group ends where its digits do. -/
theorem takeWhile_groupDigits (g : Nat) {rest : List Char}
    (hrest : ∀ c ∈ rest.head?, hexValue c = none) :
    (groupDigits g ++ rest).takeWhile (fun c => (hexValue c).isSome) = groupDigits g := by
  rw [List.takeWhile_append_of_pos (hexValue_isSome_of_mem_groupDigits g)]
  cases rest with
  | nil => simp
  | cons c rest => simp [hrest c (by simp)]

/-! ## A sequence of groups -/

/-- The characters of `joinGroups`. -/
def groupChars : List Nat → List Char
  | [] => []
  | [g] => groupDigits g
  | g :: h :: rest => groupDigits g ++ ':' :: groupChars (h :: rest)

theorem toList_foldl_join (parts : List String) (sep acc : String) :
    (parts.foldl (fun acc q => acc ++ sep ++ q) acc).toList =
      acc.toList ++ parts.flatMap fun q => sep.toList ++ q.toList := by
  induction parts generalizing acc with
  | nil => simp
  | cons q parts ih => simp [ih]

theorem toList_joinGroups (gs : List Nat) : (IP.joinGroups gs).toList = groupChars gs := by
  induction gs with
  | nil => rfl
  | cons g gs ih =>
    cases gs with
    | nil => simp [IP.joinGroups, join, groupChars, IP.hexGroup, groupDigits]
    | cons h rest =>
      simp only [IP.joinGroups, join, List.map_cons, toList_foldl_join] at ih ⊢
      simp only [List.flatMap_cons, IP.hexGroup, String.toList_ofList] at ih ⊢
      rw [groupChars, ← ih]
      rfl

/-- The text of a nonempty sequence of groups starts with a digit. -/
theorem head_groupChars {gs : List Nat} (h : gs ≠ []) (tail : List Char) :
    ∃ c cs, groupChars gs ++ tail = c :: cs ∧ c ≠ ':' := by
  have hcolon : ∀ c, (hexValue c).isSome = true → c ≠ ':' := by
    rintro c hc rfl
    exact absurd hc (by decide)
  have hdigits : ∀ g, ∃ c cs, groupDigits g = c :: cs ∧ c ≠ ':' := by
    intro g
    obtain ⟨c, cs, hc⟩ := List.exists_cons_of_ne_nil (Nat.toDigits_ne_nil (n := g) (b := 16))
    refine ⟨c, cs, hc, hcolon c (hexValue_isSome_of_mem_groupDigits g c ?_)⟩
    rw [groupDigits, hc]
    exact List.mem_cons_self
  match gs, h with
  | [g], _ =>
    obtain ⟨c, cs, hc, hne⟩ := hdigits g
    exact ⟨c, cs ++ tail, by simp [groupChars, hc], hne⟩
  | g :: k :: rest, _ =>
    obtain ⟨c, cs, hc, hne⟩ := hdigits g
    exact ⟨c, cs ++ ':' :: groupChars (k :: rest) ++ tail, by simp [groupChars, hc], hne⟩

section Read

variable {n : Nat} {acc : List Nat} {ellipsis : Option Nat}

/-- The reader takes one group and goes on after the colon. -/
theorem parseGroups_group {g : Nat} (hg : g < 65536) {c : Char} (hc : c ≠ ':') (cs : List Char) :
    parseGroups (n + 1) acc ellipsis (groupDigits g ++ ':' :: c :: cs) =
      parseGroups n (acc ++ [g]) ellipsis (c :: cs) := by
  rw [parseGroups, takeWhile_groupDigits g (by simp; decide), parseGroup_groupDigits hg]
  simp only [Option.bind_eq_bind, Option.bind_some, List.drop_left]
  split <;> simp_all

/-- The reader takes the last group. -/
theorem parseGroups_last {g : Nat} (hg : g < 65536) :
    parseGroups (n + 1) acc ellipsis (groupDigits g) = some (acc ++ [g], ellipsis) := by
  have h : (groupDigits g ++ []).takeWhile (fun c => (hexValue c).isSome) = groupDigits g :=
    takeWhile_groupDigits g (by simp)
  rw [List.append_nil] at h
  rw [parseGroups, h, parseGroup_groupDigits hg]
  simp

/-- The reader takes the last group before an ellipsis at the end of the text. -/
theorem parseGroups_ellipsis_end {g : Nat} (hg : g < 65536) :
    parseGroups (n + 1) acc none (groupDigits g ++ [':', ':']) =
      some (acc ++ [g], some (acc.length + 1)) := by
  rw [parseGroups, takeWhile_groupDigits g (by simp; decide), parseGroup_groupDigits hg]
  simp

/-- The reader takes the last group before an ellipsis with more text after it. -/
theorem parseGroups_ellipsis {g : Nat} (hg : g < 65536) (c : Char) (cs : List Char) :
    parseGroups (n + 1) acc none (groupDigits g ++ ':' :: ':' :: c :: cs) =
      parseGroups n (acc ++ [g]) (some (acc.length + 1)) (c :: cs) := by
  rw [parseGroups, takeWhile_groupDigits g (by simp; decide), parseGroup_groupDigits hg]
  simp

end Read

/-- A sequence of groups is read to the end of the text. -/
theorem parseGroups_groupChars {gs : List Nat} (hne : gs ≠ []) (hgs : ∀ g ∈ gs, g < 65536)
    {n : Nat} (hn : gs.length ≤ n) (acc : List Nat) (ellipsis : Option Nat) :
    parseGroups n acc ellipsis (groupChars gs) = some (acc ++ gs, ellipsis) := by
  induction gs generalizing n acc with
  | nil => exact absurd rfl hne
  | cons g rest ih =>
    obtain ⟨m, rfl⟩ : ∃ m, n = m + 1 := ⟨n - 1, by simp at hn; omega⟩
    have hg : g < 65536 := hgs g List.mem_cons_self
    cases rest with
    | nil => exact parseGroups_last hg
    | cons k rest =>
      obtain ⟨c, cs, hc, hcolon⟩ := head_groupChars (List.cons_ne_nil k rest) []
      rw [List.append_nil] at hc
      rw [groupChars, hc, parseGroups_group hg hcolon, ← hc,
        ih (List.cons_ne_nil _ _) (fun x hx => hgs x (List.mem_cons_of_mem _ hx))
          (by simpa using hn)]
      simp

/-- Two sequences of groups around an ellipsis are read. -/
theorem parseGroups_around {gs gs' : List Nat} (hne : gs ≠ []) (hgs : ∀ g ∈ gs, g < 65536)
    (hgs' : ∀ g ∈ gs', g < 65536) {n : Nat} (hn : gs.length + gs'.length ≤ n) (acc : List Nat) :
    parseGroups n acc none (groupChars gs ++ ':' :: ':' :: groupChars gs') =
      some (acc ++ gs ++ gs', some (acc.length + gs.length)) := by
  induction gs generalizing n acc with
  | nil => exact absurd rfl hne
  | cons g rest ih =>
    obtain ⟨m, rfl⟩ : ∃ m, n = m + 1 := ⟨n - 1, by simp at hn; omega⟩
    have hg : g < 65536 := hgs g List.mem_cons_self
    cases rest with
    | nil =>
      cases gs' with
      | nil => simpa [groupChars] using parseGroups_ellipsis_end hg
      | cons k rest' =>
        obtain ⟨c, cs, hc, -⟩ := head_groupChars (List.cons_ne_nil k rest') []
        rw [List.append_nil] at hc
        rw [groupChars, hc, parseGroups_ellipsis hg, ← hc,
          parseGroups_groupChars (List.cons_ne_nil _ _) hgs' (by simp at hn ⊢; omega)]
        simp
    | cons k rest =>
      obtain ⟨c, cs, hc, hcolon⟩ :=
        head_groupChars (List.cons_ne_nil k rest) (':' :: ':' :: groupChars gs')
      rw [groupChars, List.append_assoc, List.cons_append, hc, parseGroups_group hg hcolon, ← hc,
        ih (List.cons_ne_nil _ _) (fun x hx => hgs x (List.mem_cons_of_mem _ hx))
          (by simp at hn ⊢; omega)]
      simp
      omega

/-! ## The ellipsis -/

namespace IP

theorem take_zeroRun (gs : List Nat) : gs.take (zeroRun gs) = List.replicate (zeroRun gs) 0 := by
  rw [List.eq_replicate_iff, zeroRun, ← List.prefix_iff_eq_take.1 (List.takeWhile_prefix _)]
  exact ⟨rfl, fun g hg => by simpa using List.mem_takeWhile_imp hg⟩

theorem zeroRun_le (gs : List Nat) : zeroRun gs ≤ gs.length :=
  (List.takeWhile_prefix _).length_le

/-- A run of at least two zero groups, by its start and length. -/
structure IsZeroRun (gs : List Nat) (i n : Nat) : Prop where
  two_le : 2 ≤ n
  inside : i + n ≤ gs.length
  zeros : (gs.drop i).take n = List.replicate n 0

theorem IsZeroRun.split {gs : List Nat} {i n : Nat} (h : IsZeroRun gs i n) :
    gs.take i ++ List.replicate n 0 ++ gs.drop (i + n) = gs := by
  rw [← h.zeros, ← List.drop_drop, List.append_assoc, List.take_append_drop, List.take_append_drop]

/-- The run that the ellipsis stands for consists of zeros. -/
theorem isZeroRun_of_longestZeroRun {gs : List Nat} {i n : Nat}
    (h : longestZeroRun gs = some (i, n)) : IsZeroRun gs i n := by
  -- along the scan the best run found so far is a run of zeros
  have hscan : ∀ p ∈ longestZeroRun gs, IsZeroRun gs p.1 p.2 := by
    rw [longestZeroRun]
    refine List.foldlRecOn (motive := fun best : Option (Nat × Nat) =>
      ∀ p ∈ best, IsZeroRun gs p.1 p.2) _ _ (by simp) ?_
    intro best hbest j hmem p hp
    have hj : 2 ≤ zeroRun (gs.drop j) → IsZeroRun gs j (zeroRun (gs.drop j)) := by
      intro htwo
      have hle := zeroRun_le (gs.drop j)
      have hlt := List.mem_range.1 hmem
      rw [List.length_drop] at hle
      exact ⟨htwo, by omega, take_zeroRun _⟩
    dsimp only at hp
    split_ifs at hp with htwo
    · exact hbest p hp
    · cases best with
      | none =>
        cases hp
        exact hj (by omega)
      | some q =>
        dsimp only at hp
        split_ifs at hp with hm
        · cases hp
          exact hj (by omega)
        · exact hbest p hp
  exact hscan (i, n) h

/-! ## The value of the groups -/

theorem groups_lt {ip : IP} {g : Nat} (hg : g ∈ groups ip) : g < 65536 := by
  obtain ⟨i, -, rfl⟩ := List.mem_map.1 hg
  exact Nat.mod_lt _ (by decide)

theorem length_groups (ip : IP) : (groups ip).length = 8 := rfl

/-- The `n` low groups of a number are its value modulo `2 ^ (16 * n)`. -/
theorem foldl_groups (x n acc : Nat) :
    ((List.range n).reverse.map fun i => x / 2 ^ (16 * i) % 65536).foldl
      (fun acc g => 65536 * acc + g) acc = acc * 2 ^ (16 * n) + x % 2 ^ (16 * n) := by
  induction n generalizing acc with
  | zero => simp [Nat.mod_one]
  | succ n ih =>
    have hpow : 2 ^ (16 * (n + 1)) = 2 ^ (16 * n) * 65536 := by
      rw [Nat.mul_add, pow_add]
      norm_num
    rw [List.range_succ, List.reverse_append, List.reverse_singleton, List.singleton_append,
      List.map_cons, List.foldl_cons, ih, hpow, Nat.mod_mul]
    ring

/-- The groups are the digits of the address in base 65536. -/
theorem ofGroups_groups (ip : IP) : ofGroups (groups ip) = ip := by
  have hval : (groups ip).foldl (fun acc g => 65536 * acc + g) 0 = ip.toNat := by
    rw [groups, show [7, 6, 5, 4, 3, 2, 1, 0] = (List.range 8).reverse by rfl, foldl_groups,
      zero_mul, zero_add, Nat.mod_eq_of_lt ip.isLt]
  rw [ofGroups, hval]
  simp

end IP

/-! ## Reading back -/

theorem groupChars_colon_mem {gs : List Nat} (h : 2 ≤ gs.length) : ':' ∈ groupChars gs := by
  match gs, h with
  | g :: k :: rest, _ => simp [groupChars]

theorem mem_groupChars {gs : List Nat} {c : Char} (hc : c ∈ groupChars gs) :
    c = ':' ∨ (hexValue c).isSome = true := by
  induction gs with
  | nil => simp [groupChars] at hc
  | cons g rest ih =>
    cases rest with
    | nil => exact .inr (hexValue_isSome_of_mem_groupDigits g c hc)
    | cons k rest =>
      rw [groupChars, List.mem_append, List.mem_cons] at hc
      rcases hc with hc | rfl | hc
      · exact .inr (hexValue_isSome_of_mem_groupDigits g c hc)
      · exact .inl rfl
      · exact ih hc

/-- A text of digits and colons with a colon in it is read as an IPv6 address. -/
theorem parseIP_of_colons {s : String} (hmem : ':' ∈ s.toList)
    (hall : ∀ c ∈ s.toList, c = ':' ∨ (hexValue c).isSome = true) :
    parseIP s = parseIPv6 s.toList := by
  have hsome : (s.toList.find? fun c => c = '.' || c = ':').isSome = true :=
    List.find?_isSome.2 ⟨':', hmem, by decide⟩
  obtain ⟨c, hc⟩ := Option.isSome_iff_exists.1 hsome
  have hcolon : c = ':' := by
    rcases hall c (List.mem_of_find?_eq_some hc) with h | h
    · exact h
    · have := List.find?_some hc
      simp only [Bool.or_eq_true, decide_eq_true_eq] at this
      rcases this with rfl | rfl
      · exact absurd h (by decide)
      · rfl
  subst hcolon
  simp [parseIP, hc]

theorem parseIPv6_of_head {c : Char} (hc : c ≠ ':') (cs : List Char) :
    parseIPv6 (c :: cs) =
      (parseGroups 8 [] none (c :: cs)).bind fun parsed => (expandGroups parsed).map ofGroups := by
  rw [parseIPv6]
  · simp [Option.map_eq_bind]
  · rintro ⟨⟩
    exact hc rfl
  · rintro rest ⟨⟩
    exact hc rfl

/-- Eight groups are read as an address. -/
theorem parseIPv6_groupChars {gs : List Nat} (hgs : ∀ g ∈ gs, g < 65536) (hlen : gs.length = 8) :
    parseIPv6 (groupChars gs) = some (ofGroups gs) := by
  have hne : gs ≠ [] := by
    rintro rfl
    cases hlen
  obtain ⟨c, cs, hc, hcolon⟩ := head_groupChars hne []
  rw [List.append_nil] at hc
  rw [hc, parseIPv6_of_head hcolon, ← hc, parseGroups_groupChars hne hgs hlen.le]
  simp [expandGroups, hlen]

/-- Fewer than eight groups around an ellipsis are read as an address with zeros in between. -/
theorem parseIPv6_around {gs gs' : List Nat} (hgs : ∀ g ∈ gs, g < 65536)
    (hgs' : ∀ g ∈ gs', g < 65536) {n : Nat} (hn : 0 < n) (hlen : gs.length + gs'.length + n = 8) :
    parseIPv6 (groupChars gs ++ ':' :: ':' :: groupChars gs') =
      some (ofGroups (gs ++ List.replicate n 0 ++ gs')) := by
  have hexp : expandGroups (gs ++ gs', some gs.length) =
      some (gs ++ List.replicate n 0 ++ gs') := by
    rw [expandGroups, List.length_append, if_pos (by omega), List.take_left, List.drop_left,
      show 8 - (gs.length + gs'.length) = n by omega]
  by_cases hne : gs = []
  · subst hne
    rw [List.nil_append, List.length_nil] at hexp
    by_cases hne' : gs' = []
    · -- the text is the ellipsis alone
      subst hne'
      simp [groupChars, parseIPv6, hexp]
    · obtain ⟨c, cs, hc, -⟩ := head_groupChars hne' []
      rw [List.append_nil] at hc
      have hp := parseGroups_groupChars hne' hgs' (by omega : _ ≤ 8) [] (some 0)
      rw [hc] at hp
      simp only [groupChars, List.nil_append] at hp ⊢
      rw [hc, parseIPv6, hp]
      · simp [hexp]
      · rintro ⟨⟩
  · obtain ⟨c, cs, hc, hcolon⟩ := head_groupChars hne (':' :: ':' :: groupChars gs')
    have hp := parseGroups_around hne hgs hgs' (by omega : _ ≤ 8) []
    rw [hc, parseIPv6_of_head hcolon, ← hc, hp]
    simp [hexp]

/-- An IPv6 address is read back from its text. -/
theorem parseIP_string {ip : IP} (h : IP.to4 ip = none) : parseIP (IP.string ip) = some ip := by
  have hlen : (IP.groups ip).length = 8 := IP.length_groups ip
  have hlt : ∀ g ∈ IP.groups ip, g < 65536 := fun g hg => IP.groups_lt hg
  cases hrun : IP.longestZeroRun (IP.groups ip) with
  | none =>
    have hs : (IP.string ip).toList = groupChars (IP.groups ip) := by
      simp [IP.string, h, hrun, toList_joinGroups]
    rw [parseIP_of_colons, hs, parseIPv6_groupChars hlt hlen, IP.ofGroups_groups]
    · rw [hs]
      exact groupChars_colon_mem (by omega)
    · intro c hc
      rw [hs] at hc
      exact mem_groupChars hc
  | some run =>
    obtain ⟨i, n⟩ := run
    have hz := IP.isZeroRun_of_longestZeroRun hrun
    have htwo := hz.two_le
    have hinside := hz.inside
    have hs : (IP.string ip).toList = groupChars ((IP.groups ip).take i) ++
        ':' :: ':' :: groupChars ((IP.groups ip).drop (i + n)) := by
      simp [IP.string, h, hrun, toList_joinGroups]
    have hparse : parseIPv6 (IP.string ip).toList = some ip := by
      rw [hs, parseIPv6_around (fun g hg => hlt g (List.mem_of_mem_take hg))
        (fun g hg => hlt g (List.mem_of_mem_drop hg)) (n := n) (by omega), hz.split,
        IP.ofGroups_groups]
      rw [List.length_take, List.length_drop]
      omega
    rw [parseIP_of_colons, hparse]
    · rw [hs]
      simp
    · intro c hc
      rw [hs, List.mem_append, List.mem_cons, List.mem_cons] at hc
      rcases hc with hc | rfl | rfl | hc
      · exact mem_groupChars hc
      · exact .inl rfl
      · exact .inl rfl
      · exact mem_groupChars hc

/-! ## The characters of an address -/

/-! ## Host and port -/

theorem cutLast_eq {c : Char} {l before after : List Char} (h : cutLast c l = some (before, after)) :
    l = before ++ c :: after := by
  induction l generalizing before after with
  | nil => cases h
  | cons d ds ih =>
    rw [cutLast] at h
    cases hcut : cutLast c ds with
    | some p =>
      obtain ⟨before', after'⟩ := p
      rw [hcut] at h
      cases h
      rw [ih hcut]
      rfl
    | none =>
      rw [hcut] at h
      simp only at h
      split_ifs at h with hd
      cases h
      rw [hd]
      rfl

end Vx6.Go
