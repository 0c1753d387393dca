import Mathlib.Tactic.IntervalCases
import Vx6.Go.Time

/-!
# Written instants

What `Format(time.RFC3339)` writes, `time.Parse(time.RFC3339, ·)` reads: `parseRFC3339_formatRFC3339` for
the instants whose year has four digits, and no others. The fraction of a second is lost on the way.
-/

set_option autoImplicit false

namespace Vx6.Go

/-! ## Days and dates -/

/-- The place of a day in its 400 years: centuries, groups of four years, years and days. Only the last
year of a group has a day 365, and only the last century has one in its last group. -/
structure EraDay (doe c q s r : Int) : Prop where
  century : 0 ≤ c ∧ c ≤ 3
  group : 0 ≤ q ∧ q ≤ 24
  year : 0 ≤ s ∧ s ≤ 3
  day : 0 ≤ r ∧ r ≤ 365
  total : doe = 36524 * c + 1461 * q + 365 * s + r
  leap : r = 365 → s = 3 ∧ (q = 24 → c = 3)

theorem exists_eraDay {doe : Int} (h0 : 0 ≤ doe) (h1 : doe < 146097) :
    ∃ c q s r : Int, EraDay doe c q s r := by
  let c := min (doe / 36524) 3
  let rest := doe - 36524 * c
  let q := rest / 1461
  let t := rest % 1461
  let s := min (t / 365) 3
  refine ⟨c, q, s, t - 365 * s, ?_, ?_, ?_, ?_, ?_, ?_⟩ <;> simp only [c, rest, q, t, s] <;> omega

/-- The year that `civilFromDays` computes from the day of the 400 years. -/
theorem EraDay.yearOfEra {doe c q s r : Int} (h : EraDay doe c q s r) :
    (doe - doe / 1460 + doe / 36524 - doe / 146096) / 365 = 100 * c + 4 * q + s := by
  obtain ⟨hc, hq, hs, hr, hd, hl⟩ := h
  have hlast : doe / 146096 = if doe = 146096 then 1 else 0 := by split <;> omega
  have hcentury : doe / 36524 = if doe = 146096 then 4 else c := by split <;> omega
  rw [hlast, hcentury]
  split <;> omega

/-- The day of the year that it computes. -/
theorem EraDay.dayOfYear {doe c q s r : Int} (h : EraDay doe c q s r) :
    doe - (365 * (100 * c + 4 * q + s) + (100 * c + 4 * q + s) / 4 - (100 * c + 4 * q + s) / 100) = r := by
  obtain ⟨hc, hq, hs, hr, hd, -⟩ := h
  have hgroups : (100 * c + 4 * q + s) / 4 = 25 * c + q := by omega
  have hcenturies : (100 * c + 4 * q + s) / 100 = c := by omega
  rw [hgroups, hcenturies]
  omega

/-- `civilFromDays` on a day of which the place in its 400 years is known. -/
theorem civilFromDays_eq {days c q s r : Int} (h : EraDay ((days + 719468) % 146097) c q s r) :
    civilFromDays days =
      let y := 100 * c + 4 * q + s + (days + 719468) / 146097 * 400
      let mp := (5 * r + 2) / 153
      let m := if mp < 10 then mp + 3 else mp - 9
      (if m ≤ 2 then y + 1 else y, m.toNat, (r - (153 * mp + 2) / 5 + 1).toNat) := by
  have hyear := h.yearOfEra
  have hday := h.dayOfYear
  simp only [civilFromDays, hyear, hday]

/-- The month, counted from March, of a day of the year, and the day in it. -/
structure MarchDate (r m d : Int) : Prop where
  month : 1 ≤ m ∧ m ≤ 12
  day : 1 ≤ d
  total : (marchDay m.toNat : Int) + d = r + 1
  newYear : m ≤ 2 ↔ 306 ≤ r
  inMonth : ∀ y, (r = 365 → isLeap y = true) → d.toNat ≤ daysIn y m.toNat

theorem marchDate {r mp : Int} (hr : 0 ≤ r ∧ r ≤ 365) (hmp : mp = (5 * r + 2) / 153) :
    MarchDate r (if mp < 10 then mp + 3 else mp - 9) (r - (153 * mp + 2) / 5 + 1) := by
  have hlo : 0 ≤ mp := by omega
  have hhi : mp ≤ 11 := by omega
  have hday : 153 * mp ≤ 5 * r + 2 ∧ 5 * r + 2 < 153 * mp + 153 := by omega
  clear hmp
  interval_cases mp
  all_goals
    refine ⟨by decide, by omega, ?_, by omega, ?_⟩
    · simp only [marchDay]
      omega
    · intro y hleap
      cases hy : isLeap y with
      | true =>
        norm_num [daysIn, hy]
        omega
      | false =>
        have hlast : r ≠ 365 := fun hlast => Bool.false_ne_true (hy.symm.trans (hleap hlast))
        norm_num [daysIn, hy]
        omega

/-- The first and the last day of the years 0 to 9999. -/
def firstDay : Int := -719528

@[inherit_doc firstDay]
def lastDay : Int := 2932896

/-- The days before a year that starts in March. -/
theorem marchYear_days (era : Int) {c q s : Int} (hc : 0 ≤ c ∧ c ≤ 3) (hq : 0 ≤ q ∧ q ≤ 24)
    (hs : 0 ≤ s ∧ s ≤ 3) :
    let y := 100 * c + 4 * q + s + era * 400
    365 * y + y / 4 - y / 100 + y / 400 = 146097 * era + 36524 * c + 1461 * q + 365 * s := by
  intro y
  have hgroups : y / 4 = 25 * c + q + era * 100 := by simp only [y]; omega
  have hcenturies : y / 100 = c + era * 4 := by simp only [y]; omega
  have heras : y / 400 = era := by simp only [y]; omega
  rw [hgroups, hcenturies, heras]
  simp only [y]
  omega

/-- The year that follows one with a day 365 is a leap year. -/
theorem isLeap_of_eraDay {doe c q s r era : Int} (h : EraDay doe c q s r) (hr : r = 365) {y : Nat}
    (hy : (y : Int) = 100 * c + 4 * q + s + era * 400 + 1) : isLeap y = true := by
  obtain ⟨hs, hlast⟩ := h.leap hr
  obtain ⟨hc, hq, -, -, -, -⟩ := h
  simp only [isLeap, Bool.and_eq_true, Bool.or_eq_true, decide_eq_true_eq]
  by_cases hfull : q = 24
  · have hcentury := hlast hfull
    exact ⟨by omega, .inr (by omega)⟩
  · exact ⟨by omega, .inl (by omega)⟩

/-- `civilFromDays` gives a date of the calendar, and `daysFromCivil` gives back the day. -/
theorem civilFromDays_spec {days : Int} (hlo : firstDay ≤ days) (hhi : days ≤ lastDay) :
    ∃ y m d : Nat, civilFromDays days = ((y : Int), m, d) ∧ y < 10000 ∧ (1 ≤ m ∧ m ≤ 12) ∧
      (1 ≤ d ∧ d ≤ daysIn y m) ∧ daysFromCivil y m d = days := by
  obtain ⟨c, q, s, r, h⟩ := @exists_eraDay ((days + 719468) % 146097) (by omega) (by omega)
  have hdate := marchDate h.day rfl
  rw [civilFromDays_eq h]
  dsimp only
  simp only [firstDay, lastDay] at hlo hhi
  generalize hera : (days + 719468) / 146097 = era at *
  generalize hmonth : (if (5 * r + 2) / 153 < 10 then (5 * r + 2) / 153 +
    3 else (5 * r + 2) / 153 - 9) = m at *
  generalize r - (153 * ((5 * r + 2) / 153) + 2) / 5 + 1 = d at *
  have hdays : days = 146097 * era + 36524 * c + 1461 * q + 365 * s + r - 719468 := by
    have htotal := h.total
    omega
  have hyears := marchYear_days era h.century h.group h.year
  set y := 100 * c + 4 * q + s + era * 400 with hy
  have hbounds : (-1 ≤ y ∧ y ≤ 9999) ∧ (y = -1 → 306 ≤ r) ∧ (y = 9999 → r < 306) := by
    obtain ⟨hc, hq, hs, hr, -, -⟩ := h
    refine ⟨⟨?_, ?_⟩, ?_, ?_⟩ <;> omega
  obtain ⟨hmonth, hday, htotal, hnewYear, hinMonth⟩ := hdate
  -- the year changes in January
  by_cases hjan : m ≤ 2
  · have hr : 306 ≤ r := hnewYear.1 hjan
    have hy0 : ((y + 1).toNat : Int) = y + 1 := by omega
    refine ⟨(y + 1).toNat, m.toNat, d.toNat, by rw [if_pos hjan, hy0], by omega, by omega,
      ⟨by omega, hinMonth _ fun hlast => isLeap_of_eraDay h hlast (hy0.trans (by rw [hy]))⟩, ?_⟩
    simp only [daysFromCivil, hy0]
    rw [if_pos (by omega), show y + 1 - 1 = y by omega]
    omega
  · have hr : r < 306 := by
      rw [← not_le]
      exact fun hr => hjan (hnewYear.2 hr)
    have hy0 : (y.toNat : Int) = y := by omega
    refine ⟨y.toNat, m.toNat, d.toNat, by rw [if_neg hjan, hy0], by omega, by omega,
      ⟨by omega, hinMonth _ fun hlast => by omega⟩, ?_⟩
    simp only [daysFromCivil, hy0]
    rw [if_neg (by omega)]
    omega

/-! ## Digits -/

theorem digitValue_digitChar {n : Nat} (h : n < 10) : digitValue n.digitChar = some n := by
  interval_cases n <;> decide

theorem takeDigits_two {a b : Nat} (ha : a < 10) (hb : b < 10) (cs : List Char) :
    takeDigits 2 (a.digitChar :: b.digitChar :: cs) = some (10 * a + b, cs) := by
  simp [takeDigits, parseDigits, digitValue_digitChar ha, digitValue_digitChar hb]

theorem takeDigits_four {a b c d : Nat} (ha : a < 10) (hb : b < 10) (hc : c < 10) (hd : d < 10)
    (cs : List Char) :
    takeDigits 4 (a.digitChar :: b.digitChar :: c.digitChar :: d.digitChar :: cs) =
      some (10 * (10 * (10 * a + b) + c) + d, cs) := by
  simp [takeDigits, parseDigits, digitValue_digitChar ha, digitValue_digitChar hb, digitValue_digitChar hc,
    digitValue_digitChar hd]

theorem toList_toString_digit {n : Nat} (h : n < 10) : (toString n).toList = [n.digitChar] := by
  have hdigits : (toString n).toList = Nat.toDigits 10 n := Nat.toList_repr
  rw [hdigits, Nat.toDigits_of_lt_base h]

theorem twoDigits_toList (n : Nat) :
    (twoDigits n).toList = [(n / 10 % 10).digitChar, (n % 10).digitChar] := by
  rw [twoDigits, String.toList_append, toList_toString_digit (by omega), toList_toString_digit (by omega)]
  rfl

/-- The four digits of a number, with leading zeros. -/
def fourDigits (n : Nat) : List Char :=
  [(n / 1000).digitChar, (n / 100 % 10).digitChar, (n / 10 % 10).digitChar, (n % 10).digitChar]

/-- Leading zeros fill the digits of a number up. -/
theorem replicate_toDigits {n : Nat} (h : n < 10000) :
    List.replicate (4 - (Nat.toDigits 10 n).length) '0' ++ Nat.toDigits 10 n = fourDigits n := by
  have hzero : '0' = Nat.digitChar 0 := rfl
  rw [fourDigits]
  by_cases h1 : n < 10
  · rw [Nat.toDigits_of_lt_base h1, show n / 1000 = 0 by omega, show n / 100 % 10 = 0 by omega,
      show n / 10 % 10 = 0 by omega, show n % 10 = n by omega]
    rfl
  rw [Nat.toDigits_of_base_le (by decide) (by omega)]
  by_cases h2 : n < 100
  · rw [Nat.toDigits_of_lt_base (by omega : n / 10 < 10), show n / 1000 = 0 by omega,
      show n / 100 % 10 = 0 by omega, show n / 10 % 10 = n / 10 by omega]
    rfl
  rw [Nat.toDigits_of_base_le (by decide) (by omega : 10 ≤ n / 10)]
  by_cases h3 : n < 1000
  · rw [Nat.toDigits_of_lt_base (by omega : n / 10 / 10 < 10), show n / 1000 = 0 by omega,
      show n / 10 / 10 = n / 100 % 10 by omega]
    rfl
  · rw [Nat.toDigits_of_base_le (by decide) (by omega : 10 ≤ n / 10 / 10),
      Nat.toDigits_of_lt_base (by omega : n / 10 / 10 / 10 < 10), show n / 10 / 10 / 10 =
        n / 1000 by omega,
      show n / 10 / 10 % 10 = n / 100 % 10 by omega]
    rfl

theorem formatYear_toList {y : Nat} (h : y < 10000) : (formatYear y).toList = fourDigits y := by
  have hdigits : (toString y).toList = Nat.toDigits 10 y := Nat.toList_repr
  have hlength : (toString y).length =
    (Nat.toDigits 10 y).length := by rw [← hdigits, String.length_toList]
  have hpositive : ¬ (y : Int) < 0 := by omega
  simp only [formatYear, Int.natAbs_natCast, hpositive, if_false, String.toList_append,
    String.toList_ofList,
    hdigits, hlength]
  rw [← replicate_toDigits h]
  rfl

/-! ## Reading what was written -/

theorem takeDigits_twoDigits {n : Nat} (h : n < 100) (cs : List Char) :
    takeDigits 2 ((twoDigits n).toList ++ cs) = some (n, cs) := by
  have htwo := takeDigits_two (a := n / 10 % 10) (b := n % 10) (by omega) (by omega) cs
  rw [twoDigits_toList, List.cons_append, List.cons_append, List.nil_append, htwo,
    show 10 * (n / 10 % 10) + n % 10 = n by omega]

theorem takeDigits_formatYear {y : Nat} (h : y < 10000) (cs : List Char) :
    takeDigits 4 ((formatYear y).toList ++ cs) = some (y, cs) := by
  have hfour := takeDigits_four (a := y / 1000) (b := y / 100 % 10) (c := y / 10 % 10) (d := y % 10)
    (by omega) (by omega) (by omega) (by omega) cs
  rw [formatYear_toList h]
  simp only [fourDigits, List.cons_append, List.nil_append]
  rw [hfour, show 10 * (10 * (10 * (y / 1000) + y / 100 % 10) + y / 10 % 10) + y % 10 = y by omega]

theorem expect_cons (c : Char) (cs : List Char) : expect c (c :: cs) = some cs := by
  rw [expect, if_pos rfl]

/-- The fields of a text in the form of RFC 3339 in UTC. -/
theorem parseFields_of_digits {y m d hh mm ss : Nat} (hy : y < 10000) (hm : m < 100) (hd : d < 100)
    (hhour : hh < 100) (hminute : mm < 100) (hsecond : ss < 100) :
    parseFields (formatYear y ++ "-" ++ twoDigits m ++ "-" ++ twoDigits d ++ "T" ++ twoDigits hh ++ ":" ++
      twoDigits mm ++ ":" ++ twoDigits ss ++ "Z") =
    some { year := y, month := m, day := d, hour := hh, minute := mm, second := ss, nanosecond := 0,
           offset := 0 } := by
  have hfraction : takeFraction ['Z'] = (0, ['Z']) := by decide
  have hzone : parseZone ['Z'] = some 0 := rfl
  have hdash : "-".toList = ['-'] := rfl
  have hT : "T".toList = ['T'] := rfl
  have hcolon : ":".toList = [':'] := rfl
  have hZ : "Z".toList = ['Z'] := rfl
  simp only [parseFields, String.toList_append, List.append_assoc, hdash, hT, hcolon, hZ,
    List.cons_append, List.nil_append,
    takeDigits_formatYear hy, takeHour, takeDigits_twoDigits hm, takeDigits_twoDigits hd,
    takeDigits_twoDigits hhour, takeDigits_twoDigits hminute, takeDigits_twoDigits hsecond, expect_cons,
    Option.bind_eq_bind, Option.bind_some, hfraction, hzone]
  rfl

/-- The instants whose year has four digits. -/
def fourDigitYear (t : Time) : Prop := firstDay ≤ unix t / 86400 ∧ unix t / 86400 ≤ lastDay

instance (t : Time) : Decidable (fourDigitYear t) := inferInstanceAs (Decidable (_ ∧ _))

/-- A written instant is read as its whole seconds. -/
theorem parseRFC3339_formatRFC3339 {t : Time} (h : fourDigitYear t) :
    parseRFC3339 (formatRFC3339 t) = some (unix t * second) := by
  obtain ⟨y, m, d, hcivil, hy, hm, hd, hdays⟩ := civilFromDays_spec h.1 h.2
  have hdayLe := daysIn_le y m
  rw [formatRFC3339]
  simp only [hcivil]
  generalize hsod : (unix t % 86400).toNat = sod
  rw [parseRFC3339, parseFields_of_digits hy (by omega) (by omega) (by omega) (by omega) (by omega)]
  have hrange : Civil.inRange ⟨y, m, d, sod / 3600, sod / 60 % 60, sod % 60, 0, 0⟩ = true := by
    simp only [Civil.inRange, Bool.and_eq_true, decide_eq_true_eq]
    omega
  have htime : Civil.time ⟨y, m, d, sod / 3600, sod / 60 % 60, sod % 60, 0, 0⟩ = unix t * second := by
    simp only [Civil.time, Civil.seconds, hdays, Int.natCast_zero, Int.add_zero]
    congr 1
    omega
  simp only [hrange, if_true, htime]

/-! ## Other years -/

/-- Outside these days the year is negative or has more than four digits. -/
theorem civilFromDays_out {days : Int} (h : days < firstDay ∨ lastDay < days) :
    (civilFromDays days).1 < 0 ∨ 10000 ≤ (civilFromDays days).1 := by
  obtain ⟨c, q, s, r, hera⟩ := @exists_eraDay ((days + 719468) % 146097) (by omega) (by omega)
  obtain ⟨-, -, -, hnewYear, -⟩ := marchDate hera.day rfl
  rw [civilFromDays_eq hera]
  dsimp only
  simp only [firstDay, lastDay] at h
  obtain ⟨hc, hq, hs, hr, htotal, -⟩ := hera
  generalize hera : (days + 719468) / 146097 = era
  have hdays : days + 719468 = 146097 * era + (36524 * c + 1461 * q + 365 * s + r) := by omega
  -- the last 60 days of the 400 years are in the year that ends them
  have hlast : 146037 ≤ 36524 * c + 1461 * q + 365 * s + r → c = 3 ∧ q = 24 ∧ s = 3 ∧ 306 ≤ r := by
    intro hlate
    have hc3 : c = 3 := by omega
    have hq24 : q = 24 := by omega
    exact ⟨hc3, hq24, by omega, by omega⟩
  have hfirst : 36524 * c + 1461 * q + 365 * s + r < 146037 → 100 * c + 4 * q + s = 399 → r < 306 := by
    intro hearly hyear
    omega
  have hyear : 0 ≤ 100 * c + 4 * q + s ∧ 100 * c + 4 * q + s ≤ 399 := by omega
  have htotal' : 0 ≤ 36524 * c + 1461 * q + 365 * s + r ∧
      36524 * c + 1461 * q + 365 * s + r ≤ 146096 := by omega
  rcases h with hlow | hhigh
  · left
    have hneg : era ≤ -1 := by omega
    rcases eq_or_lt_of_le hneg with hlastEra | hbefore
    · have hr306 := hfirst (by omega)
      split_ifs at hnewYear ⊢ <;> omega
    · split_ifs <;> omega
  · right
    have hpos : 24 ≤ era := by omega
    rcases eq_or_lt_of_le hpos with hlastEra | hafter
    · obtain ⟨hc3, hq24, hs3, hr306⟩ := hlast (by omega)
      split_ifs at hnewYear ⊢ <;> omega
    · split_ifs <;> omega

theorem takeDigits_of_no_digit {c : Char} (hc : digitValue c = none) (n : Nat) (cs : List Char) :
    takeDigits (n + 1) (c :: cs) = none := by
  have hfold : ∀ ds : List Char,
      ds.foldl (fun acc d => do some (10 * (← acc) + (← digitValue d))) (none : Option Nat) = none := by
    intro ds
    induction ds with
    | nil => rfl
    | cons d ds ih => exact ih
  simp only [takeDigits, List.take_succ_cons, parseDigits, List.foldl_cons, hc]
  split_ifs
  · rfl
  · exact congrArg (Option.map _) (hfold _)

/-- A number of five digits or more, and the fifth of them. -/
theorem toDigits_five {n : Nat} (h : 10000 ≤ n) :
    ∃ a b c d e rest, Nat.toDigits 10 n = a :: b :: c :: d :: e :: rest ∧ e ≠ '-' := by
  have hdigits : ∀ c ∈ Nat.toDigits 10 n, c ≠ '-' := by
    intro c hc hdash
    have hdigit := Nat.isDigit_of_mem_toDigits (b := 10) (by decide) (by decide) hc
    rw [hdash] at hdigit
    exact absurd hdigit (by decide)
  have hlength : 5 ≤ (Nat.toDigits 10 n).length := by
    have hlast : Nat.toDigits 10 (n / 10 / 10 / 10 / 10) ≠ [] := Nat.toDigits_ne_nil
    have hpos := List.length_pos_iff.2 hlast
    rw [Nat.toDigits_of_base_le (by decide) (by omega), Nat.toDigits_of_base_le (by decide) (by omega),
      Nat.toDigits_of_base_le (by decide) (by omega), Nat.toDigits_of_base_le (by decide) (by omega)]
    simp only [List.length_append, List.length_singleton]
    omega
  rcases hlist : Nat.toDigits 10 n with _ | ⟨a, _ | ⟨b, _ | ⟨c, _ | ⟨d, _ | ⟨e, rest⟩⟩⟩⟩⟩
  case cons.cons.cons.cons.cons =>
    exact ⟨a, b, c, d, e, rest, rfl, hdigits e (by rw [hlist]; simp)⟩
  all_goals
    rw [hlist] at hlength
    simp at hlength

/-- A text that begins with another year is not read. -/
theorem parseFields_of_year {y : Int} (h : y < 0 ∨ 10000 ≤ y) (rest : String) :
    parseFields (formatYear y ++ ("-" ++ rest)) = none := by
  rw [← String.append_assoc]
  rcases h with hneg | hbig
  · have hyear : ∃ cs, (formatYear y ++ "-" ++ rest).toList = '-' :: cs := by
      simp only [formatYear, if_pos hneg, String.toList_append, List.append_assoc]
      exact ⟨_, rfl⟩
    obtain ⟨cs, hcs⟩ := hyear
    rw [parseFields, hcs, takeDigits_of_no_digit (by decide)]
    rfl
  · obtain ⟨a, b, c, d, e, tail, hlist, hdash⟩ := toDigits_five (by omega : 10000 ≤ y.natAbs)
    have hdigits : (toString y.natAbs).toList = a :: b :: c :: d :: e :: tail := Nat.toList_repr.trans hlist
    have hlength : 4 - (toString y.natAbs).length = 0 := by
      rw [← String.length_toList, hdigits]
      simp
    have hpositive : ¬ y < 0 := by omega
    have hyear : (formatYear y ++ "-" ++ rest).toList =
        a :: b :: c :: d :: e :: (tail ++ "-".toList ++ rest.toList) := by
      simp only [formatYear, if_neg hpositive, String.toList_append, String.toList_ofList, hdigits, hlength]
      simp
    rw [parseFields, hyear, takeDigits]
    cases parseDigits ((a :: b :: c :: d :: e :: (tail ++ "-".toList ++ rest.toList)).take 4) with
    | none => rfl
    | some v => simp [expect, hdash]

/-- Exactly the instants whose year has four digits are read back. -/
theorem isSome_parseRFC3339_formatRFC3339 (t : Time) :
    (parseRFC3339 (formatRFC3339 t)).isSome = true ↔ fourDigitYear t := by
  constructor
  · intro hread
    by_contra hyear
    have hout := civilFromDays_out (by rw [fourDigitYear] at hyear; omega : unix t / 86400 < firstDay ∨
      lastDay < unix t / 86400)
    have hnone : parseFields (formatRFC3339 t) = none := by
      rw [formatRFC3339]
      simp only [String.append_assoc]
      exact parseFields_of_year hout _
    rw [parseRFC3339, hnone] at hread
    cases hread
  · intro h
    rw [parseRFC3339_formatRFC3339 h]
    rfl

end Vx6.Go
