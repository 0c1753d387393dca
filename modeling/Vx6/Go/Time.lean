import Vx6.Go.Text

/-!
# Instants

A `time.Time` is an instant; it is modelled by the number of nanoseconds since the Unix epoch, as
an integer. `time.Parse(time.RFC3339, ·)` and `Format(time.RFC3339)` are written out, and
`parseRFC3339_unix_bounds` records that a parsed instant fits in an `int64` count of seconds.
-/

set_option autoImplicit false

namespace Vx6.Go

/-- An instant, in nanoseconds since 1970-01-01T00:00:00Z. -/
abbrev Time := Int

/-- A `time.Duration`, in nanoseconds. -/
abbrev Duration := Int

/-- Nanoseconds in a second. -/
def second : Duration := 1000000000

/-- Nanoseconds in a minute. -/
def minute : Duration := 60 * second

/-- Nanoseconds in an hour. -/
def hour : Duration := 60 * minute

/-- The zero `time.Time`, 0001-01-01T00:00:00Z. -/
def zeroTime : Time := -62135596800 * second

/-- `Time.IsZero`. -/
def isZero (t : Time) : Bool := t = zeroTime

/-- `Time.Sub`, which saturates at the ends of the `int64` range. -/
def sub (t u : Time) : Duration := max (-2 ^ 63) (min (2 ^ 63 - 1) (t - u))

/-- `Time.Unix`: whole seconds since the epoch, rounded down. -/
def unix (t : Time) : Int := t / second

theorem unix_mono {t u : Time} (h : t ≤ u) : unix t ≤ unix u :=
  Int.ediv_le_ediv (by decide) h

/-- The conversion `uint64(n)` of an `int64`. -/
def toUInt64 (n : Int) : UInt64 := UInt64.ofNat (n % 2 ^ 64).toNat

/-! ## The civil calendar -/

/-- Leap years of the Gregorian calendar. -/
def isLeap (y : Nat) : Bool := y % 4 = 0 && (y % 100 ≠ 0 || y % 400 = 0)

/-- Days in a month. -/
def daysIn (y m : Nat) : Nat :=
  if m = 2 then (if isLeap y then 29 else 28)
  else if m = 4 ∨ m = 6 ∨ m = 9 ∨ m = 11 then 30
  else 31

/-- Days of the year before the first of month `m` in a year that starts in March. -/
def marchDay (m : Nat) : Nat := (153 * ((m + 9) % 12) + 2) / 5

/-- Days from 1970-01-01 to a date. The year is counted from March, so that the leap day comes
last. -/
def daysFromCivil (y m d : Nat) : Int :=
  let y' : Int := if m ≤ 2 then (y : Int) - 1 else y
  365 * y' + y' / 4 - y' / 100 + y' / 400 + marchDay m + d - 719469

/-! ## RFC 3339 -/

/-- Exactly `n` decimal digits at the front of a character list. -/
def takeDigits (n : Nat) (cs : List Char) : Option (Nat × List Char) :=
  if cs.length < n then none
  else (parseDigits (cs.take n)).map fun v => (v, cs.drop n)

/-- The character `c` at the front of a character list. -/
def expect (c : Char) : List Char → Option (List Char)
  | d :: cs => if d = c then some cs else none
  | [] => none

/-- The hour field, which Go's parser also accepts with a single digit. -/
def takeHour (cs : List Char) : Option (Nat × List Char) :=
  match takeDigits 2 cs with
  | some r => some r
  | none => takeDigits 1 cs

/-- An optional fraction of a second, introduced by a period or a comma, in nanoseconds; digits
past the ninth are dropped. -/
def takeFraction (cs : List Char) : Nat × List Char :=
  match cs with
  | c :: rest =>
      let ds := rest.takeWhile fun d => '0' ≤ d ∧ d ≤ '9'
      if (c = '.' ∨ c = ',') ∧ ds ≠ [] then
        let nine := (ds ++ List.replicate 9 '0').take 9
        ((parseDigits nine).getD 0, rest.drop ds.length)
      else (0, cs)
  | [] => (0, cs)

/-- The zone: `Z`, or a signed offset in hours and minutes. The result is the offset in seconds. -/
def parseZone (cs : List Char) : Option Int := do
  match cs with
  | ['Z'] => some 0
  | sign :: rest =>
      let (hh, rest) ← takeDigits 2 rest
      let rest ← expect ':' rest
      let (mm, rest) ← takeDigits 2 rest
      if rest ≠ [] ∨ 24 < hh ∨ 60 < mm then none
      else if sign = '+' then some (3600 * hh + 60 * mm)
      else if sign = '-' then some (-(3600 * hh + 60 * mm))
      else none
  | [] => none

/-- The fields of a parsed timestamp. -/
structure Civil where
  year : Nat
  month : Nat
  day : Nat
  hour : Nat
  minute : Nat
  second : Nat
  nanosecond : Nat
  offset : Int

namespace Civil

/-- The ranges `time.Parse` checks, and those the field widths give. -/
def inRange (c : Civil) : Bool :=
  c.year < 10000 && 1 ≤ c.month && c.month ≤ 12 && 1 ≤ c.day && c.day ≤ daysIn c.year c.month &&
    c.hour < 24 && c.minute < 60 && c.second < 60 && c.nanosecond < 1000000000 &&
    -90060 ≤ c.offset && c.offset ≤ 90060

/-- Seconds since the epoch, the fraction left out. -/
def seconds (c : Civil) : Int :=
  daysFromCivil c.year c.month c.day * 86400 + 3600 * c.hour + 60 * c.minute + c.second - c.offset

/-- The instant. -/
def time (c : Civil) : Time := c.seconds * Go.second + c.nanosecond

end Civil

/-- The fields of an RFC 3339 timestamp, before the range checks. -/
def parseFields (s : String) : Option Civil := do
  let (year, cs) ← takeDigits 4 s.toList
  let cs ← expect '-' cs
  let (month, cs) ← takeDigits 2 cs
  let cs ← expect '-' cs
  let (day, cs) ← takeDigits 2 cs
  let cs ← expect 'T' cs
  let (hour, cs) ← takeHour cs
  let cs ← expect ':' cs
  let (minute, cs) ← takeDigits 2 cs
  let cs ← expect ':' cs
  let (second, cs) ← takeDigits 2 cs
  let (nanosecond, cs) := takeFraction cs
  let offset ← parseZone cs
  return { year, month, day, hour, minute, second, nanosecond, offset }

/-- `time.Parse(time.RFC3339, s)`. -/
def parseRFC3339 (s : String) : Option Time :=
  match parseFields s with
  | some c => if c.inRange then some c.time else none
  | none => none

/-- A number below a hundred with two digits. -/
def twoDigits (n : Nat) : String := toString (n / 10 % 10) ++ toString (n % 10)

/-- Year, month and day of a count of days since 1970-01-01. -/
def civilFromDays (days : Int) : Int × Nat × Nat :=
  let z := days + 719468
  let era := z / 146097
  let doe := z % 146097
  let yoe := (doe - doe / 1460 + doe / 36524 - doe / 146096) / 365
  let doy := doe - (365 * yoe + yoe / 4 - yoe / 100)
  let mp := (5 * doy + 2) / 153
  let d := doy - (153 * mp + 2) / 5 + 1
  let m := if mp < 10 then mp + 3 else mp - 9
  let y := yoe + era * 400
  (if m ≤ 2 then y + 1 else y, m.toNat, d.toNat)

/-- A year with at least four digits. -/
def formatYear (y : Int) : String :=
  let digits := toString y.natAbs
  (if y < 0 then "-" else "") ++ String.ofList (List.replicate (4 - digits.length) '0') ++ digits

/-- `t.UTC().Format(time.RFC3339)`: fractions of a second are dropped. -/
def formatRFC3339 (t : Time) : String :=
  let secs := unix t
  let (y, m, d) := civilFromDays (secs / 86400)
  let sod := (secs % 86400).toNat
  formatYear y ++ "-" ++ twoDigits m ++ "-" ++ twoDigits d ++ "T" ++ twoDigits (sod / 3600) ++ ":" ++
    twoDigits (sod / 60 % 60) ++ ":" ++ twoDigits (sod % 60) ++ "Z"

example : parseRFC3339 "1970-01-01T00:00:01Z" = some second := by decide

example : parseRFC3339 "2024-02-29T23:30:00.25+00:30" = some (1709247600 * second + 250000000) := by
  decide

example : formatRFC3339 (1709247600 * second) = "2024-02-29T23:00:00Z" := by decide

/-! ## Bounds on parsed instants -/

theorem daysIn_le (y m : Nat) : daysIn y m ≤ 31 := by
  unfold daysIn
  split_ifs <;> omega

theorem daysFromCivil_bounds {y m d : Nat} (hy : y < 10000) (hd : d ≤ 31) :
    -800000 ≤ daysFromCivil y m d ∧ daysFromCivil y m d ≤ 4000000 := by
  have hmarch : marchDay m ≤ 400 := by
    unfold marchDay
    omega
  simp only [daysFromCivil]
  split_ifs <;> constructor <;> omega

/-- The seconds of a timestamp in range fit in an `int64`. -/
theorem Civil.seconds_bounds {c : Civil} (h : c.inRange = true) :
    -2 ^ 62 < c.seconds ∧ c.seconds < 2 ^ 62 := by
  simp only [Civil.inRange, Bool.and_eq_true, decide_eq_true_eq] at h
  obtain ⟨⟨⟨⟨⟨⟨⟨⟨⟨⟨hy, -⟩, hm⟩, -⟩, hd⟩, hh⟩, hmin⟩, hs⟩, -⟩, hlo⟩, hhi⟩ := h
  have hdays := daysFromCivil_bounds (m := c.month) hy (le_trans hd (daysIn_le c.year c.month))
  unfold Civil.seconds
  constructor <;> omega

/-- An instant read from an RFC 3339 timestamp fits in an `int64` count of seconds. -/
theorem parseRFC3339_unix_bounds {s : String} {t : Time} (h : parseRFC3339 s = some t) :
    -2 ^ 62 ≤ unix t ∧ unix t < 2 ^ 62 := by
  unfold parseRFC3339 at h
  split at h
  · rename_i c _
    split_ifs at h with hr
    obtain ⟨hlo, hhi⟩ := Civil.seconds_bounds hr
    have hns : c.nanosecond < 1000000000 := by
      simp only [Civil.inRange, Bool.and_eq_true, decide_eq_true_eq] at hr
      omega
    simp only [Option.some.injEq] at h
    subst h
    unfold unix Civil.time second
    constructor <;> omega
  · cases h

theorem toUInt64_toNat (n : Int) : (toUInt64 n).toNat = (n % 2 ^ 64).toNat := by
  unfold toUInt64
  rw [UInt64.toNat_ofNat']
  omega

end Vx6.Go
