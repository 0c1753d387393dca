import Vx6.Go.Text

/-!
# Addresses

The functions of Go's `net` package that the modelled code calls: `SplitHostPort`, `ParseIP`, and
the methods `To4`, `IsLoopback`, `Mask` and `String` of `net.IP`. An address is its sixteen-byte
form; an IPv4 address is the mapped one, as `ParseIP` returns it.
-/

set_option autoImplicit false

namespace Vx6.Go

/-- `net.IP` in its sixteen-byte form. -/
abbrev IP := BitVec 128

/-! ## Host and port -/

/-- The parts of a character list before and after the last occurrence of `c`. -/
def cutLast (c : Char) : List Char → Option (List Char × List Char)
  | [] => none
  | d :: ds =>
      match cutLast c ds with
      | some (before, after) => some (d :: before, after)
      | none => if d = c then some ([], ds) else none

/-- `net.SplitHostPort`. -/
def splitHostPort (hostport : String) : Option (String × String) := do
  let (before, port) ← cutLast ':' hostport.toList
  let host ←
    match before with
    | '[' :: inner =>
        -- the first closing bracket must stand right before the last colon
        let h := inner.takeWhile fun c => c ≠ ']'
        if inner = h ++ [']'] then some h else none
    | _ => if before.contains ':' then none else some before
  if host.contains '[' ∨ host.contains ']' ∨ port.contains '[' ∨ port.contains ']' then none
  else some (String.ofList host, String.ofList port)

/-! ## Parsing -/

/-- One decimal field of an IPv4 address: at most 255 and without a leading zero. -/
def parseOctet (cs : List Char) : Option Nat := do
  let n ← parseDigits cs
  if 255 < n ∨ (cs.length ≠ 1 ∧ cs.head? = some '0') then none else some n

/-- The 32-bit value of a dotted IPv4 address. -/
def parseIPv4 (cs : List Char) : Option Nat :=
  match splitChars '.' cs with
  | [a, b, c, d] => do
      return ((← parseOctet a) * 256 + (← parseOctet b)) * 65536 +
        (← parseOctet c) * 256 + (← parseOctet d)
  | _ => none

/-- A group of one to four hexadecimal digits. -/
def parseGroup (cs : List Char) : Option Nat :=
  if cs = [] ∨ 4 < cs.length then none
  else cs.foldl (fun acc c => do some (16 * (← acc) + (← hexValue c))) (some 0)

/-- The loop of `parseIPv6`, with room for `n` more groups: the groups read so far, the number of
groups before the ellipsis, and the unread text. -/
def parseGroups : Nat → List Nat → Option Nat → List Char → Option (List Nat × Option Nat)
  | 0, groups, ellipsis, cs => if cs = [] then some (groups, ellipsis) else none
  | n + 1, groups, ellipsis, cs => do
      let digits := cs.takeWhile fun c => (hexValue c).isSome
      let g ← parseGroup digits
      match cs.drop digits.length with
      | '.' :: _ =>
          -- a trailing IPv4 address fills the last two groups
          if ellipsis.isNone ∧ groups.length ≠ 6 ∨ 6 < groups.length then none
          else
            let v ← parseIPv4 cs
            return (groups ++ [v / 65536, v % 65536], ellipsis)
      | [] => return (groups ++ [g], ellipsis)
      | [':'] => none
      | ':' :: ':' :: rest =>
          if ellipsis.isSome then none
          else if rest = [] then return (groups ++ [g], some (groups.length + 1))
          else parseGroups n (groups ++ [g]) (some (groups.length + 1)) rest
      | ':' :: rest => parseGroups n (groups ++ [g]) ellipsis rest
      | _ => none

/-- Eight groups from the groups around an ellipsis, which stands for at least one group. -/
def expandGroups : List Nat × Option Nat → Option (List Nat)
  | (groups, none) => if groups.length = 8 then some groups else none
  | (groups, some k) =>
      if groups.length < 8 then
        some (groups.take k ++ List.replicate (8 - groups.length) 0 ++ groups.drop k)
      else none

/-- The value of eight groups. -/
def ofGroups (groups : List Nat) : IP :=
  BitVec.ofNat 128 (groups.foldl (fun acc g => 65536 * acc + g) 0)

/-- An IPv6 address without a zone. -/
def parseIPv6 (cs : List Char) : Option IP := do
  let parsed ←
    match cs with
    | [':', ':'] => some ([], some 0)
    | ':' :: ':' :: rest => parseGroups 8 [] (some 0) rest
    | _ => parseGroups 8 [] none cs
  return ofGroups (← expandGroups parsed)

/-- `net.ParseIP`: the first period or colon decides which form is read. -/
def parseIP (s : String) : Option IP :=
  match s.toList.find? fun c => c = '.' || c = ':' with
  | some '.' => (parseIPv4 s.toList).map fun v => BitVec.ofNat 128 (0xffff * 2 ^ 32 + v)
  | some ':' => parseIPv6 s.toList
  | _ => none

/-! ## Methods -/

namespace IP

/-- `To4`: the 32-bit value of an IPv4 address. -/
def to4 (ip : IP) : Option Nat :=
  if ip.toNat / 2 ^ 32 = 0xffff then some (ip.toNat % 2 ^ 32) else none

/-- `IsLoopback`. -/
def isLoopback (ip : IP) : Bool :=
  match to4 ip with
  | some v => v / 2 ^ 24 = 127
  | none => ip.toNat = 1

/-- `Mask(net.CIDRMask(ones, 128))`. -/
def mask (ip : IP) (ones : Nat) : IP :=
  BitVec.ofNat 128 (ip.toNat / 2 ^ (128 - ones) * 2 ^ (128 - ones))

/-- `Mask(net.CIDRMask(ones, 32))` on an IPv4 address. -/
def mask4 (v ones : Nat) : Nat := v / 2 ^ (32 - ones) * 2 ^ (32 - ones)

/-- Dotted form. -/
def string4 (v : Nat) : String :=
  toString (v / 2 ^ 24 % 256) ++ "." ++ toString (v / 2 ^ 16 % 256) ++ "." ++
    toString (v / 2 ^ 8 % 256) ++ "." ++ toString (v % 256)

/-- The eight groups. -/
def groups (ip : IP) : List Nat :=
  [7, 6, 5, 4, 3, 2, 1, 0].map fun i => ip.toNat / 2 ^ (16 * i) % 65536

/-- Lower-case hexadecimal digits without leading zeros. -/
def hexGroup (n : Nat) : String :=
  String.ofList (Nat.toDigits 16 n)

/-- Length of the run of zero groups at the front. -/
def zeroRun (gs : List Nat) : Nat := (gs.takeWhile fun g => g = 0).length

/-- The first longest run of at least two zero groups: its start and length. -/
def longestZeroRun (gs : List Nat) : Option (Nat × Nat) :=
  (List.range gs.length).foldl
    (fun best i =>
      let n := zeroRun (gs.drop i)
      if n < 2 then best
      else
        match best with
        | some (_, m) => if m < n then some (i, n) else best
        | none => some (i, n))
    none

/-- Groups separated by colons. -/
def joinGroups (gs : List Nat) : String := join (gs.map hexGroup) ":"

/-- `String`. -/
def string (ip : IP) : String :=
  match to4 ip with
  | some v => string4 v
  | none =>
      let gs := groups ip
      match longestZeroRun gs with
      | some (i, n) => joinGroups (gs.take i) ++ "::" ++ joinGroups (gs.drop (i + n))
      | none => joinGroups gs

end IP

example : splitHostPort "[2001:db8::2]:4242" = some ("2001:db8::2", "4242") := by decide

example : (parseIP "2001:db8::2").map (fun ip => IP.string (IP.mask ip 64)) = some "2001:db8::" := by
  decide

example : (parseIP "127.0.0.1").map IP.isLoopback = some true := by decide

end Vx6.Go
