import Vx6.Lib.Dict
import Vx6.Lib.FirstMatch
import Vx6.Lib.Run
import Vx6.Go.Addr

/-!
# The packet filter

`internal/ipsec/firewall.go`: the state of the `inet vx6` table, its three operations, and the rules
`firewallRules` writes for it. A rule is kept as data next to its text, and a packet gets the verdict
of the first rule of its chain that matches, or the chain's policy.

The rules come in three groups, and `verdict_probe`, `verdict_port` and `verdict_revoked` give the
verdict group by group. Cleartext to a listener port and key exchange with a revoked peer are dropped
exactly while the ports are kept apart (`enforces_iff_separated`).
-/

set_option autoImplicit false

namespace Vx6.Ipsec

open Vx6.Go Vx6.Lib

/-- `strconv.ParseUint(s, 10, 16)`. -/
def parsePort (s : String) : Option UInt16 :=
  match parseDigits s.toList with
  | some n => if n < 2 ^ 16 then some (UInt16.ofNat n) else none
  | none => none

/-! ## State and operations -/

/-- `firewallState`. -/
structure FirewallState where
  ports : List UInt16 := []
  probePorts : List UInt16 := []
  revoked : Dict String (List String) := ∅

/-- The errors of the operations; `notApplied` is a failure to persist the state or to apply it. -/
inductive FirewallError where
  | invalidListenerPort
  | invalidProbePort
  | invalidAddress
  | notIPv6
  | notApplied
  deriving DecidableEq, Repr

namespace FirewallState

/-- The body of `RegisterPort` and `RegisterProbePort`: the list after the call and its result.
`applied` is the outcome of `saveAndApply`. -/
def addPort (known : List UInt16) (port : String) (invalid : FirewallError) (applied : Bool) :
    List UInt16 × Except FirewallError Unit :=
  match parsePort port with
  | none => (known, .error invalid)
  | some value =>
      if value = 0 then (known, .error invalid)
      else if value ∈ known then (known, .ok ())
      else if applied then (known ++ [value], .ok ())
      -- the appended port is taken off again
      else (known, .error .notApplied)

/-- `RegisterPort`. -/
def registerPort (s : FirewallState) (port : String) (applied : Bool) :
    FirewallState × Except FirewallError Unit :=
  let added := addPort s.ports port .invalidListenerPort applied
  ({ s with ports := added.1 }, added.2)

/-- `RegisterProbePort`. -/
def registerProbePort (s : FirewallState) (port : String) (applied : Bool) :
    FirewallState × Except FirewallError Unit :=
  let added := addPort s.probePorts port .invalidProbePort applied
  ({ s with probePorts := added.1 }, added.2)

/-- `Revoke`. After a failure the old list is put back, also where there was none. -/
def revoke (s : FirewallState) (nodeID address : String) (applied : Bool) :
    FirewallState × Except FirewallError Unit :=
  match splitHostPort address with
  | none => (s, .error .invalidAddress)
  | some (host, _) =>
      match parseIP host with
      | none => (s, .error .notIPv6)
      | some ip =>
          if (IP.to4 ip).isSome then (s, .error .notIPv6)
          else
            let old := (s.revoked.lookup nodeID).getD []
            if IP.string ip ∈ old then (s, .ok ())
            else if applied then
              ({ s with revoked := s.revoked.insert nodeID (old ++ [IP.string ip]) }, .ok ())
            else ({ s with revoked := s.revoked.insert nodeID old }, .error .notApplied)

end FirewallState

/-! ## Rules -/

/-- The two base chains. -/
inductive Chain where
  | input
  | output
  deriving DecidableEq, Repr

/-- What a rule decides. -/
inductive Verdict where
  | accept
  | drop
  deriving DecidableEq, Repr

/-- Transport protocols. -/
inductive Proto where
  | tcp
  | udp
  | esp
  | other (number : UInt8)
  deriving DecidableEq, Repr

/-- What the rules read of a packet. `ipsec` tells whether it was decrypted by the kernel (`meta
ipsec`) or will be encrypted (`rt ipsec`). -/
structure Packet where
  saddr : IP
  daddr : IP
  proto : Proto
  dport : UInt16
  ipsec : Bool

/-- The match expressions the rules use. -/
inductive Expr where
  | tcpDport (port : UInt16)
  | udpDport (port : UInt16)
  | ipsecExists
  | ip6Saddr (ip : IP)
  | ip6Daddr (ip : IP)
  | l4protoEsp
  deriving DecidableEq

/-- Whether a packet satisfies a match expression. -/
def Expr.holds (p : Packet) : Expr → Bool
  | .tcpDport port => p.proto = .tcp && p.dport = port
  | .udpDport port => p.proto = .udp && p.dport = port
  | .ipsecExists => p.ipsec
  | .ip6Saddr ip => p.saddr = ip
  | .ip6Daddr ip => p.daddr = ip
  | .l4protoEsp => p.proto = .esp

/-- The text of a match expression. -/
def Expr.text (chain : Chain) : Expr → String
  | .tcpDport port => "tcp dport " ++ toString port.toNat ++ " "
  | .udpDport port => "udp dport " ++ toString port.toNat ++ " "
  | .ipsecExists =>
      match chain with
      | .input => "meta ipsec exists "
      | .output => "rt ipsec exists "
  | .ip6Saddr ip => "ip6 saddr " ++ IP.string ip ++ " "
  | .ip6Daddr ip => "ip6 daddr " ++ IP.string ip ++ " "
  | .l4protoEsp => "meta l4proto esp "

/-- A rule: its chain, the expressions that must all hold, and its verdict. -/
structure Rule where
  chain : Chain
  exprs : List Expr
  verdict : Verdict

namespace Rule

/-- The line that adds the rule. -/
def text (r : Rule) : String :=
  "add rule inet vx6 " ++ (match r.chain with | .input => "input " | .output => "output ") ++
    String.join (r.exprs.map (Expr.text r.chain)) ++
    (match r.verdict with | .accept => "accept" | .drop => "drop") ++ "\n"

/-- Whether the rule applies to a packet that passes a chain. -/
def applies (r : Rule) (item : Chain × Packet) : Bool :=
  r.chain = item.1 && r.exprs.all fun e => e.holds item.2

end Rule

/-- The rules for a liveness probe port. -/
def probeRules (port : UInt16) : List Rule :=
  [⟨.input, [.udpDport port], .accept⟩, ⟨.output, [.udpDport port], .accept⟩]

/-- The rules for a listener port in one chain. -/
def portRules (port : UInt16) (chain : Chain) : List Rule :=
  [⟨chain, [.tcpDport port, .ipsecExists], .accept⟩,
    ⟨chain, [.udpDport port, .ipsecExists], .accept⟩,
    ⟨chain, [.tcpDport port], .drop⟩,
    ⟨chain, [.udpDport port], .drop⟩]

/-- The rules for an address of a revoked peer. -/
def revokedRules (ip : IP) : List Rule :=
  [⟨.input, [.ip6Saddr ip, .udpDport 500], .drop⟩,
    ⟨.output, [.ip6Daddr ip, .udpDport 500], .drop⟩,
    ⟨.input, [.ip6Saddr ip, .l4protoEsp], .drop⟩,
    ⟨.output, [.ip6Daddr ip, .l4protoEsp], .drop⟩]

/-- The rules for an address as it is stored; what is not an IPv6 address is skipped. -/
def storedAddressRules (address : String) : List Rule :=
  match parseIP address with
  | some ip => if (IP.to4 ip).isSome then [] else revokedRules ip
  | none => []

namespace FirewallState

/-- The rules in the order in which they are added. -/
def rules (s : FirewallState) : List Rule :=
  ((s.probePorts.insertionSort (· ≤ ·)).flatMap probeRules ++
    (s.ports.insertionSort (· ≤ ·)).flatMap fun port =>
      portRules port .input ++ portRules port .output) ++
    (s.revoked.keys.insertionSort (· ≤ ·)).flatMap fun node =>
      (((s.revoked.lookup node).getD []).insertionSort (· ≤ ·)).flatMap storedAddressRules

end FirewallState

/-- `firewallRules`: the script for `nft`. -/
def firewallRules (s : FirewallState) : String :=
  "add table inet vx6\n" ++
    "add chain inet vx6 input \x7b type filter hook input priority -10; policy accept; \x7d\n" ++
    "add chain inet vx6 output \x7b type filter hook output priority -10; policy accept; \x7d\n" ++
    String.join (s.rules.map Rule.text)

/-- The verdict on a packet that passes a chain: the first rule that applies, or the policy. -/
def verdict (s : FirewallState) (chain : Chain) (p : Packet) : Verdict :=
  (firstMatch Rule.applies Rule.verdict s.rules (chain, p)).getD .accept

/-! ## The verdict as a function of the state -/

/-- TCP and UDP packets to a port. -/
def Packet.toPort (p : Packet) (port : UInt16) : Prop :=
  (p.proto = .tcp ∨ p.proto = .udp) ∧ p.dport = port

/-- Packets of the key exchange and of the tunnel itself. -/
def Packet.isKeyExchangeOrEsp (p : Packet) : Prop :=
  (p.proto = .udp ∧ p.dport = 500) ∨ p.proto = .esp

/-- The address of the other side. -/
def Packet.peer (p : Packet) : Chain → IP
  | .input => p.saddr
  | .output => p.daddr

/-- The address belongs to a revoked peer. -/
def FirewallState.RevokedAddress (s : FirewallState) (ip : IP) : Prop :=
  IP.to4 ip = none ∧ ∃ node addresses, s.revoked.lookup node = some addresses ∧
    IP.string ip ∈ addresses

section Blocks

variable (chain : Chain) (p : Packet)

theorem probeRules_decide (port : UInt16) :
    Decides Rule.applies Rule.verdict (probeRules port) (chain, p) .accept
      (p.proto = .udp ∧ p.dport = port) := by
  by_cases h : p.proto = .udp ∧ p.dport = port
  · refine .inl ⟨?_, h⟩
    obtain ⟨hu, hp⟩ := h
    cases chain <;> simp [firstMatch, probeRules, Rule.applies, Expr.holds, hu, hp]
  · refine .inr ⟨?_, h⟩
    rw [firstMatch_eq_none]
    simp only [probeRules, List.mem_cons, List.not_mem_nil, or_false]
    rintro r (rfl | rfl) <;> simp [Rule.applies, Expr.holds] <;> tauto

/-- What a listener port's rules answer where they apply. -/
def portAnswer (p : Packet) : Verdict := if p.ipsec then .accept else .drop

theorem portRules_decide (port : UInt16) :
    Decides Rule.applies Rule.verdict (portRules port .input ++ portRules port .output) (chain, p)
      (portAnswer p) (p.toPort port) := by
  by_cases h : p.toPort port
  · refine .inl ⟨?_, h⟩
    obtain ⟨hproto, hport⟩ := h
    -- the cleartext rules stand after the protected ones, so the mark decides
    cases hi : p.ipsec <;> cases chain <;> rcases hproto with ht | hu <;>
      simp [firstMatch, portRules, Rule.applies, Expr.holds, portAnswer, *]
  · refine .inr ⟨?_, h⟩
    rw [firstMatch_eq_none]
    simp only [Packet.toPort] at h
    simp only [portRules, List.mem_append, List.mem_cons, List.not_mem_nil, or_false]
    rintro r ((rfl | rfl | rfl | rfl) | (rfl | rfl | rfl | rfl)) <;>
      simp [Rule.applies, Expr.holds] <;> tauto

theorem revokedRules_decide (ip : IP) :
    Decides Rule.applies Rule.verdict (revokedRules ip) (chain, p) .drop
      (p.peer chain = ip ∧ p.isKeyExchangeOrEsp) := by
  by_cases h : p.peer chain = ip ∧ p.isKeyExchangeOrEsp
  · refine .inl ⟨?_, h⟩
    obtain ⟨hpeer, ⟨hu, hport⟩ | he⟩ := h
    · cases chain <;> simp [Packet.peer] at hpeer <;>
        simp [firstMatch, revokedRules, Rule.applies, Expr.holds, *]
    · cases chain <;> simp [Packet.peer] at hpeer <;>
        simp [firstMatch, revokedRules, Rule.applies, Expr.holds, *]
  · refine .inr ⟨?_, h⟩
    rw [firstMatch_eq_none]
    simp only [Packet.isKeyExchangeOrEsp] at h
    simp only [revokedRules, List.mem_cons, List.not_mem_nil, or_false]
    rintro r (rfl | rfl | rfl | rfl) <;> cases chain <;>
      simp [Rule.applies, Expr.holds, Packet.peer] at h ⊢ <;> tauto

theorem storedAddressRules_decide (address : String) :
    Decides Rule.applies Rule.verdict (storedAddressRules address) (chain, p) .drop
      (parseIP address = some (p.peer chain) ∧ IP.to4 (p.peer chain) = none ∧
        p.isKeyExchangeOrEsp) := by
  cases hparse : parseIP address with
  | none => exact .inr ⟨by simp [storedAddressRules, hparse, firstMatch], by simp⟩
  | some ip =>
    by_cases h4 : (IP.to4 ip).isSome = true
    · refine .inr ⟨by simp [storedAddressRules, hparse, h4, firstMatch], ?_⟩
      rintro ⟨h, hnone, -⟩
      cases h
      rw [hnone] at h4
      cases h4
    · rw [storedAddressRules, hparse]
      simp only [h4, if_false, Bool.false_eq_true]
      apply (revokedRules_decide chain p ip).iff
      rw [Option.not_isSome_iff_eq_none] at h4
      constructor
      · rintro ⟨rfl, hk⟩
        exact ⟨rfl, h4, hk⟩
      · rintro ⟨h, -, hk⟩
        cases h
        exact ⟨rfl, hk⟩

end Blocks

/-- The state has a rule that drops key exchange and tunnel packets of the address. -/
def FirewallState.HasDropRules (s : FirewallState) (ip : IP) : Prop :=
  ∃ node addresses, s.revoked.lookup node = some addresses ∧
    ∃ address ∈ addresses, parseIP address = some ip ∧ IP.to4 ip = none

section Verdict

variable (s : FirewallState) (chain : Chain) (p : Packet)

theorem probeGroup_decides :
    Decides Rule.applies Rule.verdict ((s.probePorts.insertionSort (· ≤ ·)).flatMap probeRules)
      (chain, p) .accept (p.proto = .udp ∧ p.dport ∈ s.probePorts) := by
  apply (Decides.flatMap fun port _ => probeRules_decide chain p port).iff
  simp only [List.mem_insertionSort]
  constructor
  · rintro ⟨port, hm, hu, rfl⟩
    exact ⟨hu, hm⟩
  · rintro ⟨hu, hm⟩
    exact ⟨_, hm, hu, rfl⟩

theorem portGroup_decides :
    Decides Rule.applies Rule.verdict
      ((s.ports.insertionSort (· ≤ ·)).flatMap fun port =>
        portRules port .input ++ portRules port .output)
      (chain, p) (portAnswer p) (∃ port ∈ s.ports, p.toPort port) := by
  apply (Decides.flatMap fun port _ => portRules_decide chain p port).iff
  simp only [List.mem_insertionSort]

theorem revokedGroup_decides :
    Decides Rule.applies Rule.verdict
      ((s.revoked.keys.insertionSort (· ≤ ·)).flatMap fun node =>
        (((s.revoked.lookup node).getD []).insertionSort (· ≤ ·)).flatMap storedAddressRules)
      (chain, p) .drop (s.HasDropRules (p.peer chain) ∧ p.isKeyExchangeOrEsp) := by
  apply (Decides.flatMap fun node _ =>
    Decides.flatMap fun address _ => storedAddressRules_decide chain p address).iff
  simp only [List.mem_insertionSort]
  constructor
  · rintro ⟨node, hnode, address, ha, hparse, h4, hk⟩
    obtain ⟨addresses, hl⟩ := Dict.exists_lookup_of_mem_keys hnode
    rw [hl, Option.getD_some] at ha
    exact ⟨⟨node, addresses, hl, address, ha, hparse, h4⟩, hk⟩
  · rintro ⟨⟨node, addresses, hl, address, ha, hparse, h4⟩, hk⟩
    exact ⟨node, Dict.mem_keys_of_lookup hl, address, by rwa [hl], hparse, h4, hk⟩

variable {s chain p}

/-- UDP to a probe port passes, whatever else is known of the port. -/
theorem verdict_probe (hu : p.proto = .udp) (hport : p.dport ∈ s.probePorts) :
    verdict s chain p = .accept := by
  rw [verdict, FirewallState.rules, firstMatch_append, firstMatch_append]
  rcases probeGroup_decides s chain p with ⟨h, -⟩ | ⟨-, h⟩
  · simp [h]
  · exact absurd ⟨hu, hport⟩ h

/-- TCP and UDP to a listener port that is not a probe port pass when they are protected. -/
theorem verdict_port (hprobe : ¬ (p.proto = .udp ∧ p.dport ∈ s.probePorts)) {port : UInt16}
    (hport : port ∈ s.ports) (hto : p.toPort port) : verdict s chain p = portAnswer p := by
  rw [verdict, FirewallState.rules, firstMatch_append, firstMatch_append]
  rcases probeGroup_decides s chain p with ⟨-, h⟩ | ⟨h, -⟩
  · exact absurd h hprobe
  · rcases portGroup_decides s chain p with ⟨h', -⟩ | ⟨-, h'⟩
    · simp [h, h']
    · exact absurd ⟨port, hport, hto⟩ h'

/-- Key exchange and tunnel packets of an address with drop rules are dropped on other ports. -/
theorem verdict_revoked (hprobe : ¬ (p.proto = .udp ∧ p.dport ∈ s.probePorts))
    (hports : ∀ port ∈ s.ports, ¬ p.toPort port) (hrules : s.HasDropRules (p.peer chain))
    (hk : p.isKeyExchangeOrEsp) : verdict s chain p = .drop := by
  rw [verdict, FirewallState.rules, firstMatch_append, firstMatch_append]
  rcases probeGroup_decides s chain p with ⟨-, h⟩ | ⟨h, -⟩
  · exact absurd h hprobe
  · rcases portGroup_decides s chain p with ⟨-, port, hport, hto⟩ | ⟨h', -⟩
    · exact absurd hto (hports port hport)
    · rcases revokedGroup_decides s chain p with ⟨h'', -⟩ | ⟨-, h''⟩
      · simp [h, h', h'']
      · exact absurd ⟨hrules, hk⟩ h''

end Verdict

/-! ## What the filter is for -/

/-- Cleartext to a listener port is dropped, and so is the key exchange and tunnel traffic of a
revoked peer. -/
structure Enforces (s : FirewallState) : Prop where
  cleartext : ∀ (chain : Chain) (p : Packet) (port : UInt16), port ∈ s.ports → p.toPort port →
    p.ipsec = false → verdict s chain p = .drop
  revoked : ∀ (chain : Chain) (p : Packet), s.RevokedAddress (p.peer chain) →
    p.isKeyExchangeOrEsp → verdict s chain p = .drop

/-- No port is both a listener port and a probe port, and while an address is revoked the key
exchange port is neither. -/
structure Separated (s : FirewallState) : Prop where
  disjoint : ∀ port ∈ s.ports, port ∉ s.probePorts
  keyExchange : ∀ ip, s.RevokedAddress ip → 500 ∉ s.ports ∧ 500 ∉ s.probePorts

/-- A revoked address has drop rules: the address that was stored as text is read back. -/
theorem FirewallState.RevokedAddress.hasDropRules {s : FirewallState} {ip : IP}
    (h : s.RevokedAddress ip) : s.HasDropRules ip := by
  obtain ⟨h4, node, addresses, hl, hmem⟩ := h
  exact ⟨node, addresses, hl, _, hmem, parseIP_string h4, h4⟩

theorem Separated.enforces {s : FirewallState} (h : Separated s) : Enforces s where
  cleartext := by
    intro chain p port hport hto hclear
    rw [verdict_port (fun hp => h.disjoint port hport (hto.2 ▸ hp.2)) hport hto, portAnswer, hclear]
    rfl
  revoked := by
    intro chain p hr hk
    obtain ⟨hports, hprobe⟩ := h.keyExchange _ hr
    apply verdict_revoked _ _ hr.hasDropRules hk
    · rintro ⟨hu, hm⟩
      rcases hk with ⟨-, h500⟩ | he
      · exact hprobe (h500 ▸ hm)
      · rw [hu] at he
        cases he
    · rintro port hport ⟨hproto, rfl⟩
      rcases hk with ⟨-, h500⟩ | he
      · exact hports (h500 ▸ hport)
      · rw [he] at hproto
        rcases hproto with hproto | hproto <;> cases hproto

theorem Enforces.separated {s : FirewallState} (h : Enforces s) : Separated s where
  disjoint := by
    intro port hport hprobe
    -- an unprotected datagram to the port meets the probe rule first
    have hdrop := h.cleartext .input ⟨0, 0, .udp, port, false⟩ port hport ⟨.inr rfl, rfl⟩ rfl
    rw [verdict_probe rfl hprobe] at hdrop
    cases hdrop
  keyExchange := by
    intro ip hip
    have hdrop := h.revoked .input ⟨ip, 0, .udp, 500, true⟩ hip (.inl ⟨rfl, rfl⟩)
    have hprobe : 500 ∉ s.probePorts := by
      intro hprobe
      rw [verdict_probe rfl hprobe] at hdrop
      cases hdrop
    refine ⟨fun hport => ?_, hprobe⟩
    rw [verdict_port (fun hp => hprobe hp.2) hport ⟨.inr rfl, rfl⟩] at hdrop
    cases hdrop

/-! ## Runs -/

/-- A call, with the outcome of `saveAndApply`. -/
inductive FirewallCall where
  | registerPort (port : String) (applied : Bool)
  | registerProbePort (port : String) (applied : Bool)
  | revoke (nodeID address : String) (applied : Bool)

/-- The state after a call. -/
def FirewallState.step (s : FirewallState) : FirewallCall → FirewallState
  | .registerPort port applied => (s.registerPort port applied).1
  | .registerProbePort port applied => (s.registerProbePort port applied).1
  | .revoke nodeID address applied => (s.revoke nodeID address applied).1

/-- The call keeps the ports apart: a listener port is not a probe port already and conversely, and
the key exchange port is not registered together with a revocation. -/
def KeepsApart (s : FirewallState) : FirewallCall → Prop
  | .registerPort port _ => ∀ value, parsePort port = some value →
      value ∉ s.probePorts ∧ (value = 500 → ∀ ip, ¬ s.RevokedAddress ip)
  | .registerProbePort port _ => ∀ value, parsePort port = some value →
      value ∉ s.ports ∧ (value = 500 → ∀ ip, ¬ s.RevokedAddress ip)
  | .revoke _ _ _ => 500 ∉ s.ports ∧ 500 ∉ s.probePorts

theorem addPort_cases (known : List UInt16) (port : String) (e : FirewallError) (applied : Bool) :
    (FirewallState.addPort known port e applied).1 = known ∨
      ∃ value, parsePort port = some value ∧
        (FirewallState.addPort known port e applied).1 = known ++ [value] := by
  rw [FirewallState.addPort]
  cases parsePort port with
  | none => exact .inl rfl
  | some value =>
    dsimp only
    split_ifs
    · exact .inl rfl
    · exact .inl rfl
    · exact .inr ⟨value, rfl, rfl⟩
    · exact .inl rfl

theorem revoke_ports (s : FirewallState) (nodeID address : String) (applied : Bool) :
    (s.revoke nodeID address applied).1.ports = s.ports ∧
      (s.revoke nodeID address applied).1.probePorts = s.probePorts := by
  rw [FirewallState.revoke]
  split
  · exact ⟨rfl, rfl⟩
  · split
    · exact ⟨rfl, rfl⟩
    · dsimp only
      split_ifs <;> exact ⟨rfl, rfl⟩

theorem Separated.addPort {s : FirewallState} (h : Separated s) {value : UInt16}
    (hnew : value ∉ s.probePorts) (h500 : value = 500 → ∀ ip, ¬ s.RevokedAddress ip) :
    Separated { s with ports := s.ports ++ [value] } where
  disjoint := by
    intro x hx
    rcases List.mem_append.1 hx with hx | hx
    · exact h.disjoint x hx
    · rwa [List.mem_singleton.1 hx]
  keyExchange := by
    intro ip hip
    refine ⟨fun hm => ?_, (h.keyExchange ip hip).2⟩
    rcases List.mem_append.1 hm with hm | hm
    · exact (h.keyExchange ip hip).1 hm
    · exact h500 (List.mem_singleton.1 hm).symm ip hip

theorem Separated.addProbePort {s : FirewallState} (h : Separated s) {value : UInt16}
    (hnew : value ∉ s.ports) (h500 : value = 500 → ∀ ip, ¬ s.RevokedAddress ip) :
    Separated { s with probePorts := s.probePorts ++ [value] } where
  disjoint := by
    intro x hx hm
    rcases List.mem_append.1 hm with hm | hm
    · exact h.disjoint x hx hm
    · rw [List.mem_singleton.1 hm] at hx
      exact hnew hx
  keyExchange := by
    intro ip hip
    refine ⟨(h.keyExchange ip hip).1, fun hm => ?_⟩
    rcases List.mem_append.1 hm with hm | hm
    · exact (h.keyExchange ip hip).2 hm
    · exact h500 (List.mem_singleton.1 hm).symm ip hip

theorem Separated.step {s : FirewallState} {call : FirewallCall} (h : Separated s)
    (hok : KeepsApart s call) : Separated (s.step call) := by
  cases call with
  | registerPort port applied =>
    show Separated { s with ports := _ }
    rcases addPort_cases s.ports port .invalidListenerPort applied with he | ⟨value, hv, he⟩
    · rw [he]
      exact h
    · obtain ⟨hnew, h500⟩ := hok value hv
      rw [he]
      exact h.addPort hnew h500
  | registerProbePort port applied =>
    show Separated { s with probePorts := _ }
    rcases addPort_cases s.probePorts port .invalidProbePort applied with he | ⟨value, hv, he⟩
    · rw [he]
      exact h
    · obtain ⟨hnew, h500⟩ := hok value hv
      rw [he]
      exact h.addProbePort hnew h500
  | revoke nodeID address applied =>
    obtain ⟨hp, hpp⟩ := revoke_ports s nodeID address applied
    refine ⟨?_, ?_⟩
    · rw [FirewallState.step, hp, hpp]
      exact h.disjoint
    · rw [FirewallState.step, hp, hpp]
      exact fun _ _ => hok

/-- The filter drops what it is for exactly while the ports are kept apart, and it does so in every
state reached from the empty one by calls that keep them apart. -/
theorem enforces_iff_separated (s : FirewallState) :
    (Enforces s ↔ Separated s) ∧
      (Reach (fun s call => some (FirewallState.step s call)) KeepsApart {} s → Enforces s) := by
  refine ⟨⟨Enforces.separated, Separated.enforces⟩, fun hreach => ?_⟩
  apply Separated.enforces
  apply Reach.invariant _ hreach
  · exact ⟨by simp, fun ip hip => by simp⟩
  · intro s call t hs hok hstep
    cases hstep
    exact hs.step hok

theorem enforces_registered :
    Enforces ((({} : FirewallState).step (.registerPort "4242" true)).step
      (.registerProbePort "4243" true)) := by
  refine (enforces_iff_separated _).2 (.tail (.tail .refl ⟨_, ?_, rfl⟩) ⟨_, ?_, rfl⟩)
  · intro value hv
    refine ⟨by simp, ?_⟩
    rintro rfl
    exact absurd hv (by decide)
  · intro value hv
    obtain rfl : value = 4243 := by
      have h : parsePort "4243" = some 4243 := by decide
      rw [h] at hv
      exact (Option.some.inj hv).symm
    exact ⟨by decide, fun h => absurd h (by decide)⟩

/-- Two nodes on one host: the probe port of the first is the listener port of the second. A
datagram without protection to that listener port is accepted. -/
theorem probe_port_opens_listener :
    ∃ s, Reach (fun s call => some (FirewallState.step s call)) (fun _ _ => True) {} s ∧
      4243 ∈ s.ports ∧ verdict s .input ⟨1, 2, .udp, 4243, false⟩ = .accept := by
  refine ⟨(((({} : FirewallState).step (.registerPort "4242" true)).step
    (.registerProbePort "4243" true)).step (.registerPort "4243" true)), ?_, by decide, by decide⟩
  exact .tail (.tail (.tail .refl ⟨_, trivial, rfl⟩) ⟨_, trivial, rfl⟩) ⟨_, trivial, rfl⟩

end Vx6.Ipsec
