import OsModa.Base.IpAddr
import OsModa.Base.Text

/-!
The egress proxy: which requests it opens a tunnel for, and which address the tunnel is
connected to.

The host of a request must be allowed. Its addresses are resolved once, all of them are
checked, and the connection goes to the first of them that can be reached. The check
knows the internal addresses of IPv4, but of IPv6 only the loopback and the unspecified
address (`missed_iff`), which decides when a tunnel may reach an internal endpoint
(`guarded_iff`).

The resolver and the network are parameters: any list of addresses may be the answer,
and any of them may be reachable.
-/

namespace OsModa.Egress

open OsModa.Text OsModa.Net

/-- Check if an IP address is internal/private (SSRF protection). -/
def isInternalIp : IpAddr → Bool
  | .v4 ip =>
    ip.isLoopback || ip.isPrivate || ip.isLinkLocal || (ip.a == 169 && ip.b == 254) ||
      ip.isBroadcast || ip.isUnspecified
  | .v6 ip => ip.isLoopback || ip.isUnspecified

/-! ### Requests -/

inductive Method where
  | connect
  | other
  deriving DecidableEq

/-- What the authority of a request is read as. -/
structure Authority where
  host : String
  port : Option UInt16
  text : String

structure Request where
  method : Method
  authority : Option Authority

structure Response where
  status : Nat
  body : String
  deriving DecidableEq

/-- The response to a request, and the target of the tunnel that is opened for it. -/
def handleRequest (u : Unicode) (allowedDomains : List String) (req : Request) :
    Response × Option String :=
  match req.method with
  | .connect =>
    let host := req.authority.map fun a => String.ofList (toLowercase u a.host.toList)
    let port := (req.authority.bind (·.port)).getD 443
    if port ≠ 443 then
      (⟨403, "Only port 443 allowed, got port " ++ Nat.repr port.toNat⟩, none)
    else match host with
      | some domain =>
        if domain ∈ allowedDomains then (⟨200, ""⟩, req.authority.map (·.text))
        else (⟨403, "Domain '" ++ domain ++ "' not in egress allowlist"⟩, none)
      | none => (⟨400, "Missing host in CONNECT request"⟩, none)
  | .other => (⟨405, "Only CONNECT method is supported. This is an egress proxy."⟩, none)

/-! ### Tunnels -/

inductive TunnelError where
  | resolutionFailed
  | noAddresses
  | internalIp (ip : IpAddr)
  | connectFailed
  deriving DecidableEq

section Tunnel

variable (resolve : String → Option (List SocketAddr)) (reachable : SocketAddr → Bool)

/-- The address that a tunnel is connected to. -/
def tunnel (target : String) : Except TunnelError SocketAddr :=
  match resolve target with
  | none => .error .resolutionFailed
  | some addrs =>
    if addrs = [] then .error .noAddresses
    else match addrs.find? fun addr => isInternalIp addr.ip with
      | some addr => .error (.internalIp addr.ip)
      | none =>
        -- `TcpStream::connect` tries the addresses in their order.
        match addrs.find? reachable with
        | some addr => .ok addr
        | none => .error .connectFailed

/-- The connection that a request ends in; the upgrade to a tunnel may fail. -/
def connection (u : Unicode) (allowedDomains : List String) (upgraded : Bool) (req : Request) :
    Option SocketAddr :=
  if upgraded then
    (handleRequest u allowedDomains req).2.bind fun target =>
      (tunnel resolve reachable target).toOption
  else none

end Tunnel

/-! ### Internal addresses -/

def InternalV4 (ip : Ipv4Addr) : Prop :=
  Ipv4Addr.loopbackBlock.Contains ip.value ∨ (∃ b ∈ Ipv4Addr.privateBlocks, b.Contains ip.value) ∨
    Ipv4Addr.linkLocalBlock.Contains ip.value ∨ Ipv4Addr.unspecifiedBlock.Contains ip.value

/-- The IPv6 addresses that stand for an internal endpoint and that the check does not
know. -/
def MissedV6 (ip : Ipv6Addr) : Prop :=
  Ipv6Addr.uniqueLocalBlock.Contains ip.value ∨ Ipv6Addr.linkLocalBlock.Contains ip.value ∨
    ∃ v4, InternalV4 v4 ∧ ip = Ipv6Addr.mapped v4

/-- The address denotes an internal endpoint. -/
def Internal : IpAddr → Prop
  | .v4 ip => InternalV4 ip
  | .v6 ip =>
    Ipv6Addr.loopbackBlock.Contains ip.value ∨ Ipv6Addr.unspecifiedBlock.Contains ip.value ∨
      Ipv6Addr.uniqueLocalBlock.Contains ip.value ∨ Ipv6Addr.linkLocalBlock.Contains ip.value ∨
        ∃ v4, InternalV4 v4 ∧ ip = Ipv6Addr.mapped v4

def Missed : IpAddr → Prop
  | .v4 _ => False
  | .v6 ip => MissedV6 ip

/-- Of IPv4 the check knows every internal address, and rejects the broadcast address as
well. -/
theorem isInternalIp_v4_iff {ip : Ipv4Addr} :
    isInternalIp (.v4 ip) = true ↔ InternalV4 ip ∨ ip = ⟨255, 255, 255, 255⟩ := by
  have hmetadata : (ip.a == 169 && ip.b == 254) = ip.isLinkLocal := rfl
  simp only [isInternalIp, hmetadata, Bool.or_eq_true, Ipv4Addr.isLoopback_iff,
    Ipv4Addr.isPrivate_iff, Ipv4Addr.isLinkLocal_iff, Ipv4Addr.isUnspecified_iff,
    Ipv4Addr.isBroadcast, beq_iff_eq, InternalV4]
  constructor
  · rintro (((((h | h) | h) | h) | h) | h)
    · exact Or.inl (Or.inl h)
    · exact Or.inl (Or.inr (Or.inl h))
    · exact Or.inl (Or.inr (Or.inr (Or.inl h)))
    · exact Or.inl (Or.inr (Or.inr (Or.inl h)))
    · exact Or.inr h
    · exact Or.inl (Or.inr (Or.inr (Or.inr h)))
  · rintro ((h | h | h | h) | h)
    · exact Or.inl (Or.inl (Or.inl (Or.inl (Or.inl h))))
    · exact Or.inl (Or.inl (Or.inl (Or.inl (Or.inr h))))
    · exact Or.inl (Or.inl (Or.inr h))
    · exact Or.inr h
    · exact Or.inl (Or.inr h)

theorem isInternalIp_v6_iff {ip : Ipv6Addr} :
    isInternalIp (.v6 ip) = true ↔
      Ipv6Addr.loopbackBlock.Contains ip.value ∨ Ipv6Addr.unspecifiedBlock.Contains ip.value := by
  rw [isInternalIp, Bool.or_eq_true, Ipv6Addr.isLoopback_iff, Ipv6Addr.isUnspecified_iff]

/-- Missed addresses lie far above the two that the check knows. -/
theorem not_known_of_missed {ip : Ipv6Addr} (h : MissedV6 ip) : isInternalIp (.v6 ip) = false := by
  have hvalue : 1 < ip.value := by
    obtain h | h | ⟨v4, -, rfl⟩ := h
    · have hmin := (Block.contains_iff.mp h).1
      exact Nat.lt_of_lt_of_le (by decide) hmin
    · have hmin := (Block.contains_iff.mp h).1
      exact Nat.lt_of_lt_of_le (by decide) hmin
    · rw [Ipv6Addr.value_mapped]
      omega
  rw [Bool.eq_false_iff, Ne, isInternalIp_v6_iff, Block.contains_iff, Block.contains_iff]
  unfold Ipv6Addr.loopbackBlock Ipv6Addr.unspecifiedBlock
  dsimp only
  omega

/-- What is missed is internal and passes the check, over both families. -/
theorem missed_iff {ip : IpAddr} : Missed ip ↔ Internal ip ∧ isInternalIp ip = false := by
  cases ip with
  | v4 ip =>
    refine iff_of_false id ?_
    rintro ⟨hinternal, hpasses⟩
    rw [isInternalIp_v4_iff.mpr (Or.inl hinternal)] at hpasses
    cases hpasses
  | v6 ip =>
    constructor
    · intro hmissed
      exact ⟨Or.inr (Or.inr hmissed), not_known_of_missed hmissed⟩
    · rintro ⟨hinternal, hpasses⟩
      have hunknown := mt isInternalIp_v6_iff.mpr (Bool.eq_false_iff.mp hpasses)
      obtain h | h | hmissed := hinternal
      · exact absurd (Or.inl h) hunknown
      · exact absurd (Or.inr h) hunknown
      · exact hmissed

/-! ### Which address is reached -/

section

variable {u : Unicode} {allowedDomains : List String} {req : Request} {target : String}
variable {resolve : String → Option (List SocketAddr)} {reachable : SocketAddr → Bool}

/-- The request is answered with a tunnel to the target. -/
def Admitted (u : Unicode) (allowedDomains : List String) (req : Request) (target : String) :
    Prop :=
  req.method = .connect ∧ ∃ a, req.authority = some a ∧ a.port.getD 443 = 443 ∧
    String.ofList (toLowercase u a.host.toList) ∈ allowedDomains ∧ a.text = target

theorem handleRequest_eq_some_iff :
    (handleRequest u allowedDomains req).2 = some target ↔
      Admitted u allowedDomains req target := by
  obtain ⟨method, authority⟩ := req
  unfold handleRequest Admitted
  cases method with
  | other => exact iff_of_false nofun nofun
  | connect =>
    cases authority with
    | none => simp
    | some a =>
      simp only [Option.map_some, Option.bind_some]
      split_ifs with hport hallowed
      · simp [hport]
      · simp [not_not.mp hport, hallowed]
      · simp [hallowed]

/-- A tunnel is connected to an address that was checked together with all the others. -/
theorem tunnel_eq_ok {addr : SocketAddr} (h : tunnel resolve reachable target = .ok addr) :
    ∃ addrs, resolve target = some addrs ∧ addr ∈ addrs ∧
      ∀ a ∈ addrs, isInternalIp a.ip = false := by
  unfold tunnel at h
  cases hresolve : resolve target with
  | none =>
    rw [hresolve] at h
    cases h
  | some addrs =>
    rw [hresolve] at h
    dsimp only at h
    split_ifs at h
    cases hcheck : addrs.find? fun addr => isInternalIp addr.ip with
    | some internal =>
      rw [hcheck] at h
      cases h
    | none =>
      rw [hcheck] at h
      dsimp only at h
      cases hreach : addrs.find? reachable with
      | none =>
        rw [hreach] at h
        cases h
      | some first =>
        rw [hreach] at h
        obtain rfl := Except.ok.inj h
        refine ⟨addrs, rfl, List.mem_of_find?_eq_some hreach, fun a ha => ?_⟩
        exact Bool.eq_false_iff.mpr (List.find?_eq_none.mp hcheck a ha)

/-- Any address of an answer that passes the check is the one that the tunnel is connected to
where no other can be reached. -/
theorem tunnel_of_only {addrs : List SocketAddr} {addr : SocketAddr}
    (hresolve : resolve target = some addrs) (hmem : addr ∈ addrs)
    (hpasses : ∀ a ∈ addrs, isInternalIp a.ip = false) :
    tunnel resolve (fun a => a = addr) target = .ok addr := by
  have hcheck : (addrs.find? fun a => isInternalIp a.ip) = none :=
    List.find?_eq_none.mpr fun a ha => Bool.eq_false_iff.mp (hpasses a ha)
  obtain ⟨first, hfirst⟩ := Option.isSome_iff_exists.mp
    (List.find?_isSome.mpr ⟨addr, hmem, decide_eq_true rfl⟩ :
      (addrs.find? fun a => decide (a = addr)).isSome = true)
  have hsame : first = addr := by simpa using List.find?_some hfirst
  unfold tunnel
  rw [hresolve]
  dsimp only
  rw [if_neg (List.ne_nil_of_mem hmem), hcheck]
  dsimp only
  rw [hfirst, hsame]

theorem connection_eq_some_iff {upgraded : Bool} {addr : SocketAddr} :
    connection resolve reachable u allowedDomains upgraded req = some addr ↔
      upgraded = true ∧ ∃ target, Admitted u allowedDomains req target ∧
        tunnel resolve reachable target = .ok addr := by
  have hok : ∀ target, (tunnel resolve reachable target).toOption = some addr ↔
      tunnel resolve reachable target = .ok addr := by
    intro target
    cases tunnel resolve reachable target with
    | error e => exact iff_of_false nofun nofun
    | ok a => simp [Except.toOption]
  unfold connection
  cases upgraded with
  | false => simp
  | true => simp only [if_true, Option.bind_eq_some_iff, handleRequest_eq_some_iff, hok, true_and]

/-- Whatever can be reached, the proxy connects to no internal address. -/
def Guarded (u : Unicode) (allowedDomains : List String) (req : Request)
    (resolve : String → Option (List SocketAddr)) : Prop :=
  ∀ reachable upgraded addr,
    connection resolve reachable u allowedDomains upgraded req = some addr → ¬Internal addr.ip

/-- **When a tunnel is safe from internal addresses.** For every request and every answer of
the resolver: exactly when the request is not admitted, or the answer holds an address that
the check knows, or none that it misses. -/
theorem guarded_iff :
    Guarded u allowedDomains req resolve ↔
      ∀ target, Admitted u allowedDomains req target → ∀ addrs, resolve target = some addrs →
        (∃ a ∈ addrs, isInternalIp a.ip = true) ∨ ∀ a ∈ addrs, ¬Missed a.ip := by
  constructor
  · intro hguarded target hadmitted addrs hresolve
    by_contra hnot
    obtain ⟨hunknown, hmissed⟩ := not_or.mp hnot
    simp only [not_exists, not_and, Bool.not_eq_true] at hunknown
    simp only [not_forall, not_not] at hmissed
    obtain ⟨addr, hmem, hmissed⟩ := hmissed
    refine hguarded (fun a => a = addr) true addr ?_ (missed_iff.mp hmissed).1
    exact connection_eq_some_iff.mpr
      ⟨rfl, target, hadmitted, tunnel_of_only hresolve hmem hunknown⟩
  · intro hanswers reachable upgraded addr hconnected hinternal
    obtain ⟨-, target, hadmitted, hok⟩ := connection_eq_some_iff.mp hconnected
    obtain ⟨addrs, hresolve, hmem, hpasses⟩ := tunnel_eq_ok hok
    obtain ⟨a, ha, hknown⟩ | hnone := hanswers target hadmitted addrs hresolve
    · rw [hpasses a ha] at hknown
      cases hknown
    · exact hnone addr hmem (missed_iff.mpr ⟨hinternal, hpasses addr hmem⟩)

end

/-- A request for the public site that the proxy allows by default. -/
def publicRequest : Request := ⟨.connect, some ⟨"github.com", some 443, "github.com:443"⟩⟩

/-- fd00::1, fe80::1 and ::ffff:169.254.169.254. -/
def missedAddresses : List SocketAddr :=
  [⟨.v6 ⟨0xfd00, 0, 0, 0, 0, 0, 0, 1⟩, 443⟩, ⟨.v6 ⟨0xfe80, 0, 0, 0, 0, 0, 0, 1⟩, 443⟩,
   ⟨.v6 (Ipv6Addr.mapped ⟨169, 254, 169, 254⟩), 443⟩]

/-- An answer of one address of each kind that the check misses passes it, and whichever of
them can be reached is connected to. -/
theorem missed_reached :
    (missedAddresses.map fun addr => connection (fun _ => some missedAddresses)
      (fun a => a = addr) Unicode.ascii ["github.com"] true publicRequest) =
        missedAddresses.map some ∧
      ¬Guarded Unicode.ascii ["github.com"] publicRequest fun _ => some missedAddresses := by
  refine ⟨by decide +kernel, fun hguarded => ?_⟩
  have hreached : connection (fun _ => some missedAddresses) (fun _ => true) Unicode.ascii
      ["github.com"] true publicRequest = some ⟨.v6 ⟨0xfd00, 0, 0, 0, 0, 0, 0, 1⟩, 443⟩ := by
    decide +kernel
  have hmissed : MissedV6 ⟨0xfd00, 0, 0, 0, 0, 0, 0, 1⟩ := Or.inl (by decide)
  exact hguarded _ _ _ hreached (Or.inr (Or.inr hmissed))

end OsModa.Egress
