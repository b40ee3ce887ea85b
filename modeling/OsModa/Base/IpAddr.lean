import Mathlib.Algebra.Order.Group.Nat
import Mathlib.Algebra.Order.Ring.Nat

/-!
IP addresses and blocks of them.

A block is written as its first address and a number of leading bits; an address
belongs to it when it has the same leading bits (`Block.contains_iff`: when it lies in
the range of the block). The predicates that programs test on octets or segments are
compared with the blocks that define them.
-/

namespace OsModa.Net

/-! ### Blocks -/

/-- The numbers below `2 ^ width` that share their first `length` bits with `network`. -/
structure Block (width : Nat) where
  network : Nat
  length : Nat
  length_le : length ≤ width := by decide
  aligned : 2 ^ (width - length) ∣ network := by decide

namespace Block

variable {width : Nat}

def Contains (b : Block width) (n : Nat) : Prop :=
  n / 2 ^ (width - b.length) = b.network / 2 ^ (width - b.length)

instance (b : Block width) (n : Nat) : Decidable (b.Contains n) :=
  inferInstanceAs (Decidable (_ = _))

theorem contains_iff {b : Block width} {n : Nat} :
    b.Contains n ↔ b.network ≤ n ∧ n < b.network + 2 ^ (width - b.length) := by
  obtain ⟨k, hk⟩ := b.aligned
  have hpos : 0 < 2 ^ (width - b.length) := Nat.two_pow_pos _
  unfold Contains
  rw [hk, Nat.mul_div_cancel_left _ hpos, Nat.div_eq_iff hpos]
  have hcomm := Nat.mul_comm k (2 ^ (width - b.length))
  omega

end Block

/-! ### IPv4 -/

structure Ipv4Addr where
  a : UInt8
  b : UInt8
  c : UInt8
  d : UInt8
  deriving DecidableEq, Repr

namespace Ipv4Addr

def value (ip : Ipv4Addr) : Nat :=
  ((ip.a.toNat * 256 + ip.b.toNat) * 256 + ip.c.toNat) * 256 + ip.d.toNat

def isLoopback (ip : Ipv4Addr) : Bool := ip.a == 127

def isPrivate (ip : Ipv4Addr) : Bool :=
  ip.a == 10 || (ip.a == 172 && 16 ≤ ip.b && ip.b ≤ 31) || (ip.a == 192 && ip.b == 168)

def isLinkLocal (ip : Ipv4Addr) : Bool := ip.a == 169 && ip.b == 254

def isBroadcast (ip : Ipv4Addr) : Bool := ip == ⟨255, 255, 255, 255⟩

def isUnspecified (ip : Ipv4Addr) : Bool := ip == ⟨0, 0, 0, 0⟩

/-- 127.0.0.0/8. -/
def loopbackBlock : Block 32 := { network := 127 * 2 ^ 24, length := 8 }

/-- 10.0.0.0/8, 172.16.0.0/12 and 192.168.0.0/16. -/
def privateBlocks : List (Block 32) :=
  [{ network := 10 * 2 ^ 24, length := 8 },
   { network := 172 * 2 ^ 24 + 16 * 2 ^ 16, length := 12 },
   { network := 192 * 2 ^ 24 + 168 * 2 ^ 16, length := 16 }]

/-- 169.254.0.0/16. -/
def linkLocalBlock : Block 32 := { network := 169 * 2 ^ 24 + 254 * 2 ^ 16, length := 16 }

/-- 0.0.0.0/32. -/
def unspecifiedBlock : Block 32 := { network := 0, length := 32 }

variable {ip : Ipv4Addr}

theorem toNat_lt (ip : Ipv4Addr) :
    ip.a.toNat < 256 ∧ ip.b.toNat < 256 ∧ ip.c.toNat < 256 ∧ ip.d.toNat < 256 :=
  ⟨ip.a.toNat_lt, ip.b.toNat_lt, ip.c.toNat_lt, ip.d.toNat_lt⟩

theorem isLoopback_iff : ip.isLoopback = true ↔ loopbackBlock.Contains ip.value := by
  have hlt := ip.toNat_lt
  rw [Block.contains_iff]
  simp only [isLoopback, loopbackBlock, value, beq_iff_eq, ← UInt8.toNat_inj, UInt8.reduceToNat]
  omega

theorem isPrivate_iff : ip.isPrivate = true ↔ ∃ b ∈ privateBlocks, b.Contains ip.value := by
  have hlt := ip.toNat_lt
  simp only [privateBlocks, List.mem_cons, List.not_mem_nil, or_false, exists_eq_or_imp,
    exists_eq_left, Block.contains_iff]
  simp only [isPrivate, value, Bool.or_eq_true, Bool.and_eq_true, beq_iff_eq, decide_eq_true_eq,
    ← UInt8.toNat_inj, UInt8.le_iff_toNat_le, UInt8.reduceToNat]
  omega

theorem isLinkLocal_iff : ip.isLinkLocal = true ↔ linkLocalBlock.Contains ip.value := by
  have hlt := ip.toNat_lt
  rw [Block.contains_iff]
  simp only [isLinkLocal, linkLocalBlock, value, Bool.and_eq_true, beq_iff_eq, ← UInt8.toNat_inj,
    UInt8.reduceToNat]
  omega

theorem isUnspecified_iff : ip.isUnspecified = true ↔ unspecifiedBlock.Contains ip.value := by
  have hlt := ip.toNat_lt
  rw [Block.contains_iff]
  obtain ⟨a, b, c, d⟩ := ip
  simp only [isUnspecified, unspecifiedBlock, value, beq_iff_eq, Ipv4Addr.mk.injEq,
    ← UInt8.toNat_inj, UInt8.reduceToNat]
  omega

end Ipv4Addr

/-! ### IPv6 -/

structure Ipv6Addr where
  s0 : UInt16
  s1 : UInt16
  s2 : UInt16
  s3 : UInt16
  s4 : UInt16
  s5 : UInt16
  s6 : UInt16
  s7 : UInt16
  deriving DecidableEq, Repr

namespace Ipv6Addr

def value (ip : Ipv6Addr) : Nat :=
  [ip.s1, ip.s2, ip.s3, ip.s4, ip.s5, ip.s6, ip.s7].foldl (fun n s => n * 65536 + s.toNat)
    ip.s0.toNat

def isLoopback (ip : Ipv6Addr) : Bool := ip == ⟨0, 0, 0, 0, 0, 0, 0, 1⟩

def isUnspecified (ip : Ipv6Addr) : Bool := ip == ⟨0, 0, 0, 0, 0, 0, 0, 0⟩

/-- ::1/128. -/
def loopbackBlock : Block 128 := { network := 1, length := 128 }

/-- ::/128. -/
def unspecifiedBlock : Block 128 := { network := 0, length := 128 }

/-- fc00::/7. -/
def uniqueLocalBlock : Block 128 := { network := 0xfc00 * 2 ^ 112, length := 7 }

/-- fe80::/10. -/
def linkLocalBlock : Block 128 := { network := 0xfe80 * 2 ^ 112, length := 10 }

/-- ::ffff:a.b.c.d, which an IPv6 socket takes for the IPv4 address. -/
def mapped (ip : Ipv4Addr) : Ipv6Addr :=
  ⟨0, 0, 0, 0, 0, 0xffff, ip.a.toUInt16 * 256 + ip.b.toUInt16, ip.c.toUInt16 * 256 + ip.d.toUInt16⟩

variable {ip : Ipv6Addr}

theorem isLoopback_iff : ip.isLoopback = true ↔ loopbackBlock.Contains ip.value := by
  rw [Block.contains_iff]
  obtain ⟨s0, s1, s2, s3, s4, s5, s6, s7⟩ := ip
  simp only [isLoopback, loopbackBlock, value, beq_iff_eq, Ipv6Addr.mk.injEq, ← UInt16.toNat_inj,
    UInt16.reduceToNat, List.foldl_cons, List.foldl_nil]
  omega

theorem isUnspecified_iff : ip.isUnspecified = true ↔ unspecifiedBlock.Contains ip.value := by
  rw [Block.contains_iff]
  obtain ⟨s0, s1, s2, s3, s4, s5, s6, s7⟩ := ip
  simp only [isUnspecified, unspecifiedBlock, value, beq_iff_eq, Ipv6Addr.mk.injEq,
    ← UInt16.toNat_inj, UInt16.reduceToNat, List.foldl_cons, List.foldl_nil]
  omega

/-- The number of an IPv4 address below the 96 bits that mark it. -/
theorem value_mapped (ip : Ipv4Addr) : (mapped ip).value = 0xffff * 2 ^ 32 + ip.value := by
  have hlt := ip.toNat_lt
  have hword : ∀ hi lo : UInt8,
      (hi.toUInt16 * 256 + lo.toUInt16).toNat = hi.toNat * 256 + lo.toNat := by
    intro hi lo
    have hhi := hi.toNat_lt
    have hlo := lo.toNat_lt
    simp only [UInt16.toNat_add, UInt16.toNat_mul, UInt8.toNat_toUInt16, UInt16.reduceToNat]
    omega
  simp only [mapped, value, Ipv4Addr.value, hword, UInt16.reduceToNat, List.foldl_cons,
    List.foldl_nil]
  omega

end Ipv6Addr

/-! ### Both families -/

inductive IpAddr where
  | v4 (ip : Ipv4Addr)
  | v6 (ip : Ipv6Addr)
  deriving DecidableEq, Repr

structure SocketAddr where
  ip : IpAddr
  port : UInt16
  deriving DecidableEq, Repr

end OsModa.Net
