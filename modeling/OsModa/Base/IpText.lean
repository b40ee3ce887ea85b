import OsModa.Base.IpAddr
import Mathlib.Data.List.Basic

/-!
IP addresses as the URL standard writes them into a host.

An IPv4 address is four decimal numbers. An IPv6 address is its pieces in hexadecimal digits,
the first longest run of zero pieces left out, so that an address whose first piece is not zero
begins with the digits of that piece (`toText_of_ne_zero`).
-/

namespace OsModa.Net

/-- The last two digits come last. -/
theorem toDigits_of_sq_le {n : Nat} (h : 16 * 16 ≤ n) : Nat.toDigits 16 n =
    Nat.toDigits 16 (n / 256) ++ [Nat.digitChar (n / 16 % 16), Nat.digitChar (n % 16)] := by
  have hbase : 1 < 16 := by decide
  rw [Nat.toDigits_of_base_le hbase (by omega), Nat.toDigits_of_base_le hbase (n := n / 16) (by omega),
    Nat.div_div_eq_div_mul, List.append_assoc]
  rfl

namespace Ipv4Addr

/-- The IPv4 serializer. -/
def toText (ip : Ipv4Addr) : List Char :=
  ['.'].intercalate ([ip.a, ip.b, ip.c, ip.d].map fun octet => Nat.toDigits 10 octet.toNat)

theorem toText_eq (ip : Ipv4Addr) : ip.toText = Nat.toDigits 10 ip.a.toNat ++
    '.' :: (Nat.toDigits 10 ip.b.toNat ++ '.' :: (Nat.toDigits 10 ip.c.toNat ++
      '.' :: Nat.toDigits 10 ip.d.toNat)) := by
  simp [toText, List.intercalate]

end Ipv4Addr

namespace Ipv6Addr

def pieces (ip : Ipv6Addr) : List UInt16 :=
  [ip.s0, ip.s1, ip.s2, ip.s3, ip.s4, ip.s5, ip.s6, ip.s7]

/-- How many zero pieces come first. -/
def zeros (pieces : List UInt16) : Nat := (pieces.takeWhile (· = 0)).length

/-- Where the first longest run of zero pieces begins, and how long it is. -/
def longestRun : List UInt16 → Nat × Nat
  | [] => (0, 0)
  | p :: ps =>
    let later := longestRun ps
    if later.2 ≤ zeros (p :: ps) then (0, zeros (p :: ps)) else (later.1 + 1, later.2)

/-- The pieces in hexadecimal digits, with colons between them. -/
def hexPieces (pieces : List UInt16) : List Char :=
  [':'].intercalate (pieces.map fun piece => Nat.toDigits 16 piece.toNat)

/-- The IPv6 serializer. -/
def toText (ip : Ipv6Addr) : List Char :=
  let (start, length) := longestRun ip.pieces
  if length < 2 then hexPieces ip.pieces
  else hexPieces (ip.pieces.take start) ++ ':' :: ':' :: hexPieces (ip.pieces.drop (start + length))

example : toText ⟨0x2001, 0xdb8, 0, 0, 1, 0, 0, 1⟩ = "2001:db8::1:0:0:1".toList := by decide

example : toText (mapped ⟨127, 0, 0, 1⟩) = "::ffff:7f00:1".toList := by decide

theorem hexPieces_cons (p : UInt16) (ps : List UInt16) :
    ∃ rest, hexPieces (p :: ps) = Nat.toDigits 16 p.toNat ++ rest := by
  cases ps with
  | nil => exact ⟨[], by simp [hexPieces, List.intercalate]⟩
  | cons q ps =>
    exact ⟨':' :: hexPieces (q :: ps), by simp [hexPieces, List.intercalate]⟩

/-- What is left out does not begin before the first zero piece. -/
theorem toText_of_ne_zero {ip : Ipv6Addr} (h : ip.s0 ≠ 0) :
    ∃ rest, ip.toText = Nat.toDigits 16 ip.s0.toNat ++ rest := by
  have hpieces : ip.pieces = ip.s0 :: ip.pieces.tail := rfl
  have hzeros : zeros ip.pieces = 0 := by
    rw [hpieces, zeros, List.takeWhile_cons_of_neg (by simpa using h), List.length_nil]
  have hrun : (longestRun ip.pieces).2 < 2 ∨ ∃ start, (longestRun ip.pieces).1 = start + 1 := by
    rw [hpieces] at hzeros ⊢
    rw [longestRun, hzeros]
    split
    · exact .inl (by decide)
    · exact .inr ⟨_, rfl⟩
  unfold toText
  dsimp only
  split
  · rw [hpieces]
    exact hexPieces_cons _ _
  · obtain hshort | ⟨start, hstart⟩ := hrun
    · contradiction
    · rw [hstart, hpieces, List.take_succ_cons]
      obtain ⟨rest, hrest⟩ := hexPieces_cons ip.s0 (ip.pieces.tail.take start)
      exact ⟨_, by rw [hrest, List.append_assoc]⟩

/-- The zero pieces of a mapped address are its longest run. -/
theorem toText_mapped (v4 : Ipv4Addr) : (mapped v4).toText = "::ffff:".toList ++
    hexPieces [v4.a.toUInt16 * 256 + v4.b.toUInt16, v4.c.toUInt16 * 256 + v4.d.toUInt16] := by
  have hrun : ∀ x y : UInt16, longestRun [0, 0, 0, 0, 0, 0xffff, x, y] = (0, 5) := by
    intro x y
    by_cases hx : x = 0 <;> by_cases hy : y = 0 <;> simp [longestRun, zeros, hx, hy]
  unfold toText
  rw [show (mapped v4).pieces = [0, 0, 0, 0, 0, 0xffff, _, _] from rfl, hrun]
  rfl

end Ipv6Addr

end OsModa.Net
