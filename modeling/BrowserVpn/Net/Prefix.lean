import Mathlib.Data.BitVec
import Mathlib.Tactic.Common

/-!
# Net.Prefix — blocks of addresses

An address is a bit vector; a prefix is the block of the addresses that begin
like a given one. Two prefixes are nested or disjoint, and which of the two holds
can be read off the address of the longer one: a question about all of its
addresses is a question about that single address.
-/

namespace Net

/-- The addresses of width `w` that share their first `bits` bits with `addr`. -/
structure Prefix (w : Nat) where
  addr : BitVec w
  bits : Nat
  le : bits ≤ w

namespace Prefix

variable {w : Nat}

/-- The bits that differ, with those shifted out that do not count. -/
def contains (p : Prefix w) (a : BitVec w) : Bool := (a ^^^ p.addr) >>> (w - p.bits) == 0#w

theorem contains_iff {p : Prefix w} {a : BitVec w} :
    p.contains a = true ↔ a >>> (w - p.bits) = p.addr >>> (w - p.bits) := by
  rw [contains, beq_iff_eq, BitVec.ushiftRight_xor_distrib, BitVec.xor_eq_zero_iff]

/-- A prefix holds all addresses of a longer one or none of them. -/
theorem contains_of_contains {p q : Prefix w} {a : BitVec w} (h : p.bits ≤ q.bits)
    (ha : q.contains a = true) : p.contains a = p.contains q.addr := by
  have hsplit : w - p.bits = w - q.bits + (q.bits - p.bits) := by
    have := q.le
    omega
  have hshift : a >>> (w - p.bits) = q.addr >>> (w - p.bits) := by
    rw [hsplit, BitVec.shiftRight_add, BitVec.shiftRight_add, contains_iff.1 ha]
  rw [Bool.eq_iff_iff, contains_iff, contains_iff, hshift]

/-- Where the first `bits` bits are all there are, the address is the only one. -/
theorem contains_full {p : Prefix w} {a : BitVec w} (h : p.bits = w) :
    p.contains a = true ↔ a = p.addr := by
  rw [contains_iff, h, Nat.sub_self, BitVec.ushiftRight_zero, BitVec.ushiftRight_zero]

end Prefix

/-- `a.b.c.d/bits`. -/
def Prefix.v4 (a b c d bits : Nat) (h : bits.ble 32 = true := by exact Eq.refl true) : Prefix 32 :=
  ⟨BitVec.ofNat 32 (((a * 256 + b) * 256 + c) * 256 + d), bits, Nat.le_of_ble_eq_true h⟩

/-- `g₁:g₂:…::/bits`, with the groups that are not given zero. -/
def Prefix.v6 (groups : List Nat) (bits : Nat) (h : bits.ble 128 = true := by exact Eq.refl true) :
    Prefix 128 :=
  ⟨BitVec.ofNat 128
    (groups.foldl (fun n g => n * 65536 + g) 0 * 65536 ^ (8 - groups.length)), bits,
    Nat.le_of_ble_eq_true h⟩

end Net
