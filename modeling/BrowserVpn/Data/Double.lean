import Mathlib.Data.Int.Log
import Mathlib.Algebra.Order.Floor.Ring
import Mathlib.Data.Rat.Floor
import Mathlib.Tactic.Linarith
import Mathlib.Tactic.FieldSimp
import Mathlib.Tactic.Positivity

/-!
# Data.Double — numbers of 64 bits

Which number of the format of 64 bits a rational number is read as. Natural numbers
below `2 ^ 53` are read as themselves.
-/

namespace Data

/-- To the nearest integer, to the even one of two. -/
def roundHalfEven (q : ℚ) : ℤ :=
  let below := ⌊q⌋
  let excess := q - below
  if excess < 1 / 2 then below
  else if 1 / 2 < excess then below + 1
  else if below % 2 = 0 then below
  else below + 1

/-- The distance of the numbers next to `q`. -/
def ulp (q : ℚ) : ℚ := 2 ^ (max (Int.log 2 |q|) (-1022) - 52)

/-- The nearest number of the format, `none` when that is an infinity. -/
def toDouble (q : ℚ) : Option ℚ :=
  if q = 0 then some 0
  else
    let rounded := roundHalfEven (q / ulp q) * ulp q
    if 2 ^ 1024 ≤ |rounded| then none else some rounded

theorem roundHalfEven_intCast (n : ℤ) : roundHalfEven n = n := by
  simp [roundHalfEven]

/-- A natural number that is not too large is in the format. -/
theorem toDouble_natCast {n : ℕ} (h : n < 2 ^ 53) : toDouble n = some (n : ℚ) := by
  rw [toDouble]
  split
  · rename_i hzero
    rw [hzero]
  rename_i hne
  have hpos : n ≠ 0 := fun hzero => hne (by rw [hzero]; rfl)
  have hlog : Nat.log 2 n ≤ 52 := Nat.lt_succ_iff.1 (Nat.log_lt_of_lt_pow hpos h)
  -- the distance is one over a power of two, of which `n` has a multiple
  have hulp : ulp n = 1 / 2 ^ (52 - Nat.log 2 n) := by
    have hmax : max (Int.log 2 |(n : ℚ)|) (-1022) = Nat.log 2 n := by
      rw [Nat.abs_cast, Int.log_natCast]
      exact max_eq_left (by omega)
    rw [ulp, hmax]
    have hexp : (Nat.log 2 n : ℤ) - 52 = -((52 - Nat.log 2 n : ℕ) : ℤ) := by omega
    rw [hexp, zpow_neg, zpow_natCast, one_div]
  have hpow : (2 : ℚ) ^ (52 - Nat.log 2 n) ≠ 0 := by positivity
  have hmultiple : (n : ℚ) / ulp n = ((n * 2 ^ (52 - Nat.log 2 n) : ℕ) : ℤ) := by
    rw [hulp]
    push_cast
    field_simp
  have hrounded : (roundHalfEven (n / ulp n) : ℚ) * ulp n = n := by
    rw [hmultiple, roundHalfEven_intCast, hulp]
    push_cast
    field_simp
  simp only [hrounded]
  rw [if_neg]
  rw [Nat.abs_cast, not_le]
  have hsmall : (n : ℚ) < 2 ^ 53 := by exact_mod_cast h
  exact hsmall.trans_le (pow_le_pow_right₀ one_le_two (by decide))

end Data
