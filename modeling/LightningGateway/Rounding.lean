import Mathlib.Algebra.Order.Floor.Ring
import Mathlib.Algebra.Order.Round
import Mathlib.Algebra.Order.Floor.Div
import Mathlib.Data.UInt
import Mathlib.Tactic.Linarith
import Mathlib.Tactic.FieldSimp

/-!
# Rounding and checked words

Two ways to round. To the nearest integer a tie goes down; the definition is over
any ordered field with floors, and on a quotient of natural numbers it becomes the
comparison of the remainder with half the divisor. To a multiple the next one above
is taken. The word operations are those of an unsigned 64-bit word which return
nothing where the exact result does not fit.
-/
namespace LightningGateway.Rounding

/-! ### The nearest integer -/

section
variable {K : Type*} [Field K] [LinearOrder K] [IsStrictOrderedRing K] [FloorRing K]

/-- The nearest integer; of two equally near ones the lower. -/
def roundHalfDown (x : K) : ℤ := ⌈x - 1 / 2⌉

variable {x y : K} {z : ℤ}

theorem roundHalfDown_eq_iff : roundHalfDown x = z ↔ (z : K) - 1 / 2 < x ∧ x ≤ z + 1 / 2 := by
  unfold roundHalfDown
  rw [Int.ceil_eq_iff]
  constructor
  · rintro ⟨hlo, hhi⟩
    constructor <;> linarith
  · rintro ⟨hlo, hhi⟩
    constructor <;> linarith

theorem roundHalfDown_bounds (x : K) :
    (roundHalfDown x : K) - 1 / 2 < x ∧ x ≤ roundHalfDown x + 1 / 2 :=
  roundHalfDown_eq_iff.mp rfl

theorem abs_roundHalfDown_sub_le (x : K) : |(roundHalfDown x : K) - x| ≤ 1 / 2 := by
  obtain ⟨hlo, hhi⟩ := roundHalfDown_bounds x
  rw [abs_le]
  constructor <;> linarith

/-- No integer is nearer. -/
theorem abs_roundHalfDown_sub_le_abs (x : K) (z : ℤ) :
    |(roundHalfDown x : K) - x| ≤ |(z : K) - x| := by
  have hhalf := abs_roundHalfDown_sub_le x
  rcases eq_or_ne z (roundHalfDown x) with rfl | hne
  · exact le_rfl
  · -- Any other integer is at least one away from the rounded one.
    have hone : (1 : K) ≤ |(z : K) - roundHalfDown x| := by
      have h : 1 ≤ |z - roundHalfDown x| := Int.one_le_abs (sub_ne_zero.mpr hne)
      exact_mod_cast h
    have htriangle : |(z : K) - roundHalfDown x| ≤ |(z : K) - x| + |(roundHalfDown x : K) - x| := by
      rw [abs_sub_comm (roundHalfDown x : K) x]
      exact abs_sub_le _ _ _
    linarith

theorem roundHalfDown_tie (z : ℤ) : roundHalfDown ((z : K) + 1 / 2) = z := by
  rw [roundHalfDown_eq_iff]
  constructor <;> linarith

theorem roundHalfDown_mono {x y : K} (h : x ≤ y) : roundHalfDown x ≤ roundHalfDown y :=
  Int.ceil_mono (sub_le_sub_right h _)

/-- On a quotient it is a comparison of the remainder with half the divisor. -/
theorem roundHalfDown_div (n : ℕ) {d : ℕ} (hd : 0 < d) :
    roundHalfDown ((n : K) / d) = ((if d < 2 * (n % d) then n / d + 1 else n / d : ℕ) : ℤ) := by
  have hpos : (0 : K) < d := Nat.cast_pos.mpr hd
  have hn : (n : K) = d * (n / d : ℕ) + (n % d : ℕ) := by
    exact_mod_cast (Nat.div_add_mod n d).symm
  have hdiv : (n : K) / d = (n / d : ℕ) + ((n % d : ℕ) : K) / d := by
    rw [hn]
    field_simp
  have hlt : ((n % d : ℕ) : K) < d := Nat.cast_lt.mpr (Nat.mod_lt n hd)
  have hnonneg : (0 : K) ≤ (n % d : ℕ) / d := div_nonneg (Nat.cast_nonneg _) hpos.le
  rw [roundHalfDown_eq_iff, hdiv, Int.cast_natCast]
  split_ifs with h
  · have habove : (1 : K) / 2 < (n % d : ℕ) / d := by
      rw [lt_div_iff₀ hpos]
      have h' : (d : K) < 2 * (n % d : ℕ) := by exact_mod_cast h
      linarith
    have hbelow : ((n % d : ℕ) : K) / d ≤ 1 := (div_le_one hpos).mpr hlt.le
    push_cast
    constructor <;> linarith
  · have hbelow : ((n % d : ℕ) : K) / d ≤ 1 / 2 := by
      rw [div_le_iff₀ hpos]
      have h' : 2 * ((n % d : ℕ) : K) ≤ d := by exact_mod_cast not_lt.mp h
      linarith
    constructor <;> linarith

end

/-! ### The next multiple -/

/-- The least multiple of `d` that is not below `n`. -/
def roundUpTo (d n : ℕ) : ℕ := n ⌈/⌉ d * d

variable {d n m : ℕ}

theorem dvd_roundUpTo (d n : ℕ) : d ∣ roundUpTo d n := Dvd.intro_left _ rfl

theorem isLeast_roundUpTo (hd : 0 < d) (n : ℕ) : IsLeast {m | d ∣ m ∧ n ≤ m} (roundUpTo d n) := by
  have hn : n ≤ roundUpTo d n := by
    rw [roundUpTo, Nat.mul_comm]
    exact (ceilDiv_le_iff_le_mul hd).mp le_rfl
  refine ⟨⟨dvd_roundUpTo d n, hn⟩, ?_⟩
  rintro m ⟨⟨k, rfl⟩, hk⟩
  have hle : n ⌈/⌉ d ≤ k := (ceilDiv_le_iff_le_mul hd).mpr hk
  rw [roundUpTo, Nat.mul_comm]
  exact Nat.mul_le_mul_left d hle

/-- A multiple stays as it is. -/
theorem roundUpTo_of_dvd (hd : 0 < d) (h : d ∣ n) : roundUpTo d n = n :=
  (isLeast_roundUpTo hd n).unique ⟨⟨h, le_rfl⟩, fun _ hm => hm.2⟩

theorem roundUpTo_lt (hd : 0 < d) (n : ℕ) : roundUpTo d n < n + d := by
  rw [roundUpTo, Nat.ceilDiv_eq_add_pred_div]
  have h := Nat.div_mul_le_self (n + d - 1) d
  omega

/-! ### Words that do not overflow -/

/-- `u64::checked_mul`. -/
def checkedMul (a b : UInt64) : Option UInt64 :=
  if a.toNat * b.toNat < 2 ^ 64 then some (a * b) else none

/-- `u64::checked_add`. -/
def checkedAdd (a b : UInt64) : Option UInt64 :=
  if a.toNat + b.toNat < 2 ^ 64 then some (a + b) else none

variable {a b c : UInt64}

theorem checkedMul_of_lt (h : a.toNat * b.toNat < 2 ^ 64) : checkedMul a b = some (a * b) :=
  if_pos h

theorem checkedAdd_of_lt (h : a.toNat + b.toNat < 2 ^ 64) : checkedAdd a b = some (a + b) :=
  if_pos h

end LightningGateway.Rounding
