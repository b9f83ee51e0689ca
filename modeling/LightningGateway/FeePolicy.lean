import LightningGateway.PaymentFlows
import LightningGateway.Rounding
import Mathlib.Data.Rat.Floor

/-!
# The fee cap

`LnFees::max_for` computes in 64-bit words what its documentation writes as a
rational: half a per cent of the whole satoshis, rounded to the nearest satoshi with
ties going down, and never less than ten satoshis. The checked variants stop at an
operation whose exact result does not fit the word; that they answer says that no
operation wraps.
-/
namespace LightningGateway.FeePolicy
open Primitives PaymentFlows Rounding

/-! ### The same steps with checked words -/

/-- `u64::div_ceil`, which adds one to the quotient when there is a remainder. -/
def divCeilChecked (a b : UInt64) : Option UInt64 :=
  if a % b = 0 then some (a / b) else checkedAdd (a / b) 1

def roundUpToSatChecked (m : MilliSatoshi) : Option MilliSatoshi := do
  let sat ← divCeilChecked m.msat 1000
  let msat ← checkedMul sat 1000
  pure ⟨msat⟩

def pctSatChecked (scaled : UInt64) : Option UInt64 :=
  if scaled % 10000 > 5000 then checkedAdd (scaled / 10000) 1 else some (scaled / 10000)

def LnFees.maxForChecked (amountMsat : MilliSatoshi) : Option MilliSatoshi := do
  let scaled ← checkedMul amountMsat.wholeSat feeCapBasisPoints
  let pctSat ← pctSatChecked scaled
  let maxFeeSat := max pctSat feeCapMinSat
  let msat ← checkedMul maxFeeSat 1000
  pure ⟨msat⟩

def holdSatChecked (amountMsat maxFeeMsat : MilliSatoshi) : Option UInt64 := do
  let sum ← checkedAdd amountMsat.msat maxFeeMsat.msat
  let rounded ← roundUpToSatChecked ⟨sum⟩
  pure rounded.wholeSat

/-! ### The rational definition -/

/-- Half a per cent of the whole satoshis of an amount. -/
def feeShare (amountMsat : MilliSatoshi) : ℚ :=
  ((amountMsat.msat.toNat / 1000 * 50 : ℕ) : ℚ) / (10000 : ℕ)

/-- The fee cap in satoshis. -/
def capSat (amountMsat : MilliSatoshi) : ℤ := max 10 (roundHalfDown (feeShare amountMsat))

section
variable {m : MilliSatoshi}

theorem wholeSat_scaled_lt (m : MilliSatoshi) :
    m.wholeSat.toNat * feeCapBasisPoints.toNat < 2 ^ 64 := by
  have h := m.msat.toNat_lt
  have hb : feeCapBasisPoints.toNat = 50 := rfl
  rw [wholeSat_toNat, hb]
  omega

/-- The product with the basis points never reaches the saturation bound. -/
theorem saturatingMul_wholeSat (m : MilliSatoshi) :
    saturatingMul m.wholeSat feeCapBasisPoints = m.wholeSat * feeCapBasisPoints :=
  if_pos (wholeSat_scaled_lt m)

theorem scaled_toNat (m : MilliSatoshi) :
    (m.wholeSat * feeCapBasisPoints).toNat = m.msat.toNat / 1000 * 50 := by
  have hb : feeCapBasisPoints.toNat = 50 := rfl
  rw [UInt64.toNat_mul, Nat.mod_eq_of_lt (wholeSat_scaled_lt m), wholeSat_toNat, hb]

theorem max_toNat (a b : UInt64) : (max a b).toNat = max a.toNat b.toNat := by
  have hmax : max a b = if a ≤ b then b else a := rfl
  rw [hmax]
  split_ifs with h
  · exact (max_eq_right (UInt64.le_iff_toNat_le.mp h)).symm
  · exact (max_eq_left (not_le.mp (mt UInt64.le_iff_toNat_le.mpr h)).le).symm

/-- The rounded share in satoshis, as the words compute it. -/
def pctSat (scaled : UInt64) : UInt64 :=
  if scaled % 10000 > 5000 then scaled / 10000 + 1 else scaled / 10000

theorem pctSat_toNat (scaled : UInt64) : (pctSat scaled).toNat =
    if 10000 < 2 * (scaled.toNat % 10000) then scaled.toNat / 10000 + 1 else scaled.toNat / 10000 := by
  have hs := scaled.toNat_lt
  have hq : (scaled / 10000).toNat = scaled.toNat / 10000 := by simp [UInt64.toNat_div]
  have hm : (scaled % 10000).toNat = scaled.toNat % 10000 := by simp [UInt64.toNat_mod]
  have hone : (1 : UInt64).toNat = 1 := rfl
  have hcmp : scaled % 10000 > 5000 ↔ 10000 < 2 * (scaled.toNat % 10000) := by
    rw [gt_iff_lt, UInt64.lt_iff_toNat_lt, hm]
    have h5 : (5000 : UInt64).toNat = 5000 := rfl
    omega
  unfold pctSat
  simp only [hcmp]
  split_ifs with h
  · rw [UInt64.toNat_add, hq, hone]
    omega
  · exact hq

theorem pctSat_share (m : MilliSatoshi) :
    ((pctSat (m.wholeSat * feeCapBasisPoints)).toNat : ℤ) = roundHalfDown (feeShare m) := by
  unfold feeShare
  rw [pctSat_toNat, scaled_toNat, roundHalfDown_div _ (by norm_num)]

theorem maxFor_eq (m : MilliSatoshi) : LnFees.maxFor m =
    ⟨max (pctSat (m.wholeSat * feeCapBasisPoints)) feeCapMinSat * 1000⟩ := by
  unfold LnFees.maxFor pctSat
  dsimp only
  rw [saturatingMul_wholeSat]

/-- The cap in satoshis, as a word. -/
theorem capSat_eq (m : MilliSatoshi) :
    ((max (pctSat (m.wholeSat * feeCapBasisPoints)) feeCapMinSat).toNat : ℤ) = capSat m := by
  have hten : feeCapMinSat.toNat = 10 := rfl
  rw [max_toNat, hten, Nat.cast_max, pctSat_share, max_comm]
  rfl

theorem pctSat_lt (m : MilliSatoshi) :
    (pctSat (m.wholeSat * feeCapBasisPoints)).toNat ≤ 92233720368548 := by
  have h := m.msat.toNat_lt
  rw [pctSat_toNat, scaled_toNat]
  split_ifs <;> omega

theorem capSat_mul_lt (m : MilliSatoshi) :
    (max (pctSat (m.wholeSat * feeCapBasisPoints)) feeCapMinSat).toNat * (1000 : UInt64).toNat <
      2 ^ 64 := by
  have h := pctSat_lt m
  have hten : feeCapMinSat.toNat = 10 := rfl
  have hk : (1000 : UInt64).toNat = 1000 := rfl
  rw [max_toNat, hten, hk]
  omega

/-- The cap is its rational definition, in millisatoshis. -/
theorem maxFor_toNat (m : MilliSatoshi) : ((LnFees.maxFor m).msat.toNat : ℤ) = 1000 * capSat m := by
  have hk : (1000 : UInt64).toNat = 1000 := rfl
  rw [maxFor_eq, ← capSat_eq]
  dsimp only
  rw [UInt64.toNat_mul, Nat.mod_eq_of_lt (capSat_mul_lt m), hk]
  push_cast
  ring

/-- The cap of any amount leaves room for the amount beside it. -/
theorem maxFor_lt (m : MilliSatoshi) : (LnFees.maxFor m).msat.toNat < 92233720368548001 := by
  have h := maxFor_toNat m
  have hcap := capSat_eq m
  have hpct := pctSat_lt m
  have hten : feeCapMinSat.toNat = 10 := rfl
  rw [max_toNat, hten] at hcap
  omega

theorem pctSatChecked_eq (m : MilliSatoshi) :
    pctSatChecked (m.wholeSat * feeCapBasisPoints) =
      some (pctSat (m.wholeSat * feeCapBasisPoints)) := by
  unfold pctSatChecked pctSat
  split_ifs with h
  · refine checkedAdd_of_lt ?_
    have hm := m.msat.toNat_lt
    have hone : (1 : UInt64).toNat = 1 := rfl
    have hd : (10000 : UInt64).toNat = 10000 := rfl
    rw [UInt64.toNat_div, scaled_toNat, hone, hd]
    omega
  · rfl

/-- No step of the computation wraps or saturates. -/
theorem maxForChecked_eq (m : MilliSatoshi) :
    LnFees.maxForChecked m = some (LnFees.maxFor m) := by
  simp only [LnFees.maxForChecked, Option.bind_eq_bind, Option.pure_def,
    checkedMul_of_lt (wholeSat_scaled_lt m), Option.bind_some, pctSatChecked_eq,
    checkedMul_of_lt (capSat_mul_lt m), maxFor_eq]

theorem feeShare_mono {m' : MilliSatoshi} (h : m.msat ≤ m'.msat) : feeShare m ≤ feeShare m' := by
  have hle : m.msat.toNat / 1000 * 50 ≤ m'.msat.toNat / 1000 * 50 :=
    Nat.mul_le_mul_right _ (Nat.div_le_div_right (UInt64.le_iff_toNat_le.mp h))
  unfold feeShare
  gcongr

theorem capSat_mono {m' : MilliSatoshi} (h : m.msat ≤ m'.msat) : capSat m ≤ capSat m' :=
  max_le_max_left _ (roundHalfDown_mono (feeShare_mono h))

theorem maxFor_mono {m' : MilliSatoshi} (h : m.msat ≤ m'.msat) :
    (LnFees.maxFor m).msat ≤ (LnFees.maxFor m').msat := by
  have hcap := capSat_mono h
  have hm := maxFor_toNat m
  have hm' := maxFor_toNat m'
  rw [UInt64.le_iff_toNat_le]
  omega

/-- Above the floor the cap is half a per cent, up to half a satoshi. -/
theorem capSat_near (h : 10 < capSat m) : |(capSat m : ℚ) - feeShare m| ≤ 1 / 2 := by
  have heq : capSat m = roundHalfDown (feeShare m) :=
    max_eq_right (lt_max_iff.mp h |>.resolve_left (lt_irrefl _)).le
  rw [heq]
  exact abs_roundHalfDown_sub_le _

/-- The cap is the rational definition for every amount, whole satoshis or not: exact,
computed without overflow, a multiple of 1000 from 10000 on, monotone and, above the
floor, within half a satoshi of the share. -/
theorem fee_cap_is_rational (m : MilliSatoshi) :
    LnFees.maxForChecked m = some (LnFees.maxFor m) ∧
    ((LnFees.maxFor m).msat.toNat : ℤ) = 1000 * max 10 (roundHalfDown (feeShare m)) ∧
    ((∀ z : ℤ, |(roundHalfDown (feeShare m) : ℚ) - feeShare m| ≤ |(z : ℚ) - feeShare m|) ∧
      ∀ z : ℤ, feeShare m = z + 1 / 2 → roundHalfDown (feeShare m) = z) ∧
    1000 ∣ (LnFees.maxFor m).msat.toNat ∧ 10000 ≤ (LnFees.maxFor m).msat.toNat ∧
    (∀ m' : MilliSatoshi, m.msat ≤ m'.msat → (LnFees.maxFor m).msat ≤ (LnFees.maxFor m').msat) ∧
    (10000 < (LnFees.maxFor m).msat.toNat →
      |((LnFees.maxFor m).msat.toNat : ℚ) / 1000 - feeShare m| ≤ 1 / 2) := by
  have hcap := maxFor_toNat m
  have hten : 10 ≤ capSat m := le_max_left _ _
  refine ⟨maxForChecked_eq m, hcap, ⟨abs_roundHalfDown_sub_le_abs _, fun z hz => ?_⟩, ?_, ?_,
    fun m' h => maxFor_mono h, fun h => ?_⟩
  · rw [hz]
    exact roundHalfDown_tie z
  · omega
  · omega
  · have hq : ((LnFees.maxFor m).msat.toNat : ℚ) / 1000 = capSat m := by
      have hq' : ((LnFees.maxFor m).msat.toNat : ℚ) = 1000 * capSat m := by exact_mod_cast hcap
      rw [hq']
      ring
    rw [hq]
    exact capSat_near (by omega)

theorem fee_cap_is_rational_above :
    |((LnFees.maxFor ⟨25844000⟩).msat.toNat : ℚ) / 1000 - feeShare ⟨25844000⟩| ≤ 1 / 2 :=
  (fee_cap_is_rational ⟨25844000⟩).2.2.2.2.2.2 (by decide)

end

/-- The tie of 0.5 % of 2500 satoshis goes down. -/
example : LnFees.maxFor ⟨2500000⟩ = ⟨12000⟩ := by decide

end LightningGateway.FeePolicy
