import MeteredChunk.Decimal
import Mathlib.Algebra.Order.Floor.Semifield
import Mathlib.Data.Int.Log
import Mathlib.Data.Rat.Floor
import Mathlib.Tactic.FieldSimp
import Mathlib.Tactic.Linarith
import Mathlib.Tactic.Ring
import Mathlib.Order.SuccPred.LinearLocallyFinite

/-!
Fractions and binary numbers as rational numbers.
-/

namespace MeteredChunk

/-! ## Fractions

What fractions are as rational numbers: scaling is multiplication, the power is the
logarithm rounded down, and rounding takes the nearest whole number, the even one of
two that are equally near.
-/

theorem floorLog_eq (base n : Nat) (large : 2 ≤ base) : floorLog base n = Nat.log base n := by
  have search (fuel n : Nat) (below : n < 2 ^ fuel) :
      floorLog.search base fuel n = Nat.log base n := by
    -- On the fuel: a division takes at least one binary digit off the number.
    induction fuel generalizing n with
    | zero =>
        have zero : n = 0 := by omega
        simp [floorLog.search, zero]
    | succ fuel ih =>
        unfold floorLog.search
        split_ifs with less
        · exact (Nat.log_of_lt less).symm
        · have shorter : n / base < 2 ^ fuel := by
            rw [Nat.div_lt_iff_lt_mul (by omega)]
            rw [pow_succ] at below
            exact lt_of_lt_of_le below (Nat.mul_le_mul_left (2 ^ fuel) large)
          rw [ih _ shorter, Nat.log_of_one_lt_of_le (b := base) large (not_lt.mp less)]
  exact search _ n Nat.lt_log2_self

theorem ceilLog_eq (base n : Nat) (large : 2 ≤ base) : ceilLog base n = Nat.clog base n := by
  unfold ceilLog
  split_ifs with small
  · exact (Nat.clog_of_right_le_one small base).symm
  · rw [floorLog_eq _ _ large]
    refine eq_of_forall_ge_iff fun bound => ?_
    rw [Nat.clog_le_iff_le_pow large, Nat.add_one_le_iff,
      Nat.log_lt_iff_lt_pow large (by omega)]
    omega

namespace Ratio

def toRat (ratio : Ratio) : ℚ := ratio.num / ratio.den

variable {ratio : Ratio}

theorem toRat_scale (ratio : Ratio) (base : Nat) (power : Int) (positive : 0 < base) :
    (ratio.scale base power).toRat = ratio.toRat * (base : ℚ) ^ power := by
  have nonzero : (base : ℚ) ≠ 0 := by positivity
  unfold toRat scale
  obtain ⟨power, rfl | rfl⟩ := power.eq_nat_or_neg
  · simp [mul_div_right_comm]
  · simp only [Int.toNat_neg_natCast, neg_neg, Int.toNat_natCast, Nat.pow_eq, pow_zero, mul_one,
      zpow_neg, zpow_natCast]
    push_cast
    rw [div_mul_eq_div_div, ← div_eq_mul_inv]

theorem den_scale (base : Nat) (power : Int) (positive : 0 < base) (bottom : 0 < ratio.den) :
    0 < (ratio.scale base power).den :=
  Nat.mul_pos bottom (Nat.pow_pos positive)

theorem toRat_pos (top : 0 < ratio.num) (bottom : 0 < ratio.den) : 0 < ratio.toRat := by
  unfold toRat
  positivity

theorem ceil_div (num den : Nat) (bottom : 0 < num) :
    ⌈(den : ℚ) / num⌉₊ = (den + num - 1) / num := by
  refine eq_of_forall_ge_iff fun bound => ?_
  have positive : (0 : ℚ) < num := by exact_mod_cast bottom
  rw [Nat.ceil_le, div_le_iff₀ positive, ← Nat.cast_mul, Nat.cast_le,
    ← Nat.lt_add_one_iff (m := (den + num - 1) / num), Nat.div_lt_iff_lt_mul bottom, Nat.add_mul]
  omega

theorem power_eq (base : Nat) (large : 2 ≤ base) (top : 0 < ratio.num) (bottom : 0 < ratio.den) :
    ratio.power base = Int.log base ratio.toRat := by
  have positive : (0 : ℚ) < ratio.den := by exact_mod_cast bottom
  unfold power
  split_ifs with above
  · have one : 1 ≤ ratio.toRat := by
      rw [toRat, le_div_iff₀ positive, one_mul]
      exact_mod_cast above
    rw [Int.log_of_one_le_right _ one, floorLog_eq _ _ large, toRat, Nat.floor_div_eq_div]
  · have one : ratio.toRat ≤ 1 := by
      rw [toRat, div_le_one positive]
      exact_mod_cast (not_le.mp above).le
    rw [Int.log_of_right_le_one _ one, ceilLog_eq _ _ large, toRat, inv_div, ceil_div _ _ top]

end Ratio

/-- The whole number nearest to a fraction; of two that are equally near, the even one. -/
def HalfEven (exact : ℚ) (whole : Nat) : Prop :=
  2 * |exact - whole| < 1 ∨ 2 * |exact - whole| = 1 ∧ Even whole

namespace Ratio

variable {ratio : Ratio}

def rest (ratio : Ratio) : ℚ := (ratio.num % ratio.den : Nat) / ratio.den

theorem floor_add_rest (bottom : 0 < ratio.den) : ratio.toRat = ratio.floor + ratio.rest := by
  have positive : (0 : ℚ) < ratio.den := by exact_mod_cast bottom
  rw [toRat, floor, rest, eq_comm, add_div' _ _ _ positive.ne']
  congr 1
  exact_mod_cast Nat.div_add_mod' ratio.num ratio.den

theorem rest_nonneg (ratio : Ratio) : 0 ≤ ratio.rest := by
  unfold rest
  positivity

theorem rest_lt_one (bottom : 0 < ratio.den) : ratio.rest < 1 := by
  have positive : (0 : ℚ) < ratio.den := by exact_mod_cast bottom
  rw [rest, div_lt_one positive]
  exact_mod_cast Nat.mod_lt ratio.num bottom

/-- Doubling the remainder tells on which side of a half the rest is. -/
theorem rest_half (bottom : 0 < ratio.den) :
    (2 * ratio.rest < 1 ↔ 2 * (ratio.num % ratio.den) < ratio.den) ∧
      (2 * ratio.rest = 1 ↔ 2 * (ratio.num % ratio.den) = ratio.den) := by
  have positive : (0 : ℚ) < ratio.den := by exact_mod_cast bottom
  unfold rest
  rw [← mul_div_assoc, div_lt_one positive, div_eq_one_iff_eq positive.ne']
  exact ⟨by exact_mod_cast Iff.rfl, by exact_mod_cast Iff.rfl⟩

theorem roundHalfEven_nearest (bottom : 0 < ratio.den) :
    HalfEven ratio.toRat ratio.roundHalfEven := by
  obtain ⟨lessHalf, isHalf⟩ := rest_half bottom
  have nonneg := ratio.rest_nonneg
  have lessOne := rest_lt_one bottom
  unfold HalfEven
  rw [floor_add_rest bottom]
  rcases lt_trichotomy (2 * (ratio.num % ratio.den)) ratio.den with less | half | more
  · have rounded : ratio.roundHalfEven = ratio.floor := by
      simp only [roundHalfEven, Nat.compare_eq_lt.mpr less]
    left
    rw [rounded, add_sub_cancel_left, abs_of_nonneg nonneg]
    exact lessHalf.mpr less
  · have twice := isHalf.mpr half
    right
    simp only [roundHalfEven, Nat.compare_eq_eq.mpr half]
    split_ifs with even
    · rw [add_sub_cancel_left, abs_of_nonneg nonneg]
      exact ⟨twice, Nat.even_iff.mpr even⟩
    · have apart : ratio.floor + ratio.rest - (ratio.floor + 1 : Nat) = ratio.rest - 1 := by
        push_cast
        ring
      rw [apart, abs_of_nonpos (by linarith)]
      refine ⟨by linarith, ?_⟩
      rw [Nat.even_iff]
      omega
  · have rounded : ratio.roundHalfEven = ratio.floor + 1 := by
      simp only [roundHalfEven, Nat.compare_eq_gt.mpr more]
    have most : ¬ 2 * ratio.rest < 1 := fun less => absurd (lessHalf.mp less) (by omega)
    have apart : ratio.floor + ratio.rest - (ratio.floor + 1 : Nat) = ratio.rest - 1 := by
      push_cast
      ring
    have unequal : 2 * ratio.rest ≠ 1 := fun half => absurd (isHalf.mp half) (by omega)
    left
    rw [rounded, apart, abs_of_nonpos (by linarith)]
    have beyond : 1 < 2 * ratio.rest := lt_of_le_of_ne (not_lt.mp most) unequal.symm
    linarith

end Ratio

namespace HalfEven

variable {exact : ℚ} {whole other : Nat}

theorem near (nearest : HalfEven exact whole) : 2 * |exact - whole| ≤ 1 := by
  rcases nearest with less | ⟨half, -⟩
  · exact less.le
  · exact half.le

theorem lower (nearest : HalfEven exact whole) (bound : Nat) (above : bound ≤ exact) :
    bound ≤ whole := by
  have apart := abs_le.mp (show |exact - whole| ≤ 1 / 2 by linarith [nearest.near])
  have less : (bound : ℚ) < (whole + 1 : Nat) := by
    push_cast
    linarith [apart.2]
  exact Nat.lt_add_one_iff.mp (Nat.cast_lt.mp less)

theorem upper (nearest : HalfEven exact whole) (bound : Nat) (below : exact ≤ bound) :
    whole ≤ bound := by
  have apart := abs_le.mp (show |exact - whole| ≤ 1 / 2 by linarith [nearest.near])
  have less : (whole : ℚ) < (bound + 1 : Nat) := by
    push_cast
    linarith [apart.1]
  exact Nat.lt_add_one_iff.mp (Nat.cast_lt.mp less)

/-- Two neighbours that are equally near are not both even. -/
theorem not_less (one : HalfEven exact whole) (two : HalfEven exact other) : ¬ whole < other := by
  intro less
  have step : (whole : ℚ) + 1 ≤ other := by exact_mod_cast less
  have left := le_abs_self (exact - whole)
  have right := neg_le_abs (exact - other)
  have leftNear := one.near
  have rightNear := two.near
  rcases one with lessHalf | ⟨-, even⟩
  · linarith
  rcases two with lessHalf | ⟨-, evenToo⟩
  · linarith
  -- Both are half away, so that they are neighbours.
  have next : other = whole + 1 := by
    have close : (other : ℚ) ≤ (whole + 1 : Nat) := by
      push_cast
      linarith
    have closer := Nat.cast_le.mp close
    omega
  rw [next, Nat.even_add_one] at evenToo
  exact evenToo even

theorem unique (one : HalfEven exact whole) (two : HalfEven exact other) : whole = other :=
  le_antisymm (not_lt.mp (two.not_less one)) (not_lt.mp (one.not_less two))

theorem mono {exactToo : ℚ} (one : HalfEven exact whole) (two : HalfEven exactToo other)
    (ordered : exact ≤ exactToo) : whole ≤ other := by
  by_contra beyond
  have step : (other : ℚ) + 1 ≤ whole := by exact_mod_cast not_le.mp beyond
  have left := neg_le_abs (exact - whole)
  have right := le_abs_self (exactToo - other)
  -- Only one number is half away from both sides of a step.
  have same : exact = exactToo := by linarith [one.near, two.near]
  subst same
  exact beyond (one.unique two).le

/-- No whole number is nearer, and one as near is another one only beside an even one. -/
theorem nearest (nearest : HalfEven exact whole) (other : Nat) :
    |exact - whole| ≤ |exact - other| ∧
      (|exact - whole| = |exact - other| → whole = other ∨ Even whole) := by
  by_cases same : whole = other
  · exact ⟨by rw [same], fun _ => .inl same⟩
  · have apart : (1 : ℚ) ≤ |(whole : ℚ) - other| := by
      have step : (1 : Int) ≤ |(whole : Int) - other| := Int.one_le_abs (by omega)
      exact_mod_cast step
    have around := abs_sub_le (whole : ℚ) exact other
    rw [abs_sub_comm (whole : ℚ) exact] at around
    have near := nearest.near
    refine ⟨by linarith, fun tie => .inr ?_⟩
    rcases nearest with less | ⟨-, even⟩
    · linarith
    · exact even

theorem closer {exactToo : ℚ} (nearest : HalfEven exact whole)
    (near : |exactToo - whole| ≤ |exact - whole|) : HalfEven exactToo whole := by
  rcases nearest with less | ⟨half, even⟩
  · exact .inl (by linarith)
  · have most : 2 * |exactToo - whole| ≤ 1 := by linarith
    exact most.lt_or_eq.imp id fun tie => ⟨tie, even⟩

end HalfEven

end MeteredChunk

namespace MeteredChunk.Binary

/-! ## Binary numbers

Binary numbers as rational numbers. The patterns without a sign are in the order of the numbers
they stand for, from zero to the first one that would be too large.
-/

def toRat (binary : Binary) : ℚ := binary.significand * 2 ^ binary.exponent

theorem toRat_toRatio (binary : Binary) : binary.toRatio.toRat = binary.toRat := by
  rw [toRatio, Ratio.toRat_scale _ _ _ (by decide), toRat, Ratio.toRat]
  push_cast
  rw [div_one]

theorem toRat_lt {low high : Nat} (exponent : Int) (less : low < high) :
    (Binary.mk low exponent).toRat < (Binary.mk high exponent).toRat :=
  mul_lt_mul_of_pos_right (by exact_mod_cast less) (zpow_pos (by norm_num) _)

theorem toRat_twice (significand : Nat) (exponent : Int) :
    (Binary.mk (2 * significand) exponent).toRat =
      (Binary.mk significand (exponent + 1)).toRat := by
  simp only [toRat]
  rw [zpow_add_one₀ (by norm_num)]
  push_cast
  ring

variable {bits : Nat}

theorem ofBits_low (small : bits < 2 ^ 52) : ofBits bits = ⟨bits, -1074⟩ := by
  have field : bits >>> 52 = 0 := by
    rw [Nat.shiftRight_eq_div_pow]
    exact Nat.div_eq_of_lt small
  rw [ofBits, if_pos field, leastExponent]

theorem ofBits_high (large : 2 ^ 52 ≤ bits) :
    ofBits bits = ⟨2 ^ 52 + bits % 2 ^ 52, (bits / 2 ^ 52 : Nat) - 1075⟩ := by
  have field : bits >>> 52 ≠ 0 := by
    rw [Nat.shiftRight_eq_div_pow]
    exact (Nat.div_pos large (by norm_num)).ne'
  have unit : 1 <<< 52 = 2 ^ 52 := rfl
  rw [ofBits, if_neg field, unit, Nat.shiftRight_eq_div_pow, leastExponent, mk.injEq]
  exact ⟨rfl, by ring⟩

/-- Counting on from the greatest significand gives the least one of the next exponent. -/
theorem ofBits_succ (bits : Nat) : (ofBits bits).toRat < (ofBits (bits + 1)).toRat := by
  rcases lt_trichotomy (bits + 1) (2 ^ 52) with small | first | large
  · rw [ofBits_low (by omega), ofBits_low small]
    exact toRat_lt _ (Nat.lt_succ_self bits)
  · rw [ofBits_low (by omega), ofBits_high first.ge, first]
    exact toRat_lt _ (by omega)
  · have above : 2 ^ 52 ≤ bits := by omega
    rw [ofBits_high above, ofBits_high large.le]
    by_cases carry : bits % 2 ^ 52 = 2 ^ 52 - 1
    · have field : (bits + 1) / 2 ^ 52 = bits / 2 ^ 52 + 1 := by omega
      have rest : (bits + 1) % 2 ^ 52 = 0 := by omega
      have next : ((bits / 2 ^ 52 + 1 : Nat) : Int) - 1075 =
          ((bits / 2 ^ 52 : Nat) : Int) - 1075 + 1 := by
        push_cast
        ring
      rw [field, rest, next, ← toRat_twice]
      exact toRat_lt _ (by omega)
    · have field : (bits + 1) / 2 ^ 52 = bits / 2 ^ 52 := by omega
      have rest : (bits + 1) % 2 ^ 52 = bits % 2 ^ 52 + 1 := by omega
      rw [field, rest]
      exact toRat_lt _ (by omega)

theorem ofBits_strictMono : StrictMono fun bits => (ofBits bits).toRat :=
  strictMono_nat_of_lt_succ ofBits_succ

theorem ofBits_zero : (ofBits 0).toRat = 0 := by
  rw [ofBits_low (by norm_num), toRat]
  norm_num

theorem ofBits_one : (ofBits 1).toRat = 2 ^ (-1074 : Int) := by
  rw [ofBits_low (by norm_num), toRat]
  norm_num

theorem ofBits_infinity : (ofBits infinityBits).toRat = 2 ^ (1024 : Int) := by
  have shape : ofBits infinityBits = ⟨2 ^ 52, 972⟩ := by
    rw [ofBits_high (by decide)]
    rfl
  simp only [shape, toRat, Nat.cast_pow, Nat.cast_ofNat]
  rw [← zpow_natCast, ← zpow_add₀ (by norm_num)]
  rfl

theorem ofBits_finite {bits : Nat} (finite : bits < infinityBits) :
    (ofBits bits).toRat < 2 ^ (1024 : Int) :=
  (ofBits_strictMono finite).trans_eq ofBits_infinity

theorem ofBits_beyond {bits : Nat} (beyond : infinityBits < bits) :
    2 ^ (1024 : Int) < (ofBits bits).toRat :=
  ofBits_infinity.symm.trans_lt (ofBits_strictMono beyond)

end MeteredChunk.Binary
