import MeteredChunk.Proofs.Decimal.Nearest
import MeteredChunk.Proofs.Value.Order

/-!
Reading the text of six digits again. What is read is the value nearest to the number of the
text, seldom the one that was written; still it is written alike. Only beside a power of ten
this is not plain, since six digits are finer below it: there the binary numbers have to be finer
still, as the normal ones are.
-/

namespace MeteredChunk

namespace Value

variable {value again : Value} {exact : ℚ}

theorem abs_bits (value : Value) : |value.toRat| = (Binary.ofBits value.magnitude).toRat := by
  have number : value.toRat =
      (if value.isNegative then -1 else 1) * (Binary.ofBits value.magnitude).toRat := rfl
  have positive : 0 ≤ (Binary.ofBits value.magnitude).toRat :=
    mul_nonneg (Nat.cast_nonneg _) (zpow_nonneg (by norm_num) _)
  rw [number, abs_mul, abs_of_nonneg positive]
  split_ifs <;> simp

theorem ofMagnitude_bits (negative : Bool) {magnitude : Nat}
    (within : magnitude ≤ Binary.infinityBits) :
    (ofMagnitude negative magnitude).isNegative = negative ∧
      (ofMagnitude negative magnitude).magnitude = magnitude := by
  have small : magnitude < 2 ^ 63 := within.trans_lt (by decide)
  have unit : 1 <<< 63 = 2 ^ 63 := by decide
  cases negative with
  | false =>
      have bits : (ofMagnitude false magnitude).bits.toNat = magnitude :=
        Nat.mod_eq_of_lt (show magnitude < 2 ^ 64 by omega)
      simp only [isNegative, Value.magnitude, bits, unit, decide_eq_false_iff_not]
      omega
  | true =>
      have bits : (ofMagnitude true magnitude).bits.toNat = 2 ^ 63 + magnitude :=
        Nat.mod_eq_of_lt (show 2 ^ 63 + magnitude < 2 ^ 64 by omega)
      simp only [isNegative, Value.magnitude, bits, unit, decide_eq_true_eq]
      omega

theorem isNaN_ofMagnitude (negative : Bool) {magnitude : Nat}
    (within : magnitude ≤ Binary.infinityBits) :
    (ofMagnitude negative magnitude).isNaN = false := by
  rw [isNaN, (ofMagnitude_bits negative within).2]
  exact decide_eq_false (not_lt.mpr within)

theorem toRat_ofMagnitude (negative : Bool) {magnitude : Nat}
    (within : magnitude ≤ Binary.infinityBits) :
    (ofMagnitude negative magnitude).toRat =
      (if negative then -1 else 1) * (Binary.ofBits magnitude).toRat := by
  obtain ⟨sign, bits⟩ := ofMagnitude_bits negative within
  rw [toRat, binary, sign, bits]
  rfl

/-- What a number is rounded to: no other value is nearer, and if one is as near the pattern is
even. An infinity counts as the number that would come next. -/
structure Nearest (exact : ℚ) (value : Value) : Prop where
  number : value.isNaN = false
  near : ∀ other : Value, other.isNaN = false → |exact - value.toRat| ≤ |exact - other.toRat|
  even : ∀ other : Value, other.isNaN = false → |exact - value.toRat| = |exact - other.toRat| →
    value.toRat = other.toRat ∨ Even value.magnitude

theorem signed_abs (negative : Bool) (positive : 0 ≤ exact) :
    |(if negative then -1 else 1) * exact| = exact := by
  rw [abs_mul, abs_of_nonneg positive]
  split_ifs <;> simp

theorem signed_apart (negative : Bool) (exact other : ℚ) :
    |(if negative then -1 else 1) * exact - (if negative then -1 else 1) * other| =
      |exact - other| := by
  rw [← mul_sub, abs_mul]
  split_ifs <;> simp

theorem nearest_ofMagnitude (negative : Bool) {bits : Nat} (positive : 0 ≤ exact)
    (within : bits ≤ Binary.infinityBits)
    (beats : ∀ other ≤ Binary.infinityBits, Binary.Beats exact bits other) :
    (ofMagnitude negative bits).Nearest ((if negative then -1 else 1) * exact) := by
  have unsigned := signed_abs negative positive
  have distance : |(if negative then -1 else 1) * exact - (ofMagnitude negative bits).toRat| =
      |exact - (Binary.ofBits bits).toRat| := by
    rw [toRat_ofMagnitude negative within, signed_apart]
  have apart (other : Value) : |exact - (Binary.ofBits other.magnitude).toRat| ≤
      |(if negative then -1 else 1) * exact - other.toRat| := by
    have least := abs_abs_sub_abs_le ((if negative then -1 else 1) * exact) other.toRat
    rwa [unsigned, abs_bits] at least
  have inside {other : Value} (number : other.isNaN = false) :
      other.magnitude ≤ Binary.infinityBits := by
    simpa [isNaN] using number
  refine ⟨isNaN_ofMagnitude negative within, fun other number => ?_, fun other number tie => ?_⟩
  · rw [distance]
    exact (beats _ (inside number)).near.trans (apart other)
  · have same := (ofMagnitude_bits negative within).2
    have chosen := beats _ (inside number)
    have even := chosen.even (le_antisymm chosen.near (distance ▸ tie ▸ apart other))
    rw [same]
    refine even.imp_left fun alike => ?_
    have either : |(ofMagnitude negative bits).toRat| = |other.toRat| := by
      rw [abs_bits, abs_bits, same, alike]
    rcases abs_eq_abs.mp either with equal | opposite
    · exact equal
    -- A value and its negative are as near as each other to zero alone, or both are zero.
    have zero : (ofMagnitude negative bits).toRat = 0 := by
      rw [← neg_eq_iff_eq_neg] at opposite
      rw [← opposite, sub_neg_eq_add] at tie
      rcases abs_eq_abs.mp tie with both | none
      · linarith
      · have nothing : exact = 0 := by
          have signed : (if negative then -1 else 1) * exact = 0 := by linarith
          rw [← unsigned, signed, abs_zero]
        have near := (beats 0 (Nat.zero_le _)).near
        rw [nothing, Binary.ofBits_zero, sub_zero, abs_zero, zero_sub, abs_neg] at near
        rw [toRat_ofMagnitude negative within, abs_nonpos_iff.mp near, mul_zero]
    rw [zero] at opposite ⊢
    linarith

theorem ratio_exists (positive : 0 < exact) :
    ∃ ratio : Ratio, 0 < ratio.num ∧ 0 < ratio.den ∧ ratio.toRat = exact := by
  have top : 0 < exact.num := Rat.num_pos.mpr positive
  have whole : ((exact.num.toNat : Nat) : ℚ) = exact.num := by
    exact_mod_cast congrArg (Int.cast (R := ℚ)) (Int.toNat_of_nonneg top.le)
  refine ⟨⟨exact.num.toNat, exact.den⟩, Int.pos_iff_toNat_pos.mp top, exact.den_pos, ?_⟩
  rw [Ratio.toRat, whole, Rat.num_div_den]

/-- In the range of the normal numbers the nearest value is a small part of the number away. -/
theorem Nearest.error (nearest : value.Nearest exact) (large : (2 : ℚ) ^ (-1023 : Int) ≤ |exact|)
    (below : |exact| < (2 : ℚ) ^ (1024 : Int)) : |exact - value.toRat| ≤ |exact| / 2 ^ 52 := by
  have positive : 0 < |exact| := (zpow_pos (by norm_num) _).trans_le large
  obtain ⟨ratio, top, bottom, same⟩ := ratio_exists positive
  obtain ⟨within, close⟩ := Binary.nearestBits_error top bottom (same ▸ large) (same ▸ below)
  rw [same] at close
  have near := nearest.near _ (isNaN_ofMagnitude (decide (exact < 0)) within)
  have signed : (if decide (exact < 0) then -1 else 1) * |exact| = exact := by
    by_cases negative : exact < 0
    · simp [negative, abs_of_neg]
    · simp [negative, abs_of_nonneg (not_lt.mp negative)]
  have apart := signed_apart (decide (exact < 0)) |exact|
    (Binary.ofBits (Binary.nearestBits ratio)).toRat
  rw [signed] at apart
  rw [toRat_ofMagnitude _ within, apart] at near
  exact near.trans close

structure Normal (value : Value) : Prop where
  finite : value.magnitude < Binary.infinityBits
  full : (2 : ℚ) ^ (-1022 : Int) ≤ |value.toRat|

theorem Normal.ordinary (normal : value.Normal) : value.Ordinary := by
  refine ⟨normal.finite, fun zero => ?_⟩
  have full := normal.full
  rw [abs_bits, zero, Binary.ofBits_zero] at full
  exact absurd (zpow_pos (by norm_num) _) (not_lt.mpr full)

theorem Ordinary.signed (ordinary : value.Ordinary) :
    value.toRat = (if value.isNegative then -1 else 1) * |value.toRat| := by
  have sign := ordinary.toRat_neg
  by_cases negative : value.isNegative = true
  · rw [if_pos negative, abs_of_neg (sign.mpr negative)]
    ring
  · rw [if_neg negative, abs_of_nonneg (not_lt.mp fun below => negative (sign.mp below)), one_mul]

theorem ofBits_greatest : (Binary.ofBits (Binary.infinityBits - 1)).toRat =
    (9007199254740991 : Nat) * 2 ^ (971 : Int) := by
  have shape : Binary.ofBits (Binary.infinityBits - 1) = ⟨9007199254740991, 971⟩ := by
    rw [Binary.ofBits_high (by decide)]
    rfl
  rw [shape, Binary.toRat]

/-- The number behind the greatest one, in six digits. -/
theorem rounds_overflow : Ratio.Rounds 5 ((2 : ℚ) ^ (1024 : Int)) 308 179769 := by
  have low : (179769 : Nat) * (10 : ℚ) ^ (303 : Int) ≤ 2 ^ (1024 : Int) := by
    exact_mod_cast (show 179769 * 10 ^ 303 ≤ 2 ^ 1024 by decide +kernel)
  have high : 2 * (2 : ℚ) ^ (1024 : Int) < (2 * 179769 + 1 : Nat) * 10 ^ (303 : Int) := by
    exact_mod_cast (show 2 * 2 ^ 1024 < (2 * 179769 + 1) * 10 ^ 303 by decide +kernel)
  refine Ratio.Rounds.rounds_between (by norm_num) (by norm_num) ?_
  change 2 * |(2 : ℚ) ^ (1024 : Int) - (179769 : Nat) * 10 ^ (303 : Int)| < 10 ^ (303 : Int)
  generalize (2 : ℚ) ^ (1024 : Int) = top at *
  generalize (10 : ℚ) ^ (303 : Int) = unit at *
  rw [abs_of_nonneg (sub_nonneg.mpr low)]
  push_cast at high ⊢
  linarith

/-- Six digits of a finite number do not go past the greatest one. -/
theorem Ordinary.shown_most (ordinary : value.Ordinary) {power : Int} {rounded : Nat}
    (rounds : Ratio.Rounds 5 |value.toRat| power rounded) :
    Ratio.atPower 5 rounded power ≤ (Binary.ofBits (Binary.infinityBits - 1)).toRat := by
  have below := Binary.ofBits_finite ordinary.finite
  rw [← abs_bits] at below
  have digits : Ratio.atPower 5 179769 308 = (179769 : Nat) * 10 ^ (303 : Int) := rfl
  calc Ratio.atPower 5 rounded power ≤ Ratio.atPower 5 179769 308 :=
        rounds.mono rounds_overflow below.le
    _ ≤ (Binary.ofBits (Binary.infinityBits - 1)).toRat := by
        rw [digits, ofBits_greatest]
        exact_mod_cast (show 179769 * 10 ^ 303 ≤ 9007199254740991 * 2 ^ 971 by decide +kernel)

section Reading
variable {number : ℚ} {power : Int} {rounded : Nat}

/-- Both are near the number that the text stands for: the value that it was written for, and the
one that is read. -/
theorem Nearest.close (nearest : again.Nearest number) (ordinary : value.Ordinary)
    (rounds : Ratio.Rounds 5 |value.toRat| power rounded)
    (stands : number = (if value.isNegative then -1 else 1) * Ratio.atPower 5 rounded power) :
    |number - again.toRat| ≤ |(|value.toRat|) - Ratio.atPower 5 rounded power| ∧
      |again.toRat - value.toRat| < 10 ^ (-5 : Int) * |value.toRat| := by
  have near := nearest.near value (by simp [isNaN, ordinary.finite.le])
  have apart : |number - value.toRat| = |(|value.toRat|) - Ratio.atPower 5 rounded power| := by
    calc |number - value.toRat|
        = |(if value.isNegative then -1 else 1) * Ratio.atPower 5 rounded power -
            (if value.isNegative then -1 else 1) * (|value.toRat|)| := by
          rw [stands, ← ordinary.signed]
      _ = |(|value.toRat|) - Ratio.atPower 5 rounded power| := by
          rw [signed_apart, abs_sub_comm]
  have relative := rounds.relative
  have around := abs_sub_le again.toRat number value.toRat
  rw [apart] at near around
  rw [abs_sub_comm again.toRat number] at around
  exact ⟨near, by push_cast at relative; linarith⟩

theorem same_sign
    (close : |again.toRat - value.toRat| < 10 ^ (-5 : Int) * |value.toRat|) :
    again.toRat ≠ 0 ∧ (again.toRat < 0 ↔ value.toRat < 0) := by
  have part : (10 : ℚ) ^ (-5 : Int) < 1 := by norm_num
  have positive := abs_nonneg value.toRat
  have less : |again.toRat - value.toRat| < |value.toRat| := by nlinarith
  rcases abs_cases value.toRat with ⟨same, sign⟩ | ⟨same, sign⟩ <;>
    rw [same, abs_lt] at less <;>
    exact ⟨by rintro zero; rw [zero] at less; linarith, by constructor <;> intro <;> linarith⟩

theorem Normal.shown_range (normal : value.Normal)
    (rounds : Ratio.Rounds 5 |value.toRat| power rounded) :
    (2 : ℚ) ^ (-1023 : Int) ≤ Ratio.atPower 5 rounded power := by
  have full := normal.full
  have half : (2 : ℚ) ^ (-1022 : Int) = 2 ^ (-1023 : Int) * 2 := by
    rw [← zpow_add_one₀ (by norm_num)]
    rfl
  have relative := rounds.relative
  have part : (10 : ℚ) ^ (-(5 : Nat) : Int) < 1 := by norm_num
  have below := neg_abs_le (|value.toRat| - Ratio.atPower 5 rounded power)
  have above := le_abs_self (|value.toRat| - Ratio.atPower 5 rounded power)
  rw [half] at full
  nlinarith [rounds.exact_pos]

/-- What is read is finite. The greatest finite number would be nearer than an infinity. -/
theorem Nearest.finite (nearest : again.Nearest number) (ordinary : value.Ordinary)
    (rounds : Ratio.Rounds 5 |value.toRat| power rounded)
    (stands : number = (if value.isNegative then -1 else 1) * Ratio.atPower 5 rounded power) :
    again.magnitude < Binary.infinityBits := by
  have most : again.magnitude ≤ Binary.infinityBits := by simpa [isNaN] using nearest.number
  refine lt_of_le_of_ne most fun infinite => ?_
  have inside : Binary.infinityBits - 1 ≤ Binary.infinityBits := Nat.sub_le _ _
  have near := nearest.near _ (isNaN_ofMagnitude value.isNegative inside)
  have shown := ordinary.shown_most rounds
  have next : (Binary.ofBits (Binary.infinityBits - 1)).toRat <
      (Binary.ofBits Binary.infinityBits).toRat := Binary.ofBits_strictMono (by decide)
  have apart := abs_abs_sub_abs_le number again.toRat
  rw [abs_bits, infinite, stands, signed_abs _ rounds.atPower_pos.le] at apart
  rw [toRat_ofMagnitude _ inside, stands, signed_apart] at near
  rw [abs_of_nonpos (sub_nonpos.mpr (shown.trans next.le))] at apart
  rw [abs_of_nonpos (sub_nonpos.mpr shown)] at near
  linarith

/-- The nearest value to the number that is read. -/
theorem Normal.reread (normal : value.Normal) {number : ℚ}
    (read : Numeral.value? value.generalChars = some number) (nearest : again.Nearest number) :
    again.Ordinary ∧ again.generalChars = value.generalChars ∧
      |again.toRat - value.toRat| < 10 ^ (-5 : Int) * |value.toRat| := by
  have ordinary := normal.ordinary
  obtain ⟨power, rounded, rounds⟩ : ∃ power rounded, Ratio.Rounds 5 |value.toRat| power rounded :=
    ⟨_, _, ordinary.rounds⟩
  have stands := Option.some.inj (read.symm.trans (ordinary.value?_general rounds))
  obtain ⟨near, close⟩ := nearest.close ordinary rounds stands
  obtain ⟨nonzero, sign⟩ := same_sign close
  have again_ordinary : again.Ordinary := by
    refine ⟨nearest.finite ordinary rounds stands, fun zero => nonzero ?_⟩
    rw [← abs_eq_zero, abs_bits, zero, Binary.ofBits_zero]
  have magnitude : |number| = Ratio.atPower 5 rounded power := by
    rw [stands, signed_abs _ rounds.atPower_pos.le]
  have greatest := (ordinary.shown_most rounds).trans_lt (Binary.ofBits_finite (by decide))
  have error := nearest.error (magnitude ▸ normal.shown_range rounds) (magnitude ▸ greatest)
  have apart : |(|again.toRat|) - Ratio.atPower 5 rounded power| ≤ |number - again.toRat| := by
    rw [← magnitude, abs_sub_comm (|again.toRat|)]
    exact abs_abs_sub_abs_le number again.toRat
  obtain ⟨powerToo, roundedToo, roundsToo, same⟩ := rounds.closer (apart.trans near) fun full => by
    -- Half a place below a power of ten is a twentieth of one above it, and far more than a binary
    -- number is off.
    have places : (10 : ℚ) ^ power = 10 ^ 6 * 10 ^ (power - 1 - (5 : Nat)) := by
      rw [← zpow_natCast, ← zpow_add₀ (by norm_num)]
      congr 1
      push_cast
      ring
    have unit : (0 : ℚ) < 10 ^ (power - 1 - (5 : Nat)) := zpow_pos (by norm_num) _
    rw [magnitude] at error
    rw [full] at apart error
    rw [places] at apart error ⊢
    generalize (10 : ℚ) ^ (power - 1 - (5 : Nat)) = place at apart error unit ⊢
    linarith only [apart, error, unit]
  refine ⟨again_ordinary, ?_, close⟩
  rw [again_ordinary.same_text ordinary roundsToo rounds]
  exact ⟨by rw [Bool.eq_iff_iff, ← again_ordinary.toRat_neg, ← ordinary.toRat_neg, sign], same⟩

end Reading

end Value

end MeteredChunk
