import MeteredChunk.Proofs.Decimal.Ratio

/-!
Rounding to binary numbers is correct: no pattern up to that of infinity stands for a nearer
number, and only beside an even one does another stand for one as near. Infinity takes part as
the number that would come next, so that rounding overflows from half the last step on.
-/

namespace MeteredChunk

namespace Binary

def step (field : Nat) : ℚ := 2 ^ ((field : Int) - 1074)

theorem step_pos (field : Nat) : 0 < step field := zpow_pos (by norm_num) _

theorem step_add (field more : Nat) : step (field + more) = 2 ^ more * step field := by
  rw [step, step, ← zpow_natCast, ← zpow_add₀ (by norm_num)]
  congr 1
  push_cast
  ring

section Packing
variable {field significand : Nat}

/-- A significand on top of a field counts its steps, also where it carries into the field. -/
theorem toRat_packed (full : field = 0 ∨ 2 ^ 52 ≤ significand) (most : significand ≤ 2 ^ 53) :
    (ofBits (field * 2 ^ 52 + significand)).toRat = significand * step field := by
  rcases lt_or_ge significand (2 ^ 52) with low | high
  · have first : field = 0 := full.resolve_right (by omega)
    rw [first, zero_mul, zero_add, ofBits_low low]
    rfl
  rw [ofBits_high (by omega), toRat]
  rcases most.eq_or_lt with carry | less
  · have above : (field * 2 ^ 52 + significand) / 2 ^ 52 = field + 2 := by omega
    have zero : (field * 2 ^ 52 + significand) % 2 ^ 52 = 0 := by omega
    have twice : (2 : ℚ) ^ (((field + 2 : Nat) : Int) - 1075) = 2 * step field := by
      rw [step, ← zpow_one_add₀ (by norm_num)]
      congr 1
      push_cast
      ring
    simp only [above, zero, twice]
    rw [carry]
    push_cast
    ring
  · have above : (field * 2 ^ 52 + significand) / 2 ^ 52 = field + 1 := by omega
    have rest : 2 ^ 52 + (field * 2 ^ 52 + significand) % 2 ^ 52 = significand := by omega
    have once : (2 : ℚ) ^ (((field + 1 : Nat) : Int) - 1075) = step field := by
      rw [step]
      congr 1
      push_cast
      ring
    simp only [above, rest, once]

theorem unpacked (bits : Nat) : ∃ field significand, (field = 0 ∨ 2 ^ 52 ≤ significand) ∧
    significand < 2 ^ 53 ∧ bits = field * 2 ^ 52 + significand :=
  ⟨bits / 2 ^ 52 - 1, bits - (bits / 2 ^ 52 - 1) * 2 ^ 52, by omega, by omega, by omega⟩

theorem toRat_grid (bits field : Nat) :
    (∃ count : Nat, (ofBits bits).toRat = count * step field) ∨
      field ≠ 0 ∧ (ofBits bits).toRat < 2 ^ 52 * step field := by
  obtain ⟨own, significand, full, small, rfl⟩ := unpacked bits
  rw [toRat_packed full small.le]
  rcases le_or_gt field own with coarse | fine
  · left
    obtain ⟨more, rfl⟩ := Nat.exists_eq_add_of_le coarse
    refine ⟨significand * 2 ^ more, ?_⟩
    rw [step_add]
    push_cast
    ring
  · right
    obtain ⟨more, rfl⟩ := Nat.exists_eq_add_of_le fine
    have below : (significand : ℚ) < 2 ^ 53 := by exact_mod_cast small
    have ones : (1 : ℚ) ≤ 2 ^ more := one_le_pow₀ (by norm_num)
    have positive := step_pos own
    refine ⟨by omega, ?_⟩
    calc (significand : ℚ) * step own < 2 ^ 53 * step own := mul_lt_mul_of_pos_right below positive
      _ ≤ 2 ^ 53 * (2 ^ more * step own) := by nlinarith
      _ = 2 ^ 52 * step (own + 1 + more) := by rw [step_add, step_add]; ring

end Packing

/-- The first pattern is at least as near as the other, and even if the other is as near. -/
structure Beats (exact : ℚ) (bits other : Nat) : Prop where
  near : |exact - (ofBits bits).toRat| ≤ |exact - (ofBits other).toRat|
  even : |exact - (ofBits bits).toRat| = |exact - (ofBits other).toRat| → bits = other ∨ Even bits

section Beats
variable {exact : ℚ} {bits other : Nat}

theorem beats_nearer
    (nearer : |exact - (ofBits bits).toRat| < |exact - (ofBits other).toRat|) :
    Beats exact bits other :=
  ⟨nearer.le, fun tie => absurd tie nearer.ne⟩

/-- From the number on that would come next, infinity is the nearest of all. -/
theorem infinity_beats (beyond : (2 : ℚ) ^ (1024 : Int) ≤ exact) (within : other ≤ infinityBits) :
    Beats exact infinityBits other := by
  rcases within.eq_or_lt with rfl | less
  · exact ⟨le_rfl, fun _ => .inl rfl⟩
  · have below := ofBits_finite less
    apply beats_nearer
    rw [ofBits_infinity, abs_of_nonneg (by linarith), abs_of_nonneg (by linarith)]
    linarith

/-- Less than half the least number is nearest to zero. -/
theorem zero_beats (positive : 0 ≤ exact) (small : 2 * exact < (2 : ℚ) ^ (-1074 : Int)) :
    Beats exact 0 other := by
  rcases Nat.eq_zero_or_pos other with rfl | some
  · exact ⟨le_rfl, fun _ => .inl rfl⟩
  · have least := ofBits_strictMono.monotone (Nat.one_le_iff_ne_zero.mpr some.ne')
    simp only [ofBits_one] at least
    apply beats_nearer
    rw [ofBits_zero, sub_zero, abs_of_nonneg positive, abs_of_nonpos (by linarith)]
    linarith

/-- What is nearest of all patterns stays so when the patterns end with infinity. -/
theorem clamp_beats (all : ∀ other, Beats exact bits other) (within : other ≤ infinityBits) :
    Beats exact (min bits infinityBits) other := by
  rcases le_or_gt bits infinityBits with inside | outside
  · rw [min_eq_left inside]
    exact all other
  · rw [min_eq_right outside.le]
    refine infinity_beats (not_lt.mp fun less => ?_) within
    have above := ofBits_beyond outside
    have near := (all infinityBits).near
    rw [ofBits_infinity, abs_of_neg (by linarith), abs_of_neg (by linarith)] at near
    linarith

end Beats

structure Packs (exact : ℚ) (field significand : Nat) : Prop where
  above : field = 0 ∨ 2 ^ 52 * step field ≤ exact
  below : exact < 2 ^ 53 * step field
  nearest : HalfEven (exact / step field) significand

namespace Packs

variable {exact : ℚ} {field significand : Nat}

theorem toRat (packs : Packs exact field significand) :
    (ofBits (field * 2 ^ 52 + significand)).toRat = significand * step field := by
  have positive := step_pos field
  apply toRat_packed
  · refine packs.above.imp_right fun above => packs.nearest.lower _ ?_
    rw [le_div_iff₀ positive]
    exact_mod_cast above
  · apply packs.nearest.upper
    rw [div_le_iff₀ positive]
    exact_mod_cast packs.below.le

theorem distance (exact : ℚ) (field count : Nat) :
    |exact - count * step field| = |exact / step field - count| * step field := by
  have positive := step_pos field
  rw [← abs_of_pos positive, ← abs_mul, abs_of_pos positive, sub_mul,
    div_mul_cancel₀ _ positive.ne']

theorem beats (packs : Packs exact field significand) (other : Nat) :
    Beats exact (field * 2 ^ 52 + significand) other := by
  have positive := step_pos field
  rcases toRat_grid other field with ⟨count, there⟩ | ⟨nonzero, small⟩
  · obtain ⟨near, even⟩ := packs.nearest.nearest count
    constructor <;> rw [packs.toRat, there, distance, distance]
    · exact mul_le_mul_of_nonneg_right near positive.le
    · intro tie
      rcases even (mul_right_cancel₀ positive.ne' tie) with same | even
      · left
        apply ofBits_strictMono.injective
        change (ofBits (field * 2 ^ 52 + significand)).toRat = (ofBits other).toRat
        rw [packs.toRat, there, same]
      · exact .inr ((Even.mul_left (by decide) field).add even)
  · -- The other one is smaller than all full significands at this field, and the least of these is
    -- at most the exact number.
    have above := packs.above.resolve_left nonzero
    have near := (packs.nearest.nearest (2 ^ 52)).1
    have full := mul_le_mul_of_nonneg_right near positive.le
    rw [← distance, ← distance, ← packs.toRat] at full
    simp only [Nat.cast_pow, Nat.cast_ofNat] at full
    apply beats_nearer
    rw [abs_of_nonneg (sub_nonneg.mpr above)] at full
    rw [abs_of_pos (show 0 < exact - (ofBits other).toRat by linarith)]
    linarith

/-- Of the least normal number and all above it, half a step is a small part. -/
theorem error (packs : Packs exact field significand) (large : (2 : ℚ) ^ (-1023 : Int) ≤ exact) :
    |exact - (ofBits (field * 2 ^ 52 + significand)).toRat| ≤ exact / 2 ^ 52 := by
  have positive := step_pos field
  have half : |exact - significand * step field| ≤ step field / 2 := by
    have near := mul_le_mul_of_nonneg_right packs.nearest.near positive.le
    rw [distance]
    linarith
  have fine : step field ≤ exact / 2 ^ 51 := by
    rw [le_div_iff₀ (by norm_num)]
    rcases packs.above with rfl | above
    · have least : step 0 * 2 ^ 51 = 2 ^ (-1023 : Int) := by
        rw [step, ← zpow_natCast, ← zpow_add₀ (by norm_num)]
        norm_num
      rw [least]
      exact large
    · linarith
  rw [packs.toRat]
  linarith

end Packs

theorem packs_nearestBits {ratio : Ratio} (top : 0 < ratio.num) (bottom : 0 < ratio.den) :
    ∃ field significand, Packs ratio.toRat field significand ∧
      nearestBits ratio = min (field * 2 ^ 52 + significand) infinityBits := by
  have positive := Ratio.toRat_pos top bottom
  have power := ratio.power_eq 2 (by decide) top bottom
  have least : (2 : ℚ) ^ ratio.power 2 ≤ ratio.toRat := by
    rw [power]
    exact_mod_cast Int.zpow_log_le_self (b := 2) (by decide) positive
  have most : ratio.toRat < (2 : ℚ) ^ (ratio.power 2 + 1) := by
    rw [power]
    exact_mod_cast Int.lt_zpow_succ_log_self (b := 2) (by decide) ratio.toRat
  have exponent : ∃ field : Nat, max (ratio.power 2 - 52) leastExponent = field - 1074 :=
    ⟨(max (ratio.power 2 - 52) leastExponent + 1074).toNat, by unfold leastExponent; omega⟩
  obtain ⟨field, exponent⟩ := exponent
  have scaled (more : Nat) : (2 : ℚ) ^ more * step field = 2 ^ ((field : Int) - 1074 + more) := by
    rw [step, ← zpow_natCast, ← zpow_add₀ (by norm_num), add_comm]
  unfold leastExponent at exponent
  refine ⟨field, (ratio.scale 2 (1074 - field)).roundHalfEven, ⟨?_, ?_, ?_⟩, ?_⟩
  · by_cases first : field = 0
    · exact .inl first
    · right
      rw [scaled]
      refine (zpow_le_zpow_right₀ (by norm_num) ?_).trans least
      omega
  · rw [scaled]
    refine most.trans_le (zpow_le_zpow_right₀ (by norm_num) ?_)
    omega
  · have nearest := Ratio.roundHalfEven_nearest
      (Ratio.den_scale 2 (1074 - (field : Int)) (by decide) bottom)
    rw [Ratio.toRat_scale _ _ _ (by decide)] at nearest
    have inverse : ratio.toRat / step field = ratio.toRat * (2 : Nat) ^ (1074 - (field : Int)) := by
      rw [step, div_eq_mul_inv, ← zpow_neg, neg_sub]
      rfl
    rw [inverse]
    exact nearest
  · have shift : ((field : Int) - 1074 - leastExponent).toNat = field := by
      unfold leastExponent
      omega
    have back : -((field : Int) - 1074) = 1074 - field := by omega
    rw [nearestBits, if_neg top.ne']
    simp only [leastExponent, exponent] at shift ⊢
    rw [shift, back, Nat.shiftLeft_eq]

theorem nearestBits_beats {ratio : Ratio} (top : 0 < ratio.num) (bottom : 0 < ratio.den)
    {other : Nat} (within : other ≤ infinityBits) :
    Beats ratio.toRat (nearestBits ratio) other := by
  obtain ⟨field, significand, packs, same⟩ := packs_nearestBits top bottom
  rw [same]
  exact clamp_beats packs.beats within

theorem nearestBits_error {ratio : Ratio} (top : 0 < ratio.num) (bottom : 0 < ratio.den)
    (large : (2 : ℚ) ^ (-1023 : Int) ≤ ratio.toRat) (below : ratio.toRat < (2 : ℚ) ^ (1024 : Int)) :
    nearestBits ratio ≤ infinityBits ∧
      |ratio.toRat - (ofBits (nearestBits ratio)).toRat| ≤ ratio.toRat / 2 ^ 52 := by
  obtain ⟨field, significand, packs, same⟩ := packs_nearestBits top bottom
  have error := packs.error large
  rw [same]
  refine ⟨min_le_right _ _, ?_⟩
  rcases le_or_gt (field * 2 ^ 52 + significand) infinityBits with inside | outside
  · rwa [min_eq_left inside]
  · have above := ofBits_beyond outside
    rw [min_eq_right outside.le, ofBits_infinity, abs_of_neg (by linarith)]
    rw [abs_of_neg (by linarith)] at error
    exact (neg_le_neg (sub_le_sub_left above.le _)).trans error

end Binary

namespace Decimal

def toRat (decimal : Decimal) : ℚ := decimal.coefficient * 10 ^ decimal.exponent

theorem toRat_toRatio (decimal : Decimal) : decimal.toRatio.toRat = decimal.toRat := by
  rw [toRatio, Ratio.toRat_scale _ _ _ (by decide), toRat, Ratio.toRat]
  push_cast
  rw [div_one]

theorem leading_bounds {decimal : Decimal} (nonzero : decimal.coefficient ≠ 0) :
    (10 : ℚ) ^ decimal.leading ≤ decimal.toRat ∧
      decimal.toRat < (10 : ℚ) ^ (decimal.leading + 1) := by
  have tens : (0 : ℚ) < 10 ^ decimal.exponent := zpow_pos (by norm_num) _
  obtain ⟨behind, length⟩ := Nat.exists_eq_add_of_lt
    (List.length_pos_iff.mpr (Nat.toDigits_ne_nil (b := 10) (n := decimal.coefficient)))
  rw [Nat.zero_add] at length
  have leading : decimal.leading = behind + decimal.exponent := by
    rw [Decimal.leading, digits, length]
    push_cast
    ring
  have low : 10 ^ behind ≤ decimal.coefficient := by
    by_contra less
    rcases Nat.eq_zero_or_pos behind with rfl | some
    · omega
    · have short := (Nat.length_toDigits_le_iff (by decide) some).mpr (not_le.mp less)
      omega
  have high : decimal.coefficient < 10 ^ (behind + 1) :=
    (Nat.length_toDigits_le_iff (by decide) (Nat.succ_pos behind)).mp length.le
  rw [leading, toRat, add_right_comm, zpow_add₀ (by norm_num), zpow_add₀ (by norm_num)]
  constructor
  · exact mul_le_mul_of_nonneg_right (by exact_mod_cast low) tens.le
  · exact mul_lt_mul_of_pos_right (by exact_mod_cast high) tens

end Decimal

namespace Binary

theorem bitsOfDecimal_within (decimal : Decimal) : bitsOfDecimal decimal ≤ infinityBits := by
  unfold bitsOfDecimal nearestBits
  split_ifs <;> simp

/-- Reading a decimal rounds it correctly, also where its leading power alone is looked at. -/
theorem bitsOfDecimal_beats (decimal : Decimal) {other : Nat} (within : other ≤ infinityBits) :
    Beats decimal.toRat (bitsOfDecimal decimal) other := by
  unfold bitsOfDecimal
  split_ifs with zero large small
  · have exact : decimal.toRat = 0 := by
      rw [Decimal.toRat, zero]
      simp
    rw [exact]
    refine zero_beats le_rfl ?_
    rw [mul_zero]
    exact zpow_pos (by norm_num) _
  · obtain ⟨low, -⟩ := Decimal.leading_bounds zero
    refine infinity_beats (le_trans ?_ low) within
    calc (2 : ℚ) ^ (1024 : Int) ≤ 10 ^ (400 : Int) := by
          exact_mod_cast (show 2 ^ 1024 ≤ 10 ^ 400 by decide +kernel)
      _ ≤ 10 ^ decimal.leading := zpow_le_zpow_right₀ (by norm_num) large.le
  · obtain ⟨low, high⟩ := Decimal.leading_bounds zero
    have positive : (0 : ℚ) < 10 ^ decimal.leading := zpow_pos (by norm_num) _
    refine zero_beats (positive.le.trans low) ?_
    have most : decimal.toRat < 10 ^ (-400 : Int) :=
      high.trans_le (zpow_le_zpow_right₀ (by norm_num) (by omega))
    have least : 2 * (10 : ℚ) ^ (-400 : Int) ≤ 2 ^ (-1074 : Int) := by
      rw [zpow_neg, zpow_neg, ← div_eq_mul_inv, div_le_iff₀ (zpow_pos (by norm_num) _),
        ← div_eq_inv_mul, le_div_iff₀ (zpow_pos (by norm_num) _)]
      exact_mod_cast (show 2 * 2 ^ 1074 ≤ 10 ^ 400 by decide +kernel)
    linarith
  · rw [← Decimal.toRat_toRatio]
    exact nearestBits_beats (Nat.mul_pos (Nat.pos_of_ne_zero zero) (Nat.pow_pos (by decide)))
      (Nat.mul_pos Nat.one_pos (Nat.pow_pos (by decide))) within

end Binary

end MeteredChunk
