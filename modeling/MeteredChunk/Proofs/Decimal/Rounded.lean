import MeteredChunk.Proofs.Decimal.Reading

/-!
A positive fraction rounded to one digit and so many places behind it. A fraction just
below a power of ten can round up to it; rounding once more at the places that the new
power leaves gives the same number.
-/

namespace MeteredChunk.Ratio

variable {ratio : Ratio}

def carried (places rounded : Nat) (power : Int) : Nat × Int :=
  if rounded = 10 ^ (places + 1) then (10 ^ places, power + 1) else (rounded, power)

def atPower (places rounded : Nat) (power : Int) : ℚ := rounded * 10 ^ (power - places)

theorem atPower_full (places : Nat) (power : Int) :
    atPower places (10 ^ places) power = 10 ^ power := by
  unfold atPower
  push_cast
  rw [← zpow_natCast, ← zpow_add₀ (by norm_num)]
  congr 1
  ring

theorem atPower_carry (places : Nat) (power : Int) :
    atPower places (10 ^ (places + 1)) power = 10 ^ (power + 1) := by
  rw [← atPower_full places (power + 1), atPower, atPower, pow_succ]
  push_cast
  rw [mul_assoc, ← zpow_one_add₀ (by norm_num)]
  congr 2
  ring

theorem atPower_mono {low high : Nat} (power : Int) (ordered : low ≤ high) :
    atPower places low power ≤ atPower places high power :=
  mul_le_mul_of_nonneg_right (by exact_mod_cast ordered) (zpow_nonneg (by norm_num) _)

theorem distance_atPower (places whole : Nat) (power : Int) (exact : ℚ) :
    |exact - atPower places whole power| =
      |exact * 10 ^ (places - power) - whole| * 10 ^ (power - places) := by
  have unit : (0 : ℚ) < 10 ^ (power - places) := zpow_pos (by norm_num) _
  have back : exact * 10 ^ ((places : Int) - power) * 10 ^ (power - places) = exact := by
    rw [mul_assoc, ← zpow_add₀ (by norm_num)]
    simp
  calc |exact - atPower places whole power|
      = |(exact * 10 ^ (places - power) - whole) * 10 ^ (power - places)| := by
        rw [sub_mul, back, atPower]
    _ = |exact * 10 ^ (places - power) - whole| * 10 ^ (power - places) := by
        rw [abs_mul, abs_of_pos unit]

theorem atPower_succ (places rounded : Nat) (power : Int) :
    atPower places (rounded + 1) power = atPower places rounded power + 10 ^ (power - places) := by
  rw [atPower, atPower]
  push_cast
  ring

/-- A carry changes the digits and the power, and not the number. -/
theorem atPower_carried (places rounded : Nat) (power : Int) :
    atPower places (carried places rounded power).1 (carried places rounded power).2 =
      atPower places rounded power := by
  unfold carried
  split_ifs with carry
  · rw [carry, atPower_full, atPower_carry]
  · rfl

structure Rounds (places : Nat) (exact : ℚ) (power : Int) (rounded : Nat) : Prop where
  above : 10 ^ power ≤ exact
  below : exact < 10 ^ (power + 1)
  nearest : HalfEven (exact * 10 ^ (places - power)) rounded

namespace Rounds

variable {places rounded : Nat} {exact : ℚ} {power : Int}

theorem shifted (power shift : Int) : (10 : ℚ) ^ power * 10 ^ (shift - power) = 10 ^ shift := by
  rw [← zpow_add₀ (by norm_num)]
  congr 1
  ring

theorem scaled (rounds : Rounds places exact power rounded) :
    10 ^ places ≤ exact * 10 ^ (places - power) ∧
      exact * 10 ^ (places - power) < 10 ^ (places + 1) := by
  have positive : (0 : ℚ) < 10 ^ ((places : Int) - power) := zpow_pos (by norm_num) _
  have low := mul_le_mul_of_nonneg_right rounds.above positive.le
  have high := mul_lt_mul_of_pos_right rounds.below positive
  have next : (10 : ℚ) ^ (power + 1) = 10 ^ power * 10 := by
    rw [zpow_add₀ (by norm_num), zpow_one]
  rw [next, mul_right_comm] at high
  rw [shifted, zpow_natCast] at low high
  rw [pow_succ]
  exact ⟨low, high⟩

theorem bounds (rounds : Rounds places exact power rounded) :
    10 ^ places ≤ rounded ∧ rounded ≤ 10 ^ (places + 1) := by
  obtain ⟨low, high⟩ := rounds.scaled
  exact ⟨rounds.nearest.lower _ (by exact_mod_cast low),
    rounds.nearest.upper _ (by exact_mod_cast high.le)⟩

theorem carried_bounds (rounds : Rounds places exact power rounded) :
    10 ^ places ≤ (carried places rounded power).1 ∧
      (carried places rounded power).1 < 10 ^ (places + 1) := by
  obtain ⟨low, high⟩ := rounds.bounds
  unfold carried
  split_ifs with carry
  · exact ⟨le_rfl, Nat.pow_lt_pow_succ (by decide)⟩
  · exact ⟨low, lt_of_le_of_ne high carry⟩

theorem carried_length (rounds : Rounds places exact power rounded) :
    (Nat.toDigits 10 (carried places rounded power).1).length = places + 1 := by
  obtain ⟨low, high⟩ := rounds.carried_bounds
  have most := (Nat.length_toDigits_le_iff (by decide) (Nat.succ_pos places)).mpr high
  have least : ¬ (Nat.toDigits 10 (carried places rounded power).1).length ≤ places := by
    intro short
    have few : 0 < places := lt_of_lt_of_le (List.length_pos_iff.mpr Nat.toDigits_ne_nil) short
    have less := (Nat.length_toDigits_le_iff (by decide) few).mp short
    omega
  omega

/-- The second rounding agrees with the first, also after a carry. -/
theorem again (rounds : Rounds places exact power rounded) :
    HalfEven (exact * 10 ^ (places - (carried places rounded power).2))
      (carried places rounded power).1 := by
  unfold carried
  split_ifs with carry
  · obtain ⟨-, high⟩ := rounds.scaled
    -- The exact number is at most half an old unit off, a twentieth of a new one: no tie is left.
    have near := abs_le.mp
      (show |exact * 10 ^ (places - power) - rounded| ≤ 1 / 2 by linarith [rounds.nearest.near])
    have tenth : exact * 10 ^ ((places : Int) - (power + 1)) =
        exact * 10 ^ (places - power) / 10 := by
      rw [← sub_sub, zpow_sub₀ (by norm_num), zpow_one, mul_div_assoc]
    have whole : (rounded : ℚ) = 10 ^ places * 10 := by
      rw [carry]
      push_cast
      ring
    rw [pow_succ] at high
    left
    rw [tenth, abs_of_nonpos (by push_cast; linarith)]
    push_cast
    linarith [near.1]
  · exact rounds.nearest

theorem unique {powerToo : Int} {roundedToo : Nat} (one : Rounds places exact power rounded)
    (two : Rounds places exact powerToo roundedToo) : power = powerToo ∧ rounded = roundedToo := by
  have less : (10 : ℚ) ^ power < 10 ^ (powerToo + 1) := lt_of_le_of_lt one.above two.below
  have lessToo : (10 : ℚ) ^ powerToo < 10 ^ (power + 1) := lt_of_le_of_lt two.above one.below
  rw [zpow_lt_zpow_iff_right₀ (by norm_num)] at less lessToo
  -- The power is the only one with the number between it and the next.
  have same : power = powerToo := by omega
  subst same
  exact ⟨rfl, one.nearest.unique two.nearest⟩

theorem exact_pos (rounds : Rounds places exact power rounded) : 0 < exact :=
  lt_of_lt_of_le (zpow_pos (by norm_num) power) rounds.above

theorem atPower_pos (rounds : Rounds places exact power rounded) :
    0 < atPower places rounded power := by
  have whole : 0 < rounded := lt_of_lt_of_le (by positivity) rounds.bounds.1
  have positive : (0 : ℚ) < rounded := by exact_mod_cast whole
  exact mul_pos positive (zpow_pos (by norm_num) _)

theorem mono {exactToo : ℚ} {powerToo : Int} {roundedToo : Nat}
    (one : Rounds places exact power rounded) (two : Rounds places exactToo powerToo roundedToo)
    (ordered : exact ≤ exactToo) :
    atPower places rounded power ≤ atPower places roundedToo powerToo := by
  have below : (10 : ℚ) ^ power < 10 ^ (powerToo + 1) :=
    lt_of_le_of_lt one.above (lt_of_le_of_lt ordered two.below)
  rw [zpow_lt_zpow_iff_right₀ (by norm_num)] at below
  rcases (Int.lt_add_one_iff.mp below).eq_or_lt with rfl | later
  · have scaled : exact * 10 ^ (places - power) ≤ exactToo * 10 ^ (places - power) :=
      mul_le_mul_of_nonneg_right ordered (zpow_nonneg (by norm_num) _)
    exact atPower_mono power (one.nearest.mono two.nearest scaled)
  · -- A power of ten stands between the two.
    calc atPower places rounded power
        ≤ atPower places (10 ^ (places + 1)) power := atPower_mono power one.bounds.2
      _ = 10 ^ (power + 1) := atPower_carry places power
      _ ≤ 10 ^ powerToo := zpow_le_zpow_right₀ (by norm_num) later
      _ = atPower places (10 ^ places) powerToo := (atPower_full places powerToo).symm
      _ ≤ atPower places roundedToo powerToo := atPower_mono powerToo two.bounds.1

theorem rounds_atPower (power : Int) (low : 10 ^ places ≤ rounded)
    (high : rounded < 10 ^ (places + 1)) :
    Rounds places (atPower places rounded power) power rounded := by
  constructor
  · rw [← atPower_full places power]
    exact atPower_mono power low
  · rw [← atPower_carry places power]
    exact mul_lt_mul_of_pos_right (by exact_mod_cast high) (zpow_pos (by norm_num) _)
  · have exactly : atPower places rounded power * 10 ^ (places - power) = rounded := by
      rw [atPower, mul_assoc, ← zpow_add₀ (by norm_num)]
      simp
    left
    rw [exactly]
    norm_num

/-- The digits and the power after a carry are those of the rounded number. -/
theorem rounds_carried (rounds : Rounds places exact power rounded) :
    Rounds places (atPower places rounded power) (carried places rounded power).2
      (carried places rounded power).1 := by
  obtain ⟨low, high⟩ := rounds.carried_bounds
  rw [← atPower_carried]
  exact rounds_atPower _ low high

theorem carried_least {least : Int} (rounds : Rounds places exact power rounded)
    (above : 10 ^ least ≤ exact) : least ≤ (carried places rounded power).2 := by
  have first : Rounds places (atPower places (10 ^ places) least) least (10 ^ places) :=
    rounds_atPower least le_rfl (Nat.pow_lt_pow_succ (by decide))
  have ordered := first.mono rounds (by rwa [atPower_full])
  rw [atPower_full] at ordered
  have less := ordered.trans_lt rounds.rounds_carried.below
  rw [zpow_lt_zpow_iff_right₀ (by norm_num)] at less
  omega

theorem carried_most {most : Int} {digits : Nat} (rounds : Rounds places exact power rounded)
    (low : 10 ^ places ≤ digits) (high : digits < 10 ^ (places + 1))
    (below : exact ≤ atPower places digits most) : (carried places rounded power).2 ≤ most := by
  have last : Rounds places (atPower places digits most) most digits :=
    rounds_atPower most low high
  have ordered := rounds.mono last below
  have less := rounds.rounds_carried.above.trans_lt (ordered.trans_lt last.below)
  rw [zpow_lt_zpow_iff_right₀ (by norm_num)] at less
  omega

theorem atPower_inj {exactToo : ℚ} {powerToo : Int} {roundedToo : Nat}
    (one : Rounds places exact power rounded) (two : Rounds places exactToo powerToo roundedToo)
    (same : atPower places rounded power = atPower places roundedToo powerToo) :
    carried places rounded power = carried places roundedToo powerToo := by
  have first := one.rounds_carried
  rw [same] at first
  obtain ⟨powers, digits⟩ := first.unique two.rounds_carried
  exact Prod.ext digits powers

theorem near (rounds : Rounds places exact power rounded) :
    2 * |exact - atPower places rounded power| ≤ 10 ^ (power - places) := by
  have unit : (0 : ℚ) < 10 ^ (power - places) := zpow_pos (by norm_num) _
  rw [distance_atPower]
  nlinarith [rounds.nearest.near]

/-- Rounding moves a number by less than half a unit of its last place, with the first digit put
at one. -/
theorem relative (rounds : Rounds places exact power rounded) :
    2 * |exact - atPower places rounded power| < 10 ^ (-(places : Int)) * exact := by
  have positive : (0 : ℚ) < 10 ^ (-(places : Int)) := zpow_pos (by norm_num) _
  rcases rounds.above.eq_or_lt with same | less
  · have itself := rounds_atPower power le_rfl (Nat.pow_lt_pow_succ (n := places) (by decide))
    rw [atPower_full, same] at itself
    rw [(rounds.unique itself).2, atPower_full, same, sub_self, abs_zero, mul_zero]
    exact mul_pos positive rounds.exact_pos
  · calc 2 * |exact - atPower places rounded power| ≤ 10 ^ (power - places) := rounds.near
      _ = 10 ^ (-(places : Int)) * 10 ^ power := by
          rw [← zpow_add₀ (by norm_num), neg_add_eq_sub]
      _ < 10 ^ (-(places : Int)) * exact := mul_lt_mul_of_pos_left less positive

theorem rounds_between (low : 10 ^ places < rounded) (high : rounded < 10 ^ (places + 1))
    (near : 2 * |exact - atPower places rounded power| < 10 ^ (power - places)) :
    Rounds places exact power rounded := by
  have unit : (0 : ℚ) < 10 ^ (power - places) := zpow_pos (by norm_num) _
  have least : atPower places (10 ^ places + 1) power ≤ atPower places rounded power :=
    atPower_mono power low
  have most : atPower places (rounded + 1) power ≤ atPower places (10 ^ (places + 1)) power :=
    atPower_mono power high
  rw [atPower_succ, atPower_full] at least
  rw [atPower_succ, atPower_carry] at most
  have above := le_abs_self (exact - atPower places rounded power)
  have below := neg_abs_le (exact - atPower places rounded power)
  refine ⟨by linarith, by linarith, .inl ?_⟩
  rw [distance_atPower] at near
  nlinarith

/-- Next to a power of ten, from above. -/
theorem rounds_above (above : 10 ^ power ≤ exact)
    (near : 2 * |exact - 10 ^ power| < 10 ^ (power - places)) :
    Rounds places exact power (10 ^ places) := by
  have unit : (0 : ℚ) < 10 ^ (power - places) := zpow_pos (by norm_num) _
  have small : (10 : ℚ) ^ (power - places) ≤ 10 ^ power :=
    zpow_le_zpow_right₀ (by norm_num) (by omega)
  have next : (10 : ℚ) ^ (power + 1) = 10 ^ power * 10 := zpow_add_one₀ (by norm_num) _
  refine ⟨above, ?_, .inl ?_⟩
  · rw [abs_of_nonneg (by linarith)] at near
    linarith
  · rw [← atPower_full places, distance_atPower] at near
    nlinarith

/-- Next to a power of ten, from below, where a place is a tenth. -/
theorem rounds_below (below : exact < 10 ^ (power + 1))
    (near : 2 * |exact - 10 ^ (power + 1)| ≤ 10 ^ (power - places)) :
    Rounds places exact power (10 ^ (places + 1)) := by
  have unit : (0 : ℚ) < 10 ^ (power - places) := zpow_pos (by norm_num) _
  have small : (10 : ℚ) ^ (power - places) ≤ 10 ^ power :=
    zpow_le_zpow_right₀ (by norm_num) (by omega)
  have next : (10 : ℚ) ^ (power + 1) = 10 ^ power * 10 := zpow_add_one₀ (by norm_num) _
  refine ⟨?_, below, ?_⟩
  · rw [abs_of_neg (by linarith)] at near
    linarith
  · rw [← atPower_carry places, distance_atPower] at near
    have most : 2 * |exact * 10 ^ (places - power) - (10 ^ (places + 1) : Nat)| ≤ 1 := by
      nlinarith
    exact most.lt_or_eq.imp id fun tie => ⟨tie, (by decide : Even 10).pow_of_ne_zero (by omega)⟩

/-- A number at least as near to the rounded one is rounded to it, too. Next to a power of ten it
has to be nearer from below, where the places are finer. -/
theorem closer {other : ℚ} (rounds : Rounds places exact power rounded)
    (near : |other - atPower places rounded power| ≤ |exact - atPower places rounded power|)
    (fine : atPower places rounded power = 10 ^ power →
      2 * |other - 10 ^ power| ≤ 10 ^ (power - 1 - places)) :
    ∃ powerToo roundedToo, Rounds places other powerToo roundedToo ∧
      atPower places roundedToo powerToo = atPower places rounded power := by
  have half := rounds.near
  have unit : (0 : ℚ) < 10 ^ (power - places) := zpow_pos (by norm_num) _
  obtain ⟨least, most⟩ := rounds.bounds
  rcases lt_or_ge other (10 ^ power) with below | above
  · have full : rounded = 10 ^ places := by
      by_contra more
      have high : atPower places (10 ^ places + 1) power ≤ atPower places rounded power :=
        atPower_mono power (by omega)
      rw [atPower_succ, atPower_full] at high
      rw [abs_sub_comm, abs_of_nonneg (by linarith)] at near
      linarith
    rw [full, atPower_full] at fine ⊢
    have next : power - 1 + 1 = power := by omega
    refine ⟨power - 1, 10 ^ (places + 1), rounds_below ?_ ?_, ?_⟩
    · rwa [next]
    · rw [next]
      exact fine rfl
    · rw [atPower_carry, next]
  rcases lt_or_ge other (10 ^ (power + 1)) with inside | beyond
  · rw [distance_atPower, distance_atPower] at near
    exact ⟨power, rounded, ⟨above, inside, rounds.nearest.closer
      (le_of_mul_le_mul_right near unit)⟩, rfl⟩
  · have full : rounded = 10 ^ (places + 1) := by
      by_contra less
      have low : atPower places (rounded + 1) power ≤ atPower places (10 ^ (places + 1)) power :=
        atPower_mono power (by omega)
      rw [atPower_succ, atPower_carry] at low
      rw [abs_of_nonneg (by linarith)] at near
      linarith
    rw [full, atPower_carry] at near half ⊢
    have coarse : (10 : ℚ) ^ (power - places) < 10 ^ (power + 1 - places) :=
      zpow_lt_zpow_right₀ (by norm_num) (by omega)
    exact ⟨power + 1, 10 ^ places, rounds_above beyond (by linarith), atPower_full places _⟩

end Rounds

/-- Rounding of a number of either sign. The sign stays, and zero is rounded to zero. -/
inductive RoundsTo (places : Nat) : ℚ → ℚ → Prop
  | zero : RoundsTo places 0 0
  | positive {exact : ℚ} {power : Int} {rounded : Nat} (rounds : Rounds places exact power rounded) :
      RoundsTo places exact (atPower places rounded power)
  | negative {exact : ℚ} {power : Int} {rounded : Nat} (rounds : Rounds places exact power rounded) :
      RoundsTo places (-exact) (-atPower places rounded power)

namespace RoundsTo

variable {places : Nat} {exact number exactToo numberToo : ℚ}

theorem mono (one : RoundsTo places exact number) (two : RoundsTo places exactToo numberToo)
    (ordered : exact ≤ exactToo) : number ≤ numberToo := by
  cases one with
  | zero =>
      cases two with
      | zero => exact le_rfl
      | positive rounds => exact rounds.atPower_pos.le
      | negative rounds => linarith [rounds.exact_pos]
  | positive rounds =>
      cases two with
      | zero => linarith [rounds.exact_pos]
      | positive roundsToo => exact rounds.mono roundsToo ordered
      | negative roundsToo => linarith [rounds.exact_pos, roundsToo.exact_pos]
  | negative rounds =>
      cases two with
      | zero => linarith [rounds.atPower_pos]
      | positive roundsToo => linarith [rounds.atPower_pos, roundsToo.atPower_pos]
      | negative roundsToo => exact neg_le_neg (roundsToo.mono rounds (neg_le_neg_iff.mp ordered))

theorem unique (one : RoundsTo places exact number) (two : RoundsTo places exact numberToo) :
    number = numberToo :=
  le_antisymm (one.mono two le_rfl) (two.mono one le_rfl)

end RoundsTo

theorem rounds_power (places : Nat) (top : 0 < ratio.num) (bottom : 0 < ratio.den) :
    Rounds places ratio.toRat (ratio.power 10)
      (ratio.scale 10 (places - ratio.power 10)).roundHalfEven := by
  have positive := toRat_pos top bottom
  refine ⟨?_, ?_, ?_⟩
  · rw [power_eq 10 (by decide) top bottom]
    exact_mod_cast Int.zpow_log_le_self (b := 10) (by decide) positive
  · rw [power_eq 10 (by decide) top bottom]
    exact_mod_cast Int.lt_zpow_succ_log_self (b := 10) (by decide) ratio.toRat
  · have nearest := roundHalfEven_nearest
      (den_scale 10 (places - ratio.power 10) (by decide) bottom)
    rw [toRat_scale _ _ _ (by decide)] at nearest
    exact_mod_cast nearest

theorem scientific_eq (places : Nat) (ratio : Ratio) :
    ratio.scientific places =
      let written := carried places (ratio.scale 10 (places - ratio.power 10)).roundHalfEven
        (ratio.power 10)
      (pointed places (Nat.toDigits 10 written.1), written.2) := by
  simp only [scientific, carried, Nat.pow_eq]
  split_ifs <;> rfl

end MeteredChunk.Ratio
