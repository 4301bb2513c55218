import MeteredChunk.Proofs.Value.General
import Mathlib.Order.WithBot

/-!
The numbers that values are, and that six significant digits keep their order.
-/

namespace MeteredChunk

/-! ## Numbers

The number that a value is, the infinities among the numbers. Values compare as their numbers
do; that is read off their patterns, which a sign turns around.
-/

abbrev Extended := WithBot (WithTop ℚ)

namespace Value

variable {value valueToo : Value}

def numberOfRank (rank : Int) : ℚ :=
  if rank < 0 then -(Binary.ofBits rank.natAbs).toRat else (Binary.ofBits rank.natAbs).toRat

theorem numberOfRank_succ (rank : Int) : numberOfRank rank < numberOfRank (rank + 1) := by
  have step := Binary.ofBits_succ
  by_cases low : rank < -1
  · have before : rank.natAbs = (rank + 1).natAbs + 1 := by omega
    have negative : rank < 0 := by omega
    have still : rank + 1 < 0 := by omega
    rw [numberOfRank, numberOfRank, if_pos negative, if_pos still, before]
    exact neg_lt_neg (step _)
  by_cases last : rank = -1
  · subst last
    have above := step 0
    simp only [Binary.ofBits_zero] at above
    simpa [numberOfRank, Binary.ofBits_zero] using above
  · have next : (rank + 1).natAbs = rank.natAbs + 1 := by omega
    have positive : ¬ rank < 0 := by omega
    have still : ¬ rank + 1 < 0 := by omega
    rw [numberOfRank, numberOfRank, if_neg positive, if_neg still, next]
    exact step _

theorem numberOfRank_less {rank rankToo : Int} (less : rank < rankToo) :
    numberOfRank rank < numberOfRank rankToo :=
  strictMono_int_of_lt_succ numberOfRank_succ less

theorem toRat_rank (value : Value) : value.toRat = numberOfRank value.rank := by
  have number : value.toRat =
      (if value.isNegative then -1 else 1) * (Binary.ofBits value.magnitude).toRat := rfl
  rw [number, rank, numberOfRank]
  by_cases negative : value.isNegative = true
  · by_cases zero : value.magnitude = 0
    · simp [negative, zero, Binary.ofBits_zero]
    · have below : -(value.magnitude : Int) < 0 := by omega
      rw [if_pos negative, if_pos negative, if_pos below, neg_one_mul, Int.natAbs_neg,
        Int.natAbs_natCast]
  · simp [negative]

def extendedOfRank (rank : Int) : Extended :=
  if rank ≤ -(Binary.infinityBits : Int) then ⊥
  else if (Binary.infinityBits : Int) ≤ rank then ⊤
  else ((numberOfRank rank : WithTop ℚ) : Extended)

theorem extendedOfRank_less {rank rankToo : Int} (low : -(Binary.infinityBits : Int) ≤ rank)
    (high : rankToo ≤ (Binary.infinityBits : Int)) (less : rank < rankToo) :
    extendedOfRank rank < extendedOfRank rankToo := by
  have above : ¬ rankToo ≤ -(Binary.infinityBits : Int) := by omega
  have below : ¬ (Binary.infinityBits : Int) ≤ rank := by omega
  have between := numberOfRank_less less
  simp only [extendedOfRank, above, below, if_false]
  split_ifs with least greatest
  · exact WithBot.bot_lt_coe _
  · exact WithBot.bot_lt_coe _
  · exact WithBot.coe_lt_coe.mpr (WithTop.coe_lt_top _)
  · exact WithBot.coe_lt_coe.mpr (WithTop.coe_lt_coe.mpr between)

def number? (value : Value) : Option Extended :=
  if value.isNaN then none
  else if value.isInfinite then some (if value.isNegative then ⊥ else ⊤)
  else some ((value.toRat : WithTop ℚ) : Extended)

theorem number?_rank (number : value.isNaN = false) :
    value.number? = some (extendedOfRank value.rank) ∧
      -(Binary.infinityBits : Int) ≤ value.rank ∧ value.rank ≤ (Binary.infinityBits : Int) := by
  have most : value.magnitude ≤ Binary.infinityBits := by simpa [isNaN] using number
  have positive : 0 < Binary.infinityBits := by decide
  have bounds : -(Binary.infinityBits : Int) ≤ value.rank ∧
      value.rank ≤ (Binary.infinityBits : Int) := by
    unfold rank
    split_ifs <;> omega
  refine ⟨?_, bounds⟩
  simp only [number?, number, if_false, Bool.false_eq_true]
  by_cases infinite : value.magnitude = Binary.infinityBits
  · have outermost : value.isInfinite = true := beq_iff_eq.mpr infinite
    have apart : ¬ (Binary.infinityBits : Int) ≤ -(Binary.infinityBits : Int) := by omega
    rw [if_pos outermost, extendedOfRank, rank, infinite]
    by_cases negative : value.isNegative = true
    · rw [if_pos negative, if_pos negative, if_pos le_rfl]
    · rw [if_neg negative, if_neg negative, if_neg apart, if_pos le_rfl]
  · have inner : ¬ value.isInfinite = true := fun outermost => infinite (beq_iff_eq.mp outermost)
    have inside : ¬ value.rank ≤ -(Binary.infinityBits : Int) ∧
        ¬ (Binary.infinityBits : Int) ≤ value.rank := by
      unfold rank
      split_ifs <;> omega
    rw [if_neg inner, extendedOfRank, if_neg inside.1, if_neg inside.2, toRat_rank]

/-- The order of values. A NaN is not ordered, and the two zeros are equal. -/
def AtMost (value valueToo : Value) : Prop :=
  value.compare? valueToo = some .lt ∨ value.compare? valueToo = some .eq

theorem atMost_rank : value.AtMost valueToo ↔
    value.isNaN = false ∧ valueToo.isNaN = false ∧ value.rank ≤ valueToo.rank := by
  unfold AtMost compare?
  cases value.isNaN <;> cases valueToo.isNaN <;> simp [Int.compare_eq_lt]
  omega

theorem isNaN_number {exact : Extended} (read : value.number? = some exact) :
    value.isNaN = false := by
  cases nan : value.isNaN with
  | false => rfl
  | true => simp [number?, nan] at read

/-- Values are ordered like their numbers. -/
theorem atMost_number : value.AtMost valueToo ↔
    ∃ exact exactToo, value.number? = some exact ∧ valueToo.number? = some exactToo ∧
      exact ≤ exactToo := by
  rw [atMost_rank]
  constructor
  · rintro ⟨number, numberToo, ordered⟩
    obtain ⟨read, low, -⟩ := number?_rank number
    obtain ⟨readToo, -, high⟩ := number?_rank numberToo
    refine ⟨_, _, read, readToo, ?_⟩
    rcases ordered.eq_or_lt with same | less
    · rw [same]
    · exact (extendedOfRank_less low high less).le
  · rintro ⟨exact, exactToo, read, readToo, ordered⟩
    have number := isNaN_number read
    have numberToo := isNaN_number readToo
    obtain ⟨ranked, -, high⟩ := number?_rank number
    obtain ⟨rankedToo, low, -⟩ := number?_rank numberToo
    refine ⟨number, numberToo, not_lt.mp fun less => ?_⟩
    have reversed := extendedOfRank_less low high less
    rw [← Option.some.inj (ranked.symm.trans read),
      ← Option.some.inj (rankedToo.symm.trans readToo)] at ordered
    exact absurd reversed (not_lt.mpr ordered)

/-- Equality of values. A NaN equals nothing, and the two zeros are equal. -/
def Equal (value valueToo : Value) : Prop :=
  ∃ exact, value.number? = some exact ∧ valueToo.number? = some exact

theorem equals_rank : value.equals valueToo = true ↔
    value.isNaN = false ∧ valueToo.isNaN = false ∧ value.rank = valueToo.rank := by
  simp [equals, and_assoc]

theorem equals_number : value.equals valueToo = true ↔ value.Equal valueToo := by
  have both : value.equals valueToo = true ↔ value.AtMost valueToo ∧ valueToo.AtMost value := by
    rw [equals_rank, atMost_rank, atMost_rank]
    constructor
    · rintro ⟨number, numberToo, ranks⟩
      exact ⟨⟨number, numberToo, ranks.le⟩, numberToo, number, ranks.ge⟩
    · rintro ⟨⟨number, numberToo, below⟩, -, -, above⟩
      exact ⟨number, numberToo, le_antisymm below above⟩
  rw [both, atMost_number, atMost_number]
  constructor
  · rintro ⟨⟨exact, exactToo, read, readToo, below⟩, exactAgain, again, readAgain, readLast, above⟩
    cases read.symm.trans readLast
    cases readToo.symm.trans readAgain
    exact ⟨exact, read, le_antisymm below above ▸ readToo⟩
  · rintro ⟨exact, read, readToo⟩
    exact ⟨⟨exact, exact, read, readToo, le_rfl⟩, exact, exact, readToo, read, le_rfl⟩

theorem Equal.symm (equal : value.Equal valueToo) : valueToo.Equal value := by
  obtain ⟨exact, read, readToo⟩ := equal
  exact ⟨exact, readToo, read⟩

theorem Equal.trans {third : Value} (equal : value.Equal valueToo)
    (equalToo : valueToo.Equal third) : value.Equal third := by
  obtain ⟨exact, read, middle⟩ := equal
  obtain ⟨exactToo, middleToo, readToo⟩ := equalToo
  cases middle.symm.trans middleToo
  exact ⟨exact, read, readToo⟩

theorem equal_self : value.Equal value ↔ value.isNaN = false := by
  rw [← equals_number, equals_rank]
  tauto

theorem toNat_bits (value : Value) :
    value.bits.toNat = (if value.isNegative then 2 ^ 63 else 0) + value.magnitude := by
  have below := value.bits.toNat_lt
  have sign : (1 : Nat) <<< 63 = 2 ^ 63 := by decide
  simp only [isNegative, magnitude, sign, decide_eq_true_eq]
  split_ifs <;> omega

structure OppositeZeros (value valueToo : Value) : Prop where
  zero : value.magnitude = 0
  zeroToo : valueToo.magnitude = 0
  signs : value.isNegative ≠ valueToo.isNegative

/-- Equality tells all values apart but the two zeros. -/
theorem Equal.eq_or_zeros (equal : value.Equal valueToo) :
    value = valueToo ∨ value.OppositeZeros valueToo := by
  obtain ⟨-, -, ranks⟩ := equals_rank.mp (equals_number.mpr equal)
  by_cases signs : value.isNegative = valueToo.isNegative
  · left
    have magnitudes : value.magnitude = valueToo.magnitude := by
      unfold rank at ranks
      rw [signs] at ranks
      split_ifs at ranks <;> omega
    have bits : value.bits.toNat = valueToo.bits.toNat := by
      rw [toNat_bits, toNat_bits, signs, magnitudes]
    exact congrArg Value.mk (UInt64.toNat_inj.mp bits)
  · right
    have zeros : value.magnitude = 0 ∧ valueToo.magnitude = 0 := by
      unfold rank at ranks
      cases sign : value.isNegative <;> cases signToo : valueToo.isNegative <;>
        simp only [sign, signToo, not_true_eq_false] at signs ranks <;>
        simp only [Bool.false_eq_true, if_true, if_false] at ranks <;> omega
    exact ⟨zeros.1, zeros.2, signs⟩

end Value

/-! ## Order

Writing six significant digits keeps the order of the values, across signs, powers of ten and
the two forms of a text. It turns a sign bit into a minus sign, and it tells two numbers apart
exactly if their signs or their six digits differ.
-/

namespace Numeral

def extended? (chars : List Char) : Option Extended :=
  match value? chars with
  | some number => some ((number : WithTop ℚ) : Extended)
  | none =>
      if chars = ['i', 'n', 'f'] then some ⊤
      else if chars = ['-', 'i', 'n', 'f'] then some ⊥
      else none

theorem value?_zero (negative : Bool) :
    value? ((if negative then ['-'] else []) ++ ['0']) = some 0 := by
  cases negative <;>
    simp [value?, splitSign, decimal?, splitFraction, exponent?, natOfDigits]

end Numeral

namespace Value

variable {value valueToo : Value}

namespace Ordinary

variable {power powerToo : Int} {rounded roundedToo : Nat}

/-- The text of an ordinary value reads as its rounded number, in either form. -/
theorem value?_general (ordinary : value.Ordinary)
    (rounds : Ratio.Rounds 5 |value.toRat| power rounded) :
    Numeral.value? value.generalChars =
      some ((if value.isNegative then -1 else 1) * Ratio.atPower 5 rounded power) := by
  have text := ordinary.generalChars_eq rounds
  have length := rounds.carried_length
  rw [← Ratio.atPower_carried, Ratio.atPower, ← mul_assoc]
  generalize Ratio.carried 5 rounded power = written at text length
  by_cases plain : -4 ≤ written.2 ∧ written.2 < 6
  · rw [if_pos plain] at text
    rw [text]
    exact (reads_plain value written.1 written.2 plain.2).1
  · rw [if_neg plain] at text
    rw [text]
    exact (reads_scientific value written.1 written.2 length).1

theorem roundsTo (ordinary : value.Ordinary)
    (rounds : Ratio.Rounds 5 |value.toRat| power rounded) :
    Ratio.RoundsTo 5 value.toRat
      ((if value.isNegative then -1 else 1) * Ratio.atPower 5 rounded power) := by
  have sign := ordinary.toRat_neg
  by_cases negative : value.isNegative = true
  · have exact : value.toRat = -|value.toRat| := by
      rw [abs_of_neg (sign.mpr negative), neg_neg]
    rw [if_pos negative, neg_one_mul, exact]
    exact .negative rounds
  · have exact : |value.toRat| = value.toRat := by
      rw [abs_of_nonneg (not_lt.mp fun below => negative (sign.mp below))]
    rw [if_neg negative, one_mul]
    rw [exact] at rounds
    exact .positive rounds

/-- Two ordinary values are written alike if they have one sign and one rounded number. -/
theorem same_text (ordinary : value.Ordinary) (ordinaryToo : valueToo.Ordinary)
    (rounds : Ratio.Rounds 5 |value.toRat| power rounded)
    (roundsToo : Ratio.Rounds 5 |valueToo.toRat| powerToo roundedToo) :
    value.generalChars = valueToo.generalChars ↔ value.isNegative = valueToo.isNegative ∧
      Ratio.atPower 5 rounded power = Ratio.atPower 5 roundedToo powerToo := by
  constructor
  · intro same
    have read := ordinary.value?_general rounds
    rw [same, ordinaryToo.value?_general roundsToo, Option.some.injEq] at read
    have positive := rounds.atPower_pos
    have positiveToo := roundsToo.atPower_pos
    cases negative : value.isNegative <;> cases negativeToo : valueToo.isNegative <;>
      simp only [negative, negativeToo, if_true, if_false, Bool.false_eq_true, neg_one_mul,
        one_mul, neg_inj] at read
    case false.false => exact ⟨rfl, read.symm⟩
    case true.true => exact ⟨rfl, read.symm⟩
    case false.true => linarith
    case true.false => linarith
  · rintro ⟨signs, numbers⟩
    have written := rounds.atPower_inj roundsToo numbers
    have marks : value.sign = valueToo.sign := by simp only [sign, signs]
    rw [ordinary.generalChars_eq rounds, ordinaryToo.generalChars_eq roundsToo, written, marks]

end Ordinary

/-- A finite value is written as what its number is rounded to. -/
theorem finite_reads (finite : value.magnitude < Binary.infinityBits) :
    ∃ number, Numeral.value? value.generalChars = some number ∧
      Ratio.RoundsTo 5 value.toRat number := by
  by_cases zero : value.magnitude = 0
  · have exact : value.toRat = 0 := by
      have rank : value.rank = 0 := by simp [rank, zero]
      rw [toRat_rank, rank, numberOfRank, if_neg (by decide), Int.natAbs_zero, Binary.ofBits_zero]
    rw [exact, generalChars_zero zero]
    exact ⟨0, Numeral.value?_zero value.isNegative, .zero⟩
  · have ordinary : value.Ordinary := ⟨finite, zero⟩
    exact ⟨_, ordinary.value?_general ordinary.rounds, ordinary.roundsTo ordinary.rounds⟩

inductive Shows : Extended → Extended → Prop
  | least : Shows ⊥ ⊥
  | greatest : Shows ⊤ ⊤
  | finite {exact number : ℚ} (rounds : Ratio.RoundsTo 5 exact number) :
      Shows ((exact : WithTop ℚ) : Extended) ((number : WithTop ℚ) : Extended)

theorem Shows.mono {exact shown exactToo shownToo : Extended} (one : Shows exact shown)
    (two : Shows exactToo shownToo) (ordered : exact ≤ exactToo) : shown ≤ shownToo := by
  cases one with
  | least => exact bot_le
  | greatest =>
      cases two with
      | least => exact ordered
      | greatest => exact le_rfl
      | finite rounds => exact absurd ordered (by simp)
  | finite rounds =>
      cases two with
      | least => exact absurd ordered (by simp)
      | greatest => exact le_top
      | finite roundsToo =>
          have inside := WithTop.coe_le_coe.mp (WithBot.coe_le_coe.mp ordered)
          exact WithBot.coe_le_coe.mpr (WithTop.coe_le_coe.mpr (rounds.mono roundsToo inside))

theorem generalChars_shows {exact : Extended} (number : value.number? = some exact) :
    ∃ shown, Numeral.extended? value.generalChars = some shown ∧ Shows exact shown := by
  have real := isNaN_number number
  simp only [number?, real, if_false, Bool.false_eq_true] at number
  by_cases infinite : value.isInfinite = true
  · rw [if_pos infinite] at number
    cases number
    rw [generalChars_infinite infinite, sign]
    by_cases negative : value.isNegative = true
    · rw [if_pos negative, if_pos negative]
      exact ⟨⊥, rfl, .least⟩
    · rw [if_neg negative, if_neg negative]
      exact ⟨⊤, rfl, .greatest⟩
  · rw [if_neg infinite] at number
    cases number
    have finite : value.magnitude < Binary.infinityBits := by
      have most : value.magnitude ≤ Binary.infinityBits := by simpa [isNaN] using real
      have inside : value.magnitude ≠ Binary.infinityBits := by simpa [isInfinite] using infinite
      omega
    obtain ⟨shown, read, rounds⟩ := finite_reads finite
    refine ⟨_, ?_, .finite rounds⟩
    simp only [Numeral.extended?, read]

/-! ## The sign bit -/

def signed (value : Value) : Value := ⟨value.bits ||| 0x8000000000000000⟩

theorem signed_bits (positive : value.isNegative = false) :
    value.signed.isNegative = true ∧ value.signed.magnitude = value.magnitude := by
  have small : value.bits.toNat < 2 ^ 63 := by simpa [isNegative] using positive
  have bits : value.signed.bits.toNat = 2 ^ 63 + value.bits.toNat := by
    have joined := Nat.two_pow_add_eq_or_of_lt small 1
    rw [signed, UInt64.toNat_or, Nat.or_comm]
    simpa using joined.symm
  constructor
  · simp [isNegative, bits]
  · simp [magnitude, bits, Nat.add_mod_left]

theorem generalChars_signed (number : value.isNaN = false) (positive : value.isNegative = false) :
    value.signed.generalChars = '-' :: value.generalChars := by
  obtain ⟨negative, same⟩ := signed_bits positive
  have binary : value.signed.binary = value.binary := by rw [Value.binary, same, ← Value.binary]
  have nan : value.signed.isNaN = value.isNaN := by rw [isNaN, same, ← isNaN]
  have infinite : value.signed.isInfinite = value.isInfinite := by
    rw [isInfinite, same, ← isInfinite]
  have mark : value.signed.sign = ['-'] := by rw [sign, if_pos negative]
  have unsigned : value.sign = [] := by rw [sign, if_neg (by simp [positive])]
  simp only [generalChars, nan, number, infinite, same, binary, mark, unsigned, List.cons_append,
    List.nil_append, trimFraction_minus, if_false, Bool.false_eq_true]
  split_ifs <;> rfl

/-- Texts of six digits are ordered like their values, a sign bit shows as a minus sign, and
ordinary values are written alike exactly if they have the same sign and are rounded alike. -/
theorem generalChars_ordered (value valueToo : Value) :
    (value.AtMost valueToo → ∃ shown shownToo,
      Numeral.extended? value.generalChars = some shown ∧
        Numeral.extended? valueToo.generalChars = some shownToo ∧ shown ≤ shownToo) ∧
      (value.isNaN = false → value.isNegative = false →
        value.signed.generalChars = '-' :: value.generalChars) ∧
      (value.Ordinary → ∃ number, Ratio.RoundsTo 5 value.toRat number) ∧
      (value.Ordinary → valueToo.Ordinary → ∀ number numberToo,
        Ratio.RoundsTo 5 value.toRat number → Ratio.RoundsTo 5 valueToo.toRat numberToo →
          (value.generalChars = valueToo.generalChars ↔
            value.isNegative = valueToo.isNegative ∧ number = numberToo)) := by
  refine ⟨?_, generalChars_signed, ?_, ?_⟩
  · intro ordered
    obtain ⟨exact, exactToo, read, readToo, below⟩ := atMost_number.mp ordered
    obtain ⟨shown, text, shows⟩ := generalChars_shows read
    obtain ⟨shownToo, textToo, showsToo⟩ := generalChars_shows readToo
    exact ⟨shown, shownToo, text, textToo, shows.mono showsToo below⟩
  · intro ordinary
    exact ⟨_, ordinary.roundsTo ordinary.rounds⟩
  · intro ordinary ordinaryToo number numberToo rounded roundedToo
    rw [rounded.unique (ordinary.roundsTo ordinary.rounds),
      roundedToo.unique (ordinaryToo.roundsTo ordinaryToo.rounds),
      ordinary.same_text ordinaryToo ordinary.rounds ordinaryToo.rounds]
    apply and_congr_right
    intro signs
    rw [signs]
    cases valueToo.isNegative <;> simp

/-- The two are on either side of the change from one form to the other. -/
theorem generalChars_ordered_forms :
    (⟨0x412E847E00000000⟩ : Value).AtMost ⟨0x412E847F00000000⟩ ∧
      (∃ shown shownToo,
        Numeral.extended? (⟨0x412E847E00000000⟩ : Value).generalChars = some shown ∧
          Numeral.extended? (⟨0x412E847F00000000⟩ : Value).generalChars = some shownToo ∧
          shown ≤ shownToo) ∧
      (⟨0xC12E847F00000000⟩ : Value).generalChars =
        '-' :: (⟨0x412E847F00000000⟩ : Value).generalChars ∧
      (⟨0x412E847E00000000⟩ : Value).generalChars ≠
        (⟨0x412E847F00000000⟩ : Value).generalChars := by
  have atMost : (⟨0x412E847E00000000⟩ : Value).AtMost ⟨0x412E847F00000000⟩ :=
    Or.inl (by decide)
  have ordinary : (⟨0x412E847E00000000⟩ : Value).Ordinary := ⟨by decide, by decide⟩
  have ordinaryToo : (⟨0x412E847F00000000⟩ : Value).Ordinary := ⟨by decide, by decide⟩
  have positive : (⟨0x412E847E00000000⟩ : Value).isNegative = false := by decide
  have positiveToo : (⟨0x412E847F00000000⟩ : Value).isNegative = false := by decide
  have binary : (⟨0x412E847E00000000⟩ : Value).binary = ⟨999999 * 2 ^ 33, -33⟩ := rfl
  have binaryToo : (⟨0x412E847F00000000⟩ : Value).binary = ⟨1999999 * 2 ^ 32, -33⟩ := rfl
  have exact : (⟨0x412E847E00000000⟩ : Value).toRat = 999999 := by
    rw [toRat, positive, binary]
    norm_num
  have exactToo : (⟨0x412E847F00000000⟩ : Value).toRat = 1999999 / 2 := by
    rw [toRat, positiveToo, binaryToo]
    norm_num
  have rounds : Ratio.Rounds 5 999999 5 999999 := by
    refine ⟨by norm_num, by norm_num, ?_⟩
    left
    norm_num
  have roundsToo : Ratio.Rounds 5 (1999999 / 2) 5 1000000 := by
    refine ⟨by norm_num, by norm_num, ?_⟩
    right
    norm_num [abs_of_neg, Nat.even_iff]
  obtain ⟨ordered, -, -, alike⟩ :=
    generalChars_ordered ⟨0x412E847E00000000⟩ ⟨0x412E847F00000000⟩
  obtain ⟨-, odd, -, -⟩ := generalChars_ordered ⟨0x412E847F00000000⟩ ⟨0x412E847E00000000⟩
  refine ⟨atMost, ordered atMost, odd (by decide) positiveToo, ?_⟩
  rw [exact, exactToo] at alike
  intro same
  have numbers := ((alike ordinary ordinaryToo _ _ (.positive rounds) (.positive roundsToo)).mp
    same).2
  norm_num [Ratio.atPower] at numbers

end Value

end MeteredChunk
