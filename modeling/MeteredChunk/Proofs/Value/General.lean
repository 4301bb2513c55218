import MeteredChunk.Proofs.Decimal.Rounded
import MeteredChunk.Value

/-!
The text of six significant digits is correctly rounded. The power of ten that decides
on the form is found by rounding once, and a plain number is then rounded again at the
places that the power tells; both are the same number.
-/

namespace MeteredChunk

theorem Binary.significand_pos (bits : Nat) (nonzero : bits ≠ 0) :
    0 < (Binary.ofBits bits).significand := by
  unfold Binary.ofBits
  split_ifs
  · exact Nat.pos_of_ne_zero nonzero
  · exact Nat.add_pos_left (Nat.two_pow_pos 52) _

namespace Value

variable {value : Value}

def toRat (value : Value) : ℚ :=
  (if value.isNegative then -1 else 1) *
    (value.binary.significand * 2 ^ value.binary.exponent)

structure Ordinary (value : Value) : Prop where
  finite : value.magnitude < Binary.infinityBits
  nonzero : value.magnitude ≠ 0

theorem kinds (value : Value) : value.isNaN = true ∨ value.isInfinite = true ∨
    value.magnitude = 0 ∨ value.Ordinary := by
  rcases lt_trichotomy value.magnitude Binary.infinityBits with finite | infinite | beyond
  · by_cases zero : value.magnitude = 0
    · exact .inr (.inr (.inl zero))
    · exact .inr (.inr (.inr ⟨finite, zero⟩))
  · exact .inr (.inl (beq_iff_eq.mpr infinite))
  · exact .inl (decide_eq_true beyond)

theorem isNaN_infinite (infinite : value.isInfinite = true) : value.isNaN = false := by
  simp [isNaN, beq_iff_eq.mp infinite]

theorem isNaN_zero (zero : value.magnitude = 0) : value.isNaN = false := by
  simp [isNaN, zero]

theorem isInfinite_zero (zero : value.magnitude = 0) : value.isInfinite = false := by
  rw [isInfinite, zero]
  decide

theorem generalChars_nan (nan : value.isNaN = true) : value.generalChars = ['n', 'a', 'n'] :=
  if_pos nan

theorem generalChars_infinite (infinite : value.isInfinite = true) :
    value.generalChars = value.sign ++ ['i', 'n', 'f'] := by
  simp only [generalChars, isNaN_infinite infinite, infinite, if_true, if_false,
    Bool.false_eq_true]

theorem generalChars_zero (zero : value.magnitude = 0) :
    value.generalChars = value.sign ++ ['0'] := by
  simp only [generalChars, isNaN_zero zero, isInfinite_zero zero, zero, if_true, if_false,
    Bool.false_eq_true]

namespace Ordinary

theorem num_pos (ordinary : value.Ordinary) : 0 < value.binary.toRatio.num :=
  Nat.mul_pos (Binary.significand_pos _ ordinary.nonzero) (Nat.pow_pos (by decide))

theorem den_pos (value : Value) : 0 < value.binary.toRatio.den :=
  Nat.mul_pos Nat.one_pos (Nat.pow_pos (by decide))

theorem toRat_ratio (value : Value) :
    value.toRat = (if value.isNegative then -1 else 1) * value.binary.toRatio.toRat := by
  rw [Binary.toRatio, Ratio.toRat_scale _ _ _ (by decide), toRat, Ratio.toRat]
  push_cast
  rw [div_one]

theorem abs_toRat (ordinary : value.Ordinary) : |value.toRat| = value.binary.toRatio.toRat := by
  have positive := Ratio.toRat_pos ordinary.num_pos (den_pos value)
  rw [toRat_ratio]
  split_ifs
  · rw [neg_one_mul, abs_neg, abs_of_pos positive]
  · rw [one_mul, abs_of_pos positive]

theorem toRat_neg (ordinary : value.Ordinary) : value.toRat < 0 ↔ value.isNegative = true := by
  have positive := Ratio.toRat_pos ordinary.num_pos (den_pos value)
  rw [toRat_ratio]
  split_ifs with negative
  · simp [negative, positive]
  · simp [negative, positive.le]

theorem rounds (ordinary : value.Ordinary) :
    Ratio.Rounds 5 |value.toRat| (value.binary.toRatio.power 10)
      (value.binary.toRatio.scale 10 (5 - value.binary.toRatio.power 10)).roundHalfEven := by
  rw [ordinary.abs_toRat]
  exact Ratio.rounds_power 5 ordinary.num_pos (den_pos value)

/-- Rounding again at the places that the power leaves. -/
theorem fixed_eq (ordinary : value.Ordinary) {power : Int} {rounded : Nat}
    (rounds : Ratio.Rounds 5 |value.toRat| power rounded) (places : Nat)
    (left : (places : Int) = 5 - (Ratio.carried 5 rounded power).2) :
    value.binary.toRatio.fixed places =
      pointed places ((Nat.toDigits 10 (Ratio.carried 5 rounded power).1).leftpad
        (places + 1) '0') := by
  -- The second rounding, of the exact number and not of the six digits.
  have nearest := Ratio.roundHalfEven_nearest
    (Ratio.den_scale 10 (places : Int) (by decide) (den_pos value))
  rw [Ratio.toRat_scale _ _ _ (by decide), ← ordinary.abs_toRat, left] at nearest
  rw [Ratio.fixed, left, nearest.unique rounds.again]

theorem scientific_eq (ordinary : value.Ordinary) {power : Int} {rounded : Nat}
    (rounds : Ratio.Rounds 5 |value.toRat| power rounded) :
    value.binary.toRatio.scientific 5 =
      (pointed 5 (Nat.toDigits 10 (Ratio.carried 5 rounded power).1),
        (Ratio.carried 5 rounded power).2) := by
  obtain ⟨samePower, sameDigits⟩ := ordinary.rounds.unique rounds
  subst samePower sameDigits
  exact Ratio.scientific_eq 5 value.binary.toRatio

/-- The text of an ordinary value, by what the first rounding gives. -/
theorem generalChars_eq (ordinary : value.Ordinary) {power : Int} {rounded : Nat}
    (rounds : Ratio.Rounds 5 |value.toRat| power rounded) :
    value.generalChars =
      let written := Ratio.carried 5 rounded power
      if -4 ≤ written.2 ∧ written.2 < 6 then
        trimFraction (value.sign ++ pointed (5 - written.2).toNat
          ((Nat.toDigits 10 written.1).leftpad ((5 - written.2).toNat + 1) '0'))
      else
        trimFraction (value.sign ++ pointed 5 (Nat.toDigits 10 written.1)) ++
          'e' :: (if written.2 < 0 then '-' else '+') ::
            (Nat.toDigits 10 written.2.natAbs).leftpad 2 '0' := by
  have number : value.isNaN = false := by
    simp [isNaN, ordinary.finite.le]
  have finite : value.isInfinite = false := by
    simp [isInfinite, ordinary.finite.ne]
  have digits : significantDigits - 1 = 5 := rfl
  have six : (significantDigits : Int) = 6 := rfl
  simp only [generalChars, number, finite, ordinary.nonzero, digits, six,
    ordinary.scientific_eq rounds, if_false, Bool.false_eq_true]
  split_ifs with plain negative
  · rw [show (6 : Int) - 1 = 5 from rfl, ordinary.fixed_eq rounds _ (by omega)]
  · rfl
  · rfl

/-- Only digits, a point and a sign are in front of the power of ten. -/
theorem mark_absent (mark : Char) (minus : mark ≠ '-') (point : mark ≠ '.')
    (other : mark.isDigit = false) (value : Value) (places : Nat) (digits : List Char)
    (all : Numeral.AllDigits digits) :
    mark ∉ trimFraction (value.sign ++ pointed places digits) := by
  intro member
  have absent := all.absent mark other
  rcases List.mem_append.mp (mem_trimFraction _ member) with signed | shown
  · unfold sign at signed
    split_ifs at signed <;> simp [minus] at signed
  · unfold pointed at shown
    split_ifs at shown
    · exact absent shown
    · rcases List.mem_append.mp shown with front | back
      · exact absent (List.mem_of_mem_take front)
      · rcases List.mem_cons.mp back with same | behind
        · exact point same
        · exact absent (List.mem_of_mem_drop behind)

theorem markless (value : Value) (places : Nat) (digits : List Char)
    (all : Numeral.AllDigits digits) :
    'e' ∉ trimFraction (value.sign ++ pointed places digits) :=
  mark_absent 'e' (by decide) (by decide) (by decide) value places digits all

theorem value?_text (value : Value) (places : Nat) (digits rest : List Char) (power : Int)
    (all : Numeral.AllDigits digits) (longer : places < digits.length)
    (tail : Numeral.exponent? rest = some power) :
    Numeral.value? (trimFraction (value.sign ++ pointed places digits) ++ rest) =
      some ((if value.isNegative then -1 else 1) * (Numeral.natOfDigits digits : ℚ) *
        10 ^ (power - places)) :=
  Numeral.value?_trimmed value.isNegative places digits all longer tail

/-- A plain number reads as its digits at the power of the last one. -/
theorem reads_plain (value : Value) (digits : Nat) (leading : Int) (below : leading < 6) :
    let text := trimFraction (value.sign ++ pointed (5 - leading).toNat
      ((Nat.toDigits 10 digits).leftpad ((5 - leading).toNat + 1) '0'))
    Numeral.value? text =
        some ((if value.isNegative then -1 else 1) * (digits : ℚ) * 10 ^ (leading - 5)) ∧
      'e' ∉ text := by
  intro text
  have all := Numeral.allDigits_leftpad ((5 - leading).toNat + 1) _
    (Numeral.allDigits_toDigits digits)
  have longer : (5 - leading).toNat <
      ((Nat.toDigits 10 digits).leftpad ((5 - leading).toNat + 1) '0').length := by
    rw [List.length_leftpad]
    omega
  have read := value?_text value (5 - leading).toNat _ [] 0 all longer rfl
  have shift : (0 : Int) - (5 - leading).toNat = leading - 5 := by omega
  rw [List.append_nil, Numeral.natOfDigits_leftpad, Numeral.natOfDigits_toDigits, shift] at read
  exact ⟨read, markless value _ _ all⟩

theorem reads_scientific (value : Value) (digits : Nat) (leading : Int)
    (six : (Nat.toDigits 10 digits).length = 6) :
    let mantissa := trimFraction (value.sign ++ pointed 5 (Nat.toDigits 10 digits))
    let written := (if leading < 0 then '-' else '+') ::
      (Nat.toDigits 10 leading.natAbs).leftpad 2 '0'
    Numeral.value? (mantissa ++ 'e' :: written) =
        some ((if value.isNegative then -1 else 1) * (digits : ℚ) * 10 ^ (leading - 5)) ∧
      'e' ∉ mantissa ∧ Numeral.int? written = some leading := by
  intro mantissa written
  have all := Numeral.allDigits_toDigits digits
  have tail : Numeral.int? written = some leading := Numeral.int?_signed leading 2
  have read := value?_text value 5 _ ('e' :: written) leading all (by omega)
    (by simpa [Numeral.exponent?] using tail)
  rw [Numeral.natOfDigits_toDigits] at read
  exact ⟨read, markless value _ _ all, tail⟩

end Ordinary

/-- The characters of a text are digits and the ones that the three forms need. -/
theorem mark_generalChars (mark : Char) (other : mark.isDigit = false)
    (absent : mark ∉ "-+.enaif".toList) (value : Value) : mark ∉ value.generalChars := by
  have marks : mark ≠ '-' ∧ mark ≠ '+' ∧ mark ≠ '.' ∧ mark ≠ 'e' ∧ mark ≠ 'n' ∧ mark ≠ 'a' ∧
      mark ≠ 'i' ∧ mark ≠ 'f' := by simpa using absent
  obtain ⟨minus, plus, point, exponent, n, a, i, f⟩ := marks
  have plain := Ordinary.mark_absent mark minus point other value
  have digitless (number : Nat) : mark ∉ Nat.toDigits 10 number :=
    (Numeral.allDigits_toDigits number).absent mark other
  have zero : mark ≠ '0' := fun same => by rw [same] at other; cases other
  have mantissa : ∃ digits, Numeral.AllDigits digits ∧
      (value.binary.toRatio.scientific (significantDigits - 1)).1 =
        pointed (significantDigits - 1) digits := by
    unfold Ratio.scientific
    dsimp only
    split_ifs <;> exact ⟨_, Numeral.allDigits_toDigits _, rfl⟩
  obtain ⟨digits, all, shown⟩ := mantissa
  simp only [generalChars, shown]
  split_ifs with number infinite zeros small negative
  · simp [n, a]
  · unfold sign
    split_ifs <;> simp [minus, n, i, f]
  · unfold sign
    split_ifs <;> simp [minus, zero]
  · exact plain _ _ (Numeral.allDigits_leftpad _ _ (Numeral.allDigits_toDigits _))
  all_goals simp [plain _ _ all, digitless, exponent, minus, plus, zero]

theorem carried_million (rounded : Nat) (power : Int) :
    Ratio.carried 5 rounded power =
      (if rounded = 1000000 then 100000 else rounded,
        if rounded = 1000000 then power + 1 else power) := by
  have million : 10 ^ (5 + 1) = 1000000 := by norm_num
  have before : 10 ^ 5 = 100000 := by norm_num
  unfold Ratio.carried
  rw [million, before]
  by_cases carry : rounded = 1000000
  · simp only [if_pos carry]
  · simp only [if_neg carry]

/-- The text of a number that is finite and not zero. With `power` the power of ten it lies at, it
is rounded half to even at the fifth place behind the first digit; a carry into the next power takes
the power along. The text reads as that number, and the power fixes its form. -/
theorem generalChars_rounded (value : Value) (ordinary : value.Ordinary) :
    (∃ power rounded, Ratio.Rounds 5 |value.toRat| power rounded) ∧
      ∀ power rounded, Ratio.Rounds 5 |value.toRat| power rounded →
        let digits := if rounded = 1000000 then 100000 else rounded
        let leading := if rounded = 1000000 then power + 1 else power
        Numeral.value? value.generalChars =
            some ((if value.toRat < 0 then -1 else 1) * (digits : ℚ) * 10 ^ (leading - 5)) ∧
          if -4 ≤ leading ∧ leading < 6 then 'e' ∉ value.generalChars
          else ∃ mantissa written, value.generalChars = mantissa ++ 'e' :: written ∧
            'e' ∉ mantissa ∧ Numeral.int? written = some leading := by
  have computed := Ratio.rounds_power 5 ordinary.num_pos (Ordinary.den_pos value)
  rw [← ordinary.abs_toRat] at computed
  refine ⟨⟨_, _, computed⟩, fun power rounded rounds => ?_⟩
  intro digits leading
  have written : Ratio.carried 5 rounded power = (digits, leading) :=
    carried_million rounded power
  have length := rounds.carried_length
  have text := ordinary.generalChars_eq rounds
  rw [written] at length text
  simp only at length text
  have sign : (if value.toRat < 0 then (-1 : ℚ) else 1) = if value.isNegative then -1 else 1 := by
    simp only [ordinary.toRat_neg]
  rw [sign]
  -- The carry has gone into `digits` and `leading`; only the form is left to tell apart.
  by_cases plain : -4 ≤ leading ∧ leading < 6
  · rw [if_pos plain] at text ⊢
    rw [text]
    exact Ordinary.reads_plain value digits leading plain.2
  · rw [if_neg plain] at text ⊢
    rw [text]
    obtain ⟨read, markless, tail⟩ := Ordinary.reads_scientific value digits leading length
    exact ⟨read, _, _, rfl, markless, tail⟩

/-- A half below a million carries into the power that takes the exponent form. -/
theorem generalChars_rounded_carry :
    (⟨0x412E847F00000000⟩ : Value).Ordinary ∧
      Ratio.Rounds 5 |(⟨0x412E847F00000000⟩ : Value).toRat| 5 1000000 ∧
      Numeral.value? (⟨0x412E847F00000000⟩ : Value).generalChars = some 1000000 ∧
      ∃ mantissa written,
        (⟨0x412E847F00000000⟩ : Value).generalChars = mantissa ++ 'e' :: written ∧
          'e' ∉ mantissa ∧ Numeral.int? written = some 6 := by
  have ordinary : (⟨0x412E847F00000000⟩ : Value).Ordinary := ⟨by decide, by decide⟩
  have positive : (⟨0x412E847F00000000⟩ : Value).isNegative = false := by decide
  have binary : (⟨0x412E847F00000000⟩ : Value).binary = ⟨1999999 * 2 ^ 32, -33⟩ := rfl
  have exact : (⟨0x412E847F00000000⟩ : Value).toRat = 1999999 / 2 := by
    rw [toRat, positive, binary]
    norm_num
  have rounds : Ratio.Rounds 5 |(⟨0x412E847F00000000⟩ : Value).toRat| 5 1000000 := by
    rw [exact, abs_of_pos (by norm_num)]
    refine ⟨by norm_num, by norm_num, ?_⟩
    right
    norm_num [abs_of_neg, Nat.even_iff]
  obtain ⟨-, reads⟩ := generalChars_rounded _ ordinary
  obtain ⟨read, form⟩ := reads 5 1000000 rounds
  norm_num [exact] at read form
  exact ⟨ordinary, rounds, read, form⟩

end Value

end MeteredChunk
