import MeteredChunk.Proofs.Value.General

/-!
The forms of a text of six significant digits.
-/

namespace MeteredChunk

/-! ## Shapes of numerals

The shape of a number that is written without idle zeros: none lead in front of the point
except a single one, and none stand at the end of a fraction. Digits with a point among them
have this shape once they are trimmed, and no more significant digits than they had.
-/

namespace Numeral

structure Whole (digits : List Char) : Prop where
  all : AllDigits digits
  filled : digits ≠ []
  leads : digits = ['0'] ∨ digits.head? ≠ some '0'

inductive Fraction : List Char → Prop
  | none : Fraction []
  | digits {kept : List Char} (all : AllDigits kept) (filled : kept ≠ [])
      (last : kept.getLast? ≠ some '0') : Fraction ('.' :: kept)

def significant (chars : List Char) : List Char :=
  trimEnd '0' ((chars.filter Char.isDigit).dropWhile (· = '0'))

theorem head?_toDigits (n : Nat) (positive : 0 < n) : (Nat.toDigits 10 n).head? ≠ some '0' := by
  have digit : ∀ n < 10, 0 < n → [n.digitChar].head? ≠ some '0' := by decide
  induction n using Nat.strongRecOn with
  | ind n ih =>
      by_cases small : n < 10
      · rw [Nat.toDigits_of_lt_base small]
        exact digit n small positive
      · have shorter : n / 10 < n := Nat.div_lt_self positive (by decide)
        have front := ih (n / 10) shorter (by omega)
        rw [Nat.toDigits_of_base_le (by decide) (not_lt.mp small),
          List.head?_append_of_ne_nil _ Nat.toDigits_ne_nil]
        exact front

theorem AllDigits.filter {digits : List Char} (all : AllDigits digits) :
    digits.filter Char.isDigit = digits := List.filter_eq_self.mpr all

theorem whole_take {digits : List Char} (all : AllDigits digits) (filled : digits ≠ [])
    (leads : digits.head? ≠ some '0') {count : Nat} (more : 0 < count) :
    Whole (digits.take count) := by
  cases digits with
  | nil => exact absurd rfl filled
  | cons first rest =>
      cases count with
      | zero => exact absurd more (lt_irrefl 0)
      | succ count => exact ⟨all.take _, List.cons_ne_nil _ _, .inr leads⟩

theorem length_trimEnd (mark : Char) (chars : List Char) :
    (trimEnd mark chars).length ≤ chars.length := by
  obtain ⟨count, whole⟩ := trimEnd_marks mark chars
  have lengths := congrArg List.length whole
  rw [List.length_append] at lengths
  omega

theorem length_dropWhile_zeros {shown digits : List Char} {front behind : Nat}
    (cut : shown ++ List.replicate behind '0' = List.replicate front '0' ++ digits) :
    (shown.dropWhile (· = '0')).length ≤ digits.length := by
  -- On the zeros in front: each is dropped, unless the cut was made among them.
  induction front generalizing shown with
  | zero =>
      have lengths := congrArg List.length cut
      have less := (List.dropWhile_suffix (fun char => decide (char = '0')) (l := shown)).length_le
      simp only [List.replicate_zero, List.nil_append, List.length_append] at lengths
      omega
  | succ front ih =>
      cases shown with
      | nil => exact Nat.zero_le _
      | cons first rest =>
          rw [List.replicate_succ, List.cons_append, List.cons_append, List.cons.injEq] at cut
          rw [cut.1, List.dropWhile_cons_of_pos (by decide)]
          exact ih cut.2

theorem length_significant {chars digits : List Char} (front : Nat) {behind : Nat}
    (cut : chars.filter Char.isDigit ++ List.replicate behind '0' =
      List.replicate front '0' ++ digits) :
    (significant chars).length ≤ digits.length :=
  (length_trimEnd '0' _).trans (length_dropWhile_zeros cut)

/-- Of a trimmed fraction only zeros are gone, and the point if no digit is left. -/
theorem trimFraction_behind (negative : Bool) {whole fraction : List Char} (all : AllDigits whole)
    (allToo : AllDigits fraction) :
    ∃ left behind, Fraction left ∧ left.length ≤ fraction.length + 1 ∧
      trimFraction ((if negative then ['-'] else []) ++ whole ++ '.' :: fraction) =
        (if negative then ['-'] else []) ++ (whole ++ left) ∧
      left.filter Char.isDigit ++ List.replicate behind '0' = fraction := by
  obtain ⟨kept, count, same, last, trimmed⟩ :=
    trimFraction_fraction (all.pointless negative) (allToo.absent '.' (by decide))
  rw [trimmed]
  by_cases gone : kept = []
  · refine ⟨[], count, .none, Nat.zero_le _, ?_, ?_⟩
    · rw [if_pos gone, List.append_nil]
    · rw [same, gone]
      rfl
  · have digits : AllDigits kept := fun digit member =>
      allToo digit (same ▸ List.mem_append_left _ member)
    have few : kept.length ≤ fraction.length := by
      rw [same, List.length_append]
      exact Nat.le_add_right _ _
    refine ⟨'.' :: kept, count, .digits digits gone last, Nat.succ_le_succ few, ?_, ?_⟩
    · rw [if_neg gone, List.append_assoc]
    · rw [List.filter_cons_of_neg (by decide), digits.filter, same]

/-- Digits with a point among them keep what is in front of it. -/
theorem trimFraction_pointed (negative : Bool) {digits : List Char} (all : AllDigits digits)
    (places : Nat) :
    ∃ fraction behind, Fraction fraction ∧ fraction.length ≤ places + 1 ∧
      trimFraction ((if negative then ['-'] else []) ++ pointed places digits) =
        (if negative then ['-'] else []) ++ (digits.take (digits.length - places) ++ fraction) ∧
      (digits.take (digits.length - places) ++ fraction).filter Char.isDigit ++
        List.replicate behind '0' = digits := by
  by_cases zero : places = 0
  · refine ⟨[], 0, .none, Nat.zero_le _, ?_, ?_⟩
    · rw [pointed, if_pos zero, trimFraction_whole (all.pointless negative), zero]
      simp
    · simp [zero, all.filter]
  · have whole := all.take (digits.length - places)
    obtain ⟨fraction, behind, back, short, trimmed, cut⟩ :=
      trimFraction_behind negative whole (all.drop (digits.length - places))
    have few : fraction.length ≤ places + 1 := by
      rw [List.length_drop] at short
      omega
    refine ⟨fraction, behind, back, few, ?_, ?_⟩
    · rw [pointed, if_neg zero, ← List.append_assoc, trimmed]
    · rw [List.filter_append, whole.filter, List.append_assoc, cut, List.take_append_drop]

theorem whole_leftpad {digits : List Char} (all : AllDigits digits)
    (leads : digits.head? ≠ some '0') (places : Nat) :
    Whole ((digits.leftpad (places + 1) '0').take
      ((digits.leftpad (places + 1) '0').length - places)) := by
  have width : (digits.leftpad (places + 1) '0').length = max (places + 1) digits.length :=
    List.length_leftpad
  by_cases enough : places + 1 ≤ digits.length
  · have bare : digits.leftpad (places + 1) '0' = digits := by
      rw [List.leftpad, Nat.sub_eq_zero_of_le enough, List.replicate_zero, List.nil_append]
    have filled : digits ≠ [] := List.ne_nil_of_length_pos (by omega)
    rw [bare]
    exact whole_take all filled leads (by omega)
  · obtain ⟨zeros, count⟩ := Nat.exists_eq_add_of_lt (not_le.mp enough)
    have padding : places + 1 - digits.length = zeros + 1 := by omega
    have one : (digits.leftpad (places + 1) '0').length - places = 1 := by omega
    have zero : (digits.leftpad (places + 1) '0').take 1 = ['0'] := by
      rw [List.leftpad, padding, List.replicate_succ]
      rfl
    rw [one, zero]
    exact ⟨allDigits_toDigits 0, List.cons_ne_nil _ _, .inl rfl⟩

end Numeral

/-! ## Forms

The form of a text of six significant digits. Each pattern has one of five forms, of which no
idle zero and no bare point is part, whatever the power of ten and whether or not rounding
carries into the next one.
-/

namespace Ratio

theorem zpow_neg_le (twos tens : Nat) (powers : 2 ^ twos ≤ 10 ^ tens) :
    (10 : ℚ) ^ (-(tens : Int)) ≤ 2 ^ (-(twos : Int)) := by
  rw [zpow_neg, zpow_neg, zpow_natCast, zpow_natCast]
  exact inv_anti₀ (by positivity) (by exact_mod_cast powers)

theorem zpow_le_atPower (twos tens : Nat) (powers : 2 ^ twos ≤ 2 * 10 ^ tens) :
    (2 : ℚ) ^ (twos : Int) ≤ atPower 5 (2 * 10 ^ 5) tens := by
  have number : atPower 5 (2 * 10 ^ 5) tens = 2 * 10 ^ tens := by
    have full := atPower_full 5 tens
    rw [atPower, zpow_natCast] at full
    rw [atPower, ← full]
    push_cast
    ring
  rw [number, zpow_natCast]
  exact_mod_cast powers

end Ratio

namespace Value

variable {value : Value} {text : List Char}

/-- The texts that a value may have. A plain number and one with a power of ten differ in what may
stand in front of the point. -/
inductive Shape (value : Value) : List Char → Prop
  | nan (nan : value.isNaN = true) : Shape value ['n', 'a', 'n']
  | infinite (infinite : value.isInfinite = true) : Shape value (value.sign ++ ['i', 'n', 'f'])
  | zero (zero : value.magnitude = 0) : Shape value (value.sign ++ ['0'])
  | positional {whole fraction : List Char} (ordinary : value.Ordinary)
      (front : Numeral.Whole whole) (back : Numeral.Fraction fraction)
      (six : (Numeral.significant (whole ++ fraction)).length ≤ 6) :
      Shape value (value.sign ++ (whole ++ fraction))
  | exponential {first : Char} {fraction : List Char} {power : Int} (ordinary : value.Ordinary)
      (digit : first.isDigit = true) (nonzero : first ≠ '0') (back : Numeral.Fraction fraction)
      (five : fraction.length ≤ 1 + 5)
      (six : (Numeral.significant (first :: fraction)).length ≤ 6)
      (outside : power < -4 ∨ 6 ≤ power) (least : -324 ≤ power) (most : power ≤ 308) :
      Shape value (value.sign ++ (first :: fraction) ++
        'e' :: (if power < 0 then '-' else '+') :: (Nat.toDigits 10 power.natAbs).leftpad 2 '0')

theorem length_sign (value : Value) (rest : List Char) :
    (value.sign ++ rest).length ≤ rest.length + 1 := by
  unfold sign
  by_cases negative : value.isNegative = true
  · simp [negative]
  · simp [negative]

theorem head?_sign (value : Value) {rest : List Char} (unsigned : rest.head? ≠ some '-') :
    (value.sign ++ rest).head? = some '-' ↔ value.isNegative = true := by
  unfold sign
  by_cases negative : value.isNegative = true
  · simp [negative]
  · simp [negative, unsigned]

theorem Ordinary.isNaN (ordinary : value.Ordinary) : value.isNaN = false := by
  simp [Value.isNaN, ordinary.finite.le]

theorem isDigit_minus {first : Char} (digit : first.isDigit = true) (rest : List Char) :
    (first :: rest).head? ≠ some '-' := by
  intro same
  rw [Option.some.inj same] at digit
  exact absurd digit (by decide)

/-- A minus sign leads exactly if the sign bit is set, but never for a NaN. -/
theorem Shape.minus (shape : value.Shape text) :
    text.head? = some '-' ↔ value.isNaN = false ∧ value.isNegative = true := by
  cases shape with
  | nan nan => simp [nan]
  | infinite infinite =>
      rw [value.head?_sign (by decide)]
      simp [isNaN_infinite infinite]
  | zero zero =>
      rw [value.head?_sign (by decide)]
      simp [isNaN_zero zero]
  | @positional whole fraction ordinary front =>
      have unsigned : (whole ++ fraction).head? ≠ some '-' := by
        cases whole with
        | nil => exact absurd rfl front.filled
        | cons first rest => exact isDigit_minus (front.all first List.mem_cons_self) _
      rw [value.head?_sign unsigned]
      simp [ordinary.isNaN]
  | exponential ordinary digit =>
      rw [List.append_assoc, List.cons_append, value.head?_sign (isDigit_minus digit _)]
      simp [ordinary.isNaN]

namespace Ordinary

variable {power : Int} {rounded digits : Nat}

/-- From the least to the greatest number, after rounding to six digits. -/
theorem power_range (ordinary : value.Ordinary)
    (rounds : Ratio.Rounds 5 |value.toRat| power rounded) :
    -324 ≤ (Ratio.carried 5 rounded power).2 ∧ (Ratio.carried 5 rounded power).2 ≤ 308 := by
  have number : |value.toRat| = (Binary.ofBits value.magnitude).toRat := by
    rw [ordinary.abs_toRat, Value.binary, Binary.toRat_toRatio]
  have least := Binary.ofBits_strictMono.monotone (Nat.one_le_iff_ne_zero.mpr ordinary.nonzero)
  have most := Binary.ofBits_strictMono ordinary.finite
  simp only [← number, Binary.ofBits_one, Binary.ofBits_infinity] at least most
  have small : (10 : ℚ) ^ (-324 : Int) ≤ 2 ^ (-1074 : Int) :=
    Ratio.zpow_neg_le 1074 324 (by decide +kernel)
  -- The numbers end below twice the last power, which leaves no carry into the next one.
  have large : (2 : ℚ) ^ (1024 : Int) ≤ Ratio.atPower 5 (2 * 10 ^ 5) 308 :=
    Ratio.zpow_le_atPower 1024 308 (by decide +kernel)
  exact ⟨rounds.carried_least (small.trans least),
    rounds.carried_most (by norm_num) (by norm_num) (most.le.trans large)⟩

theorem shape_plain (ordinary : value.Ordinary) (positive : 0 < digits)
    (six : (Nat.toDigits 10 digits).length = 6) (places : Nat) (few : places ≤ 9) :
    let text := trimFraction
      (value.sign ++ pointed places ((Nat.toDigits 10 digits).leftpad (places + 1) '0'))
    value.Shape text ∧ text.length ≤ 13 := by
  have all := Numeral.allDigits_toDigits digits
  have front := Numeral.whole_leftpad all (Numeral.head?_toDigits digits positive) places
  have width : ((Nat.toDigits 10 digits).leftpad (places + 1) '0').length =
      max (places + 1) (Nat.toDigits 10 digits).length := List.length_leftpad
  obtain ⟨fraction, behind, back, short, trimmed, cut⟩ :=
    Numeral.trimFraction_pointed value.isNegative (Numeral.allDigits_leftpad (places + 1) _ all)
      places
  rw [← sign] at trimmed
  simp only [trimmed]
  constructor
  · exact .positional ordinary front back ((Numeral.length_significant _ cut).trans six.le)
  · refine (value.length_sign _).trans ?_
    simp only [List.length_append, List.length_take]
    omega

theorem shape_scientific (ordinary : value.Ordinary) (positive : 0 < digits)
    (six : (Nat.toDigits 10 digits).length = 6) (outside : power < -4 ∨ 6 ≤ power)
    (least : -324 ≤ power) (most : power ≤ 308) :
    let text := trimFraction (value.sign ++ pointed 5 (Nat.toDigits 10 digits)) ++
      'e' :: (if power < 0 then '-' else '+') :: (Nat.toDigits 10 power.natAbs).leftpad 2 '0'
    value.Shape text ∧ text.length ≤ 13 := by
  have all := Numeral.allDigits_toDigits digits
  have leads := Numeral.head?_toDigits digits positive
  have width : ((Nat.toDigits 10 power.natAbs).leftpad 2 '0').length =
      max 2 (Nat.toDigits 10 power.natAbs).length := List.length_leftpad
  have three : (Nat.toDigits 10 power.natAbs).length ≤ 3 :=
    (Nat.length_toDigits_le_iff (by decide) (by decide)).mpr (by omega)
  obtain ⟨fraction, behind, back, short, trimmed, cut⟩ :=
    Numeral.trimFraction_pointed value.isNegative all 5
  rw [← sign] at trimmed
  simp only [trimmed]
  obtain ⟨first, rest, written⟩ := List.exists_cons_of_ne_nil
    (List.ne_nil_of_length_pos (l := Nat.toDigits 10 digits) (by omega))
  have one : (Nat.toDigits 10 digits).take ((Nat.toDigits 10 digits).length - 5) = [first] := by
    rw [six, written]
    rfl
  rw [one] at cut ⊢
  constructor
  · refine .exponential ordinary (all first ?_) ?_ back short ?_ outside least most
    · rw [written]
      exact List.mem_cons_self
    · intro zero
      rw [written, zero] at leads
      exact leads rfl
    · exact (Numeral.length_significant 0 cut).trans six.le
  · rw [List.append_assoc]
    refine (value.length_sign _).trans ?_
    simp only [List.length_append, List.length_cons, List.length_nil]
    omega

end Ordinary

theorem generalChars_shape (value : Value) :
    value.Shape value.generalChars ∧ value.generalChars.length ≤ 13 := by
  rcases value.kinds with nan | infinite | zero | ordinary
  · rw [generalChars_nan nan]
    exact ⟨.nan nan, by decide⟩
  · rw [generalChars_infinite infinite]
    exact ⟨.infinite infinite, (value.length_sign _).trans (by decide)⟩
  · rw [generalChars_zero zero]
    exact ⟨.zero zero, (value.length_sign _).trans (by decide)⟩
  · have rounds := ordinary.rounds
    have text := ordinary.generalChars_eq rounds
    have six := rounds.carried_length
    have positive := (Nat.pow_pos (by decide)).trans_le rounds.carried_bounds.1
    obtain ⟨least, most⟩ := ordinary.power_range rounds
    rw [text]
    generalize Ratio.carried 5 _ _ = written at *
    by_cases plain : -4 ≤ written.2 ∧ written.2 < 6
    · simp only [if_pos plain]
      exact ordinary.shape_plain positive six _ (by omega)
    · simp only [if_neg plain]
      exact ordinary.shape_scientific positive six (by omega) least most

/-- The text of every value has a shape of its kind. It begins with a minus sign exactly if the sign
bit of a number is set, and has thirteen characters at most. -/
theorem generalChars_canonical (value : Value) :
    value.Shape value.generalChars ∧
      (value.generalChars.head? = some '-' ↔ value.isNaN = false ∧ value.isNegative = true) ∧
      value.generalChars.length ≤ 13 := by
  obtain ⟨shape, short⟩ := value.generalChars_shape
  exact ⟨shape, shape.minus, short⟩

end Value

end MeteredChunk
