import MeteredChunk.Proofs.Decimal.Ratio
import Mathlib.Data.List.DropRight
import Mathlib.Data.List.Induction

/-!
Numerals as rational numbers. Padding digits in front with zeros and trimming the zeros
of a fraction change the text of a numeral, and not the number that it is read as.
-/

namespace MeteredChunk

namespace Numeral

def value? (chars : List Char) : Option ℚ :=
  (decimal? (splitSign chars).2).map fun decimal =>
    (if (splitSign chars).1 then -1 else 1) * decimal.coefficient * 10 ^ decimal.exponent

def AllDigits (chars : List Char) : Prop := ∀ digit ∈ chars, digit.isDigit = true

theorem natOfDigits_eq (digits : List Char) : natOfDigits digits = Nat.ofDigitChars 10 digits 0 := by
  simp only [natOfDigits, Nat.ofDigitChars, Nat.mul_comm]

theorem natOfDigits_append (front back : List Char) :
    natOfDigits (front ++ back) = natOfDigits front * 10 ^ back.length + natOfDigits back := by
  simp only [natOfDigits_eq]
  rw [Nat.ofDigitChars_append, Nat.ofDigitChars_eq_ofDigitChars_zero, Nat.mul_comm]

theorem natOfDigits_zeros (count : Nat) : natOfDigits (List.replicate count '0') = 0 := by
  rw [natOfDigits_eq, Nat.ofDigitChars_replicate_zero, Nat.mul_zero]

theorem natOfDigits_toDigits (n : Nat) : natOfDigits (Nat.toDigits 10 n) = n := by
  rw [natOfDigits_eq, Nat.ofDigitChars_ten_toDigits]

theorem natOfDigits_leftpad (count : Nat) (digits : List Char) :
    natOfDigits (digits.leftpad count '0') = natOfDigits digits := by
  rw [List.leftpad, natOfDigits_append, natOfDigits_zeros, Nat.zero_mul, Nat.zero_add]

theorem allDigits_toDigits (n : Nat) : AllDigits (Nat.toDigits 10 n) := fun _ member =>
  Nat.isDigit_of_mem_toDigits (by decide) (by decide) member

theorem allDigits_leftpad (count : Nat) (digits : List Char) (all : AllDigits digits) :
    AllDigits (digits.leftpad count '0') := by
  intro digit member
  rcases List.mem_append.mp member with zero | rest
  · rw [List.eq_of_mem_replicate zero]
    decide
  · exact all digit rest

theorem nat?_leftpad (count n : Nat) : nat? ((Nat.toDigits 10 n).leftpad count '0') = some n := by
  have all := allDigits_leftpad count _ (allDigits_toDigits n)
  have filled : (Nat.toDigits 10 n).leftpad count '0' ≠ [] :=
    List.append_ne_nil_of_right_ne_nil _ Nat.toDigits_ne_nil
  rw [nat?, if_pos ⟨filled, List.all_eq_true.mpr all⟩, natOfDigits_leftpad, natOfDigits_toDigits]

theorem int?_signed (power : Int) (width : Nat) :
    int? ((if power < 0 then '-' else '+') :: (Nat.toDigits 10 power.natAbs).leftpad width '0') =
      some power := by
  have digits := nat?_leftpad width power.natAbs
  split_ifs with negative
  · simp only [int?, splitSign, digits]
    simp [abs_of_neg negative]
  · simp only [int?, splitSign, digits]
    simp [abs_of_nonneg (not_lt.mp negative)]

/-- What may follow the digits of a numeral: nothing, or a power of ten. -/
theorem exponent?_stops (rest : List Char) (power : Int) (tail : exponent? rest = some power) :
    rest.takeWhile Char.isDigit = [] ∧ rest.dropWhile Char.isDigit = rest ∧
      splitFraction rest = ([], rest) := by
  cases rest with
  | nil => exact ⟨rfl, rfl, rfl⟩
  | cons mark rest =>
      simp only [exponent?] at tail
      split_ifs at tail with marks
      rcases marks with rfl | rfl <;> exact ⟨rfl, rfl, rfl⟩

section Digits
variable {whole fraction rest : List Char} {power : Int}

theorem decimal?_whole (all : AllDigits whole) (filled : whole ≠ [])
    (tail : exponent? rest = some power) :
    decimal? (whole ++ rest) = some ⟨natOfDigits whole, power⟩ := by
  obtain ⟨takes, drops, splits⟩ := exponent?_stops rest power tail
  unfold decimal?
  rw [List.takeWhile_append_of_pos all, List.dropWhile_append_of_pos all, takes, drops, splits]
  simp [filled, tail]

theorem decimal?_fraction (all : AllDigits whole) (allToo : AllDigits fraction)
    (filled : whole ≠ []) (tail : exponent? rest = some power) :
    decimal? (whole ++ '.' :: fraction ++ rest) =
      some ⟨natOfDigits (whole ++ fraction), power - fraction.length⟩ := by
  obtain ⟨takes, drops, -⟩ := exponent?_stops rest power tail
  have point : ('.' :: (fraction ++ rest)).takeWhile Char.isDigit = [] := rfl
  have pointToo : ('.' :: (fraction ++ rest)).dropWhile Char.isDigit =
      '.' :: (fraction ++ rest) := rfl
  unfold decimal?
  rw [List.append_assoc, List.cons_append, List.takeWhile_append_of_pos all,
    List.dropWhile_append_of_pos all, point, pointToo, splitFraction,
    List.takeWhile_append_of_pos allToo, List.dropWhile_append_of_pos allToo, takes, drops]
  simp [filled, tail]

end Digits

end Numeral

/-! ## Trimming -/

section Trimming
variable {front fraction : List Char}

theorem trimEnd_concat (mark last : Char) (chars : List Char) :
    trimEnd mark (chars ++ [last]) = if last = mark then trimEnd mark chars else chars ++ [last] := by
  have step := List.rdropWhile_concat (fun char => decide (char = mark)) chars last
  simpa [List.rdropWhile, trimEnd] using step

theorem trimEnd_stop (mark stop : Char) (front back : List Char) (other : stop ≠ mark) :
    trimEnd mark (front ++ stop :: back) = front ++ stop :: trimEnd mark back := by
  induction back using List.reverseRecOn with
  | nil =>
      rw [trimEnd_concat, if_neg other]
      rfl
  | append_singleton back last ih =>
      rw [← List.cons_append, ← List.append_assoc, trimEnd_concat, trimEnd_concat, ih]
      split_ifs <;> simp

theorem trimEnd_marks (mark : Char) (chars : List Char) :
    ∃ count, chars = trimEnd mark chars ++ List.replicate count mark := by
  induction chars using List.reverseRecOn with
  | nil => exact ⟨0, rfl⟩
  | append_singleton chars last ih =>
      rw [trimEnd_concat]
      split_ifs with same
      · obtain ⟨count, whole⟩ := ih
        refine ⟨count + 1, ?_⟩
        rw [List.replicate_succ', ← List.append_assoc, ← whole, same]
      · exact ⟨0, (List.append_nil _).symm⟩

theorem trimEnd_last (mark : Char) (chars : List Char) :
    (trimEnd mark chars).getLast? ≠ some mark := by
  induction chars using List.reverseRecOn with
  | nil =>
      intro last
      cases last
  | append_singleton chars last ih =>
      rw [trimEnd_concat]
      split_ifs with same
      · exact ih
      · simpa using same

theorem trimEnd_none (mark : Char) (chars : List Char) (absent : mark ∉ chars) :
    trimEnd mark chars = chars := by
  induction chars using List.reverseRecOn with
  | nil => rfl
  | append_singleton chars last ih =>
      have other : last ≠ mark := fun same => absent (by simp [same])
      rw [trimEnd_concat, if_neg other]

theorem mem_trimFraction {char : Char} (chars : List Char) (member : char ∈ trimFraction chars) :
    char ∈ chars := by
  have inside (mark : Char) (chars : List Char) (member : char ∈ trimEnd mark chars) :
      char ∈ chars := by
    obtain ⟨count, whole⟩ := trimEnd_marks mark chars
    rw [whole]
    exact List.mem_append_left _ member
  unfold trimFraction at member
  split_ifs at member
  · exact inside _ _ (inside _ _ member)
  · exact member

theorem trimFraction_whole (absent : '.' ∉ front) : trimFraction front = front := by
  rw [trimFraction, if_neg absent]

/-- The zeros at the end of a fraction go, and with all its digits the point. -/
theorem trimFraction_fraction (absent : '.' ∉ front) (absentToo : '.' ∉ fraction) :
    ∃ kept count, fraction = kept ++ List.replicate count '0' ∧ kept.getLast? ≠ some '0' ∧
      trimFraction (front ++ '.' :: fraction) =
        if kept = [] then front else front ++ '.' :: kept := by
  obtain ⟨count, whole⟩ := trimEnd_marks '0' fraction
  refine ⟨_, count, whole, trimEnd_last '0' fraction, ?_⟩
  rw [trimFraction, if_pos (by simp), trimEnd_stop _ _ _ _ (by decide)]
  split_ifs with empty
  · rw [empty, trimEnd_concat, if_pos rfl, trimEnd_none _ _ absent]
  · have pointless : '.' ∉ trimEnd '0' fraction := fun member =>
      absentToo (whole ▸ List.mem_append_left _ member)
    obtain ⟨kept, last, same⟩ := List.eq_nil_or_concat (trimEnd '0' fraction) |>.resolve_left empty
    rw [List.concat_eq_append] at same
    rw [same] at pointless ⊢
    have other : last ≠ '.' := fun point => pointless (by simp [point])
    rw [← List.cons_append, ← List.append_assoc, trimEnd_concat, if_neg other]

theorem trimFraction_minus (chars : List Char) :
    trimFraction ('-' :: chars) = '-' :: trimFraction chars := by
  have minus (mark : Char) (other : '-' ≠ mark) (chars : List Char) :
      trimEnd mark ('-' :: chars) = '-' :: trimEnd mark chars :=
    trimEnd_stop mark '-' [] chars other
  unfold trimFraction
  by_cases point : '.' ∈ chars
  · rw [if_pos (List.mem_cons_of_mem _ point), if_pos point, minus '0' (by decide),
      minus '.' (by decide)]
  · rw [if_neg (by simpa using point), if_neg point]

end Trimming

namespace Numeral

variable {whole fraction rest : List Char} {power : Int}

theorem AllDigits.absent {chars : List Char} (all : AllDigits chars) (mark : Char)
    (other : mark.isDigit = false) : mark ∉ chars := fun member =>
  Bool.noConfusion ((all mark member).symm.trans other)

theorem AllDigits.pointless {chars : List Char} (all : AllDigits chars) (negative : Bool) :
    '.' ∉ (if negative then ['-'] else []) ++ chars := by
  have absent := all.absent '.' (by decide)
  cases negative <;> simp [absent]

theorem AllDigits.take {digits : List Char} (all : AllDigits digits) (count : Nat) :
    AllDigits (digits.take count) := fun digit member => all digit (List.mem_of_mem_take member)

theorem AllDigits.drop {digits : List Char} (all : AllDigits digits) (count : Nat) :
    AllDigits (digits.drop count) := fun digit member => all digit (List.mem_of_mem_drop member)

theorem value?_sign (negative : Bool) (all : AllDigits whole) (filled : whole ≠ [])
    (decimal : Decimal) (read : decimal? (whole ++ rest) = some decimal) :
    value? ((if negative then ['-'] else []) ++ (whole ++ rest)) =
      some ((if negative then -1 else 1) * decimal.coefficient * 10 ^ decimal.exponent : ℚ) := by
  cases negative with
  | true => simp [value?, splitSign, read]
  | false =>
      cases whole with
      | nil => exact absurd rfl filled
      | cons first digits =>
          have minus : first ≠ '-' := fun same =>
            all.absent '-' (by decide) (same ▸ List.mem_cons_self)
          have plus : first ≠ '+' := fun same =>
            all.absent '+' (by decide) (same ▸ List.mem_cons_self)
          have unsigned : splitSign (first :: digits ++ rest) = (false, first :: digits ++ rest) := by
            unfold splitSign
            split <;> simp_all
          simp only [if_neg Bool.false_ne_true, List.nil_append, value?, unsigned, read,
            Option.map_some]

theorem decimal?_trimmed (all : AllDigits whole) (allToo : AllDigits fraction)
    (filled : whole ≠ []) (tail : exponent? rest = some power) :
    decimal? (whole ++ ((if fraction = [] then [] else '.' :: fraction) ++ rest)) =
      some ⟨natOfDigits (whole ++ fraction), power - fraction.length⟩ := by
  split_ifs with empty
  · rw [empty, List.nil_append, decimal?_whole all filled tail]
    simp
  · rw [← List.append_assoc, decimal?_fraction all allToo filled tail]

theorem natOfDigits_kept (digits kept : List Char) (count : Nat) :
    natOfDigits (digits ++ (kept ++ List.replicate count '0')) =
      natOfDigits (digits ++ kept) * 10 ^ count := by
  rw [← List.append_assoc, natOfDigits_append, natOfDigits_zeros, List.length_replicate,
    Nat.add_zero]

/-- Trimming the zeros of a fraction leaves its number. -/
theorem value?_fraction (negative : Bool) (all : AllDigits whole) (allToo : AllDigits fraction)
    (filled : whole ≠ []) (tail : exponent? rest = some power) :
    value? (trimFraction ((if negative then ['-'] else []) ++ whole ++ '.' :: fraction) ++ rest) =
      some ((if negative then -1 else 1) * natOfDigits (whole ++ fraction) *
        10 ^ (power - fraction.length) : ℚ) := by
  obtain ⟨kept, count, same, -, trimmed⟩ :=
    trimFraction_fraction (all.pointless negative) (allToo.absent '.' (by decide))
  have keptDigits : AllDigits kept := fun digit member =>
    allToo digit (same ▸ List.mem_append_left _ member)
  have text : trimFraction ((if negative then ['-'] else []) ++ whole ++ '.' :: fraction) ++ rest =
      (if negative then ['-'] else []) ++
        (whole ++ ((if kept = [] then [] else '.' :: kept) ++ rest)) := by
    rw [trimmed]
    by_cases empty : kept = [] <;> simp [empty]
  -- Each zero that is trimmed takes a place and a factor of ten along.
  have shift : (10 : ℚ) ^ (power - kept.length) = 10 ^ count * 10 ^ (power - fraction.length) := by
    rw [same, List.length_append, List.length_replicate, ← zpow_natCast, ← zpow_add₀ (by norm_num)]
    congr 1
    push_cast
    ring
  rw [text, value?_sign negative all filled _ (decimal?_trimmed all keptDigits filled tail), same,
    natOfDigits_kept, ← same]
  simp only [shift]
  push_cast
  ring_nf

/-- Digits with a point among them read as the number of the digits, scaled, however many zeros
are trimmed. -/
theorem value?_trimmed (negative : Bool) (places : Nat) (digits : List Char)
    (all : AllDigits digits) (longer : places < digits.length)
    (tail : exponent? rest = some power) :
    value? (trimFraction ((if negative then ['-'] else []) ++ pointed places digits) ++ rest) =
      some ((if negative then -1 else 1) * natOfDigits digits * 10 ^ (power - places) : ℚ) := by
  by_cases zero : places = 0
  · have filled : digits ≠ [] := List.ne_nil_of_length_pos (by omega)
    rw [pointed, if_pos zero, trimFraction_whole (all.pointless negative), List.append_assoc,
      value?_sign negative all filled _ (decimal?_whole all filled tail), zero]
    simp
  · have behind : (digits.drop (digits.length - places)).length = places := by
      rw [List.length_drop]
      omega
    have front : digits.take (digits.length - places) ≠ [] := by
      apply List.ne_nil_of_length_pos
      rw [List.length_take]
      omega
    rw [pointed, if_neg zero, ← List.append_assoc,
      value?_fraction negative (all.take _) (all.drop _) front tail, List.take_append_drop,
      behind]

end Numeral

end MeteredChunk
