/-!
Decimal and binary64 numbers, both held exactly: rounding, the shortest digits of a
number, digits of a given number of places, and reading numerals.
-/

namespace MeteredChunk

/-! ## Fractions

Non-negative fractions with a positive denominator, not reduced: scaling by
powers of a base, the power a fraction lies at, and rounding to whole numbers.
-/

/-- The exponent of the largest power of the base that is at most `n`, and zero for zero. -/
def floorLog (base n : Nat) : Nat := search (n.log2 + 1) n
where
  search : Nat → Nat → Nat
    | 0, _ => 0
    | fuel + 1, n => if n < base then 0 else search fuel (n / base) + 1

/-- The exponent of the smallest power of the base that is at least `n`. -/
def ceilLog (base n : Nat) : Nat := if n ≤ 1 then 0 else floorLog base (n - 1) + 1

structure Ratio where
  num : Nat
  den : Nat

namespace Ratio

def scale (ratio : Ratio) (base : Nat) (power : Int) : Ratio :=
  ⟨ratio.num * base.pow power.toNat, ratio.den * base.pow (-power).toNat⟩

/-- The `k` with `base ^ k ≤ ratio < base ^ (k + 1)`, for a positive fraction. -/
def power (ratio : Ratio) (base : Nat) : Int :=
  if ratio.den ≤ ratio.num then floorLog base (ratio.num / ratio.den)
  else -(ceilLog base ((ratio.den + ratio.num - 1) / ratio.num) : Int)

def compare (left right : Ratio) : Ordering :=
  Ord.compare (left.num * right.den) (right.num * left.den)

def floor (ratio : Ratio) : Nat := ratio.num / ratio.den

def roundHalfEven (ratio : Ratio) : Nat :=
  let below := ratio.floor
  match Ord.compare (2 * (ratio.num % ratio.den)) ratio.den with
  | .lt => below
  | .gt => below + 1
  | .eq => if below % 2 = 0 then below else below + 1

end Ratio

/-! ## Decimals

Decimal numbers and how they are written. `leading` is the power of ten that
the first digit counts. A style fixes which numbers are written plainly and
how the others show their exponent; zeros at the end of the digits carry
nothing and are never written, except where a plain whole number needs them.
-/

/-- The number `coefficient * 10 ^ exponent`. -/
structure Decimal where
  coefficient : Nat
  exponent : Int

namespace Decimal

def toRatio (decimal : Decimal) : Ratio :=
  (Ratio.mk decimal.coefficient 1).scale 10 decimal.exponent

def digits (decimal : Decimal) : List Char := Nat.toDigits 10 decimal.coefficient

def leading (decimal : Decimal) : Int := decimal.digits.length - 1 + decimal.exponent

def significant (decimal : Decimal) : List Char :=
  match decimal.digits with
  | [] => []
  | first :: rest => first :: (rest.reverse.dropWhile (· = '0')).reverse

end Decimal

structure DecimalStyle where
  /-- The least power that the first digit of a plainly written number may count. -/
  plainFrom : Int
  /-- The first power that is too large for it. -/
  plainBelow : Int
  /-- What follows a whole number that is written plainly. -/
  whole : List Char
  /-- The sign of an exponent that is not negative. -/
  plus : List Char
  exponentWidth : Nat

namespace DecimalStyle

def plain (style : DecimalStyle) (digits : List Char) (leading : Int) : List Char :=
  if leading < 0 then '0' :: '.' :: List.replicate (-leading - 1).toNat '0' ++ digits
  else
    let places := leading.toNat + 1
    if digits.length ≤ places then
      digits ++ List.replicate (places - digits.length) '0' ++ style.whole
    else digits.take places ++ '.' :: digits.drop places

def exponent (style : DecimalStyle) (power : Int) : List Char :=
  let digits := Nat.toDigits 10 power.natAbs
  'e' :: (if power < 0 then ['-'] else style.plus) ++
    List.replicate (style.exponentWidth - digits.length) '0' ++ digits

def scientific (style : DecimalStyle) (digits : List Char) (leading : Int) : List Char :=
  match digits with
  | [] => []
  | [digit] => digit :: style.exponent leading
  | digit :: rest => digit :: '.' :: rest ++ style.exponent leading

def write (style : DecimalStyle) (decimal : Decimal) : List Char :=
  let digits := decimal.significant
  if style.plainFrom ≤ decimal.leading ∧ decimal.leading < style.plainBelow then
    style.plain digits decimal.leading
  else style.scientific digits decimal.leading

end DecimalStyle

/-! ## Binary numbers

Finite binary64 numbers without their sign, and the way from decimals to them.
The fraction field and the exponent field follow each other, so adding them as
one number lets a significand that rounds up to the next power of two carry
into the exponent by itself.
-/

/-- The number `significand * 2 ^ exponent`. -/
structure Binary where
  significand : Nat
  exponent : Int

namespace Binary

def leastExponent : Int := -1074

/-- The first pattern that is no finite number. -/
def infinityBits : Nat := 2047 <<< 52

def ofBits (bits : Nat) : Binary :=
  if bits >>> 52 = 0 then ⟨bits, leastExponent⟩
  else ⟨1 <<< 52 + bits % 1 <<< 52, leastExponent + (bits >>> 52 : Nat) - 1⟩

def toRatio (binary : Binary) : Ratio :=
  (Ratio.mk binary.significand 1).scale 2 binary.exponent

/-- The pattern of the number nearest to a fraction, a half going to even; past the largest
number it is infinity. -/
def nearestBits (ratio : Ratio) : Nat :=
  if ratio.num = 0 then 0
  else
    let exponent := max (ratio.power 2 - 52) leastExponent
    let significand := (ratio.scale 2 (-exponent)).roundHalfEven
    min ((exponent - leastExponent).toNat <<< 52 + significand) infinityBits

/-- Decimals far outside the range are settled by their leading power alone. -/
def bitsOfDecimal (decimal : Decimal) : Nat :=
  if decimal.coefficient = 0 then 0
  else if 400 < decimal.leading then infinityBits
  else if decimal.leading < -400 then 0
  else nearestBits decimal.toRatio

end Binary

/-! ## Shortest digits

The fewest digits that identify a binary64 number. The fractions that round to
the number reach halfway to its neighbours on both sides, and the ends belong to
them exactly when the significand is even. For one digit, two digits and so on,
the two decimals next to the number are tried; the first grid with one inside
wins, and of two the nearer one is taken. Seventeen digits always suffice.
-/

inductive Tie where
  | up
  | even

namespace Binary

/-- Below a power of two the next smaller number is half as far away. -/
def lowerEnd (binary : Binary) : Ratio :=
  let narrow := binary.significand = 1 <<< 52 ∧ leastExponent < binary.exponent
  (Ratio.mk (4 * binary.significand - if narrow then 1 else 2) 1).scale 2 (binary.exponent - 2)

def upperEnd (binary : Binary) : Ratio :=
  (Ratio.mk (4 * binary.significand + 2) 1).scale 2 (binary.exponent - 2)

def identifiedBy (binary : Binary) (decimal : Decimal) : Bool :=
  let closed := binary.significand % 2 = 0
  let below := binary.lowerEnd.compare decimal.toRatio
  let above := decimal.toRatio.compare binary.upperEnd
  (below = .lt ∨ closed ∧ below = .eq) ∧ (above = .lt ∨ closed ∧ above = .eq)

/-- The nearest decimal of so many digits that identifies the number, if there is one. -/
def identify? (binary : Binary) (tie : Tie) (digits : Nat) : Option Decimal :=
  let value := binary.toRatio
  let exponent := value.power 10 + 1 - digits
  let below := (value.scale 10 (-exponent)).floor
  let low : Decimal := ⟨below, exponent⟩
  let high : Decimal := ⟨below + 1, exponent⟩
  match binary.identifiedBy low, binary.identifiedBy high with
  | false, false => none
  | true, false => some low
  | false, true => some high
  | true, true =>
      match value.compare ((Ratio.mk (2 * below + 1) 2).scale 10 exponent), tie with
      | .lt, _ => some low
      | .gt, _ => some high
      | .eq, .up => some high
      | .eq, .even => some (if below % 2 = 0 then low else high)

def exactly (binary : Binary) : Decimal :=
  ⟨binary.significand * Nat.pow 2 binary.exponent.toNat * Nat.pow 5 (-binary.exponent).toNat,
    min binary.exponent 0⟩

def shortest (binary : Binary) (tie : Tie) : Decimal :=
  if binary.significand = 0 then ⟨0, 0⟩
  else
    ((List.range 17).findSome? fun count => binary.identify? tie (count + 1)).getD binary.exactly

end Binary

/-! ## Rounded digits

Fractions written with a given number of places behind the point, plainly or with
one digit in front of it and a power of ten. Both round on their own, a half going
to even, and both keep zeros at the end until they are trimmed.
-/

def pointed (places : Nat) (digits : List Char) : List Char :=
  if places = 0 then digits
  else digits.take (digits.length - places) ++ '.' :: digits.drop (digits.length - places)

def trimEnd (mark : Char) (chars : List Char) : List Char :=
  (chars.reverse.dropWhile (· = mark)).reverse

/-- Without the zeros at the end of a fraction, and without the point where no digit is left
behind it. -/
def trimFraction (chars : List Char) : List Char :=
  if '.' ∈ chars then trimEnd '.' (trimEnd '0' chars) else chars

namespace Ratio

def fixed (places : Nat) (ratio : Ratio) : List Char :=
  let digits := Nat.toDigits 10 (ratio.scale 10 places).roundHalfEven
  pointed places (digits.leftpad (places + 1) '0')

/-- The digits of a positive fraction, and the power of ten that the first one counts. Rounding
up to the next power of ten takes it along. -/
def scientific (places : Nat) (ratio : Ratio) : List Char × Int :=
  let power := ratio.power 10
  let rounded := (ratio.scale 10 (places - power)).roundHalfEven
  if rounded = Nat.pow 10 (places + 1) then
    (pointed places (Nat.toDigits 10 (Nat.pow 10 places)), power + 1)
  else (pointed places (Nat.toDigits 10 rounded), power)

end Ratio

end MeteredChunk

namespace MeteredChunk.Numeral

/-! ## Numerals

Numerals as people type them: digits with at most one point and at least one
digit, and an optional power of ten behind an `e` of either case. Whole numbers
are digits alone. A sign may stand before either.
-/

def natOfDigits (digits : List Char) : Nat :=
  digits.foldl (fun total digit => total * 10 + (digit.toNat - '0'.toNat)) 0

def nat? (chars : List Char) : Option Nat :=
  if chars ≠ [] ∧ chars.all Char.isDigit then some (natOfDigits chars) else none

def splitSign : List Char → Bool × List Char
  | '-' :: rest => (true, rest)
  | '+' :: rest => (false, rest)
  | chars => (false, chars)

def int? (chars : List Char) : Option Int :=
  let (negative, digits) := splitSign chars
  (nat? digits).map fun n => if negative then -(n : Int) else n

/-- The power of ten at the end of a numeral, zero if there is none. -/
def exponent? : List Char → Option Int
  | [] => some 0
  | mark :: rest => if mark = 'e' ∨ mark = 'E' then int? rest else none

def splitFraction : List Char → List Char × List Char
  | '.' :: rest => (rest.takeWhile Char.isDigit, rest.dropWhile Char.isDigit)
  | chars => ([], chars)

def decimal? (chars : List Char) : Option Decimal :=
  let whole := chars.takeWhile Char.isDigit
  let (fraction, rest) := splitFraction (chars.dropWhile Char.isDigit)
  if whole = [] ∧ fraction = [] then none
  else (exponent? rest).map fun power => ⟨natOfDigits (whole ++ fraction), power - fraction.length⟩

end MeteredChunk.Numeral
