import MeteredChunk.Decimal
import MeteredChunk.Store

/-!
Constants and the pools that number them.
-/

namespace MeteredChunk

/-! ## Values

Values are binary64 numbers, kept as their 64 bits so that zeros keep their
sign and NaNs their payload. Equality and order are those of the numbers: the
two zeros are equal, and a NaN is neither equal to nor ordered against anything.
A value is written in three ways: with six significant digits for people, and
with the fewest digits that identify it for inspection and for JSON.
-/

structure Value where
  bits : UInt64
  deriving DecidableEq

namespace Value

def isNegative (value : Value) : Bool := decide (1 <<< 63 ≤ value.bits.toNat)

def magnitude (value : Value) : Nat := value.bits.toNat % 1 <<< 63

def isNaN (value : Value) : Bool := decide (Binary.infinityBits < value.magnitude)

def isInfinite (value : Value) : Bool := value.magnitude == Binary.infinityBits

/-- Patterns of one sign are ordered like their numbers; both zeros have rank zero. -/
def rank (value : Value) : Int :=
  if value.isNegative then -(value.magnitude : Int) else value.magnitude

def equals (left right : Value) : Bool :=
  !left.isNaN && !right.isNaN && left.rank == right.rank

def compare? (left right : Value) : Option Ordering :=
  if left.isNaN || right.isNaN then none else some (compare left.rank right.rank)

def ofMagnitude (negative : Bool) (magnitude : Nat) : Value :=
  ⟨UInt64.ofNat (if negative then 1 <<< 63 + magnitude else magnitude)⟩

def ofNat (n : Nat) : Value := ofMagnitude false (Binary.nearestBits ⟨n, 1⟩)

def sign (value : Value) : List Char := if value.isNegative then ['-'] else []

def binary (value : Value) : Binary := Binary.ofBits value.magnitude

/-! Six significant digits, plainly from 0.0001 to below a million. -/

def significantDigits : Nat := 6

/-- The power of ten is taken after rounding; a plain number is then rounded once more, at the
place that the power tells. -/
def generalChars (value : Value) : List Char :=
  if value.isNaN then ['n', 'a', 'n']
  else if value.isInfinite then value.sign ++ ['i', 'n', 'f']
  else if value.magnitude = 0 then value.sign ++ ['0']
  else
    let ratio := value.binary.toRatio
    let (mantissa, power) := ratio.scientific (significantDigits - 1)
    if -4 ≤ power ∧ power < significantDigits then
      let places := ((significantDigits : Int) - 1 - power).toNat
      trimFraction (value.sign ++ ratio.fixed places)
    else
      trimFraction (value.sign ++ mantissa) ++ 'e' :: (if power < 0 then '-' else '+') ::
        (Nat.toDigits 10 power.natAbs).leftpad 2 '0'

def general (value : Value) : String := String.ofList value.generalChars

/-! Shortest digits, plainly up to sixteen places before the point. -/

def inspectStyle : DecimalStyle where
  plainFrom := -4
  plainBelow := 16
  whole := ['.', '0']
  plus := []
  exponentWidth := 1

def jsonStyle : DecimalStyle where
  plainFrom := -5
  plainBelow := 16
  whole := ['.', '0']
  plus := ['+']
  exponentWidth := 1

def inspectNumber (value : Value) : String :=
  if value.isNaN then "NaN"
  else if value.isInfinite then String.ofList value.sign ++ "inf"
  else String.ofList (value.sign ++ inspectStyle.write (value.binary.shortest .up))

def inspect (value : Value) : String := Inspect.wrapped "Value" value.inspectNumber

/-- JSON has no numbers beyond the finite ones. -/
def toJson (value : Value) : Json :=
  if value.isNaN || value.isInfinite then .null
  else .number (String.ofList (value.sign ++ jsonStyle.write (value.binary.shortest .even)))

end Value

instance : Element Value := ⟨8, 8, ⟨0⟩, Value.equals, Value.inspect⟩

/-! ## Pools

A pool numbers constants in the order they come in. Equal constants get
numbers of their own.
-/

structure Pool where
  values : Store Value := {}

namespace Pool

def size (pool : Pool) : Nat := pool.values.count

def capacity (pool : Pool) : Nat := pool.values.capacity

def isEmpty (pool : Pool) : Bool := pool.values.isEmpty

def get? (pool : Pool) (index : Nat) : Except Fault (Option Value) := pool.values.get? index

def items (pool : Pool) : Except Fault (List Value) := pool.values.items

def add (value : Value) (heap : Heap) : Pool → Effect Pool Nat
  | ⟨values⟩ =>
      ((values.push value heap).within Pool.mk).andThen
        fun _ pool heap => .done (pool.size - 1) pool heap

def addAll (pool : Pool) (heap : Heap) : List Value → Effect Pool (List Nat)
  | [] => .done [] pool heap
  | value :: rest =>
      (pool.add value heap).andThen fun number pool heap =>
        (pool.addAll heap rest).map (number :: ·)

def free (heap : Heap) : Pool → Effect Pool Unit
  | ⟨values⟩ => (values.free heap).within Pool.mk

def same (left right : Pool) : Except Fault Bool := left.values.same right.values

def inspect (pool : Pool) : Except Fault String := do
  return Inspect.record "ValuePool" [("values", ← pool.values.inspect)]

end Pool

end MeteredChunk
