import MeteredChunk.Value

/-!
A chunk: a stream of code units and a pool of constants, both stored on a heap.
-/

namespace MeteredChunk

/-! ## Code units

One byte of code together with the source line it comes from.
-/

structure CodeUnit where
  byte : UInt8
  line : UInt32
  deriving DecidableEq

namespace CodeUnit

def inspect (unit : CodeUnit) : String :=
  Inspect.record "CodeUnit"
    [("byte", toString unit.byte.toNat), ("line", toString unit.line.toNat)]

def toJson (unit : CodeUnit) : Json :=
  .record [("byte", .integer unit.byte.toNat), ("line", .integer unit.line.toNat)]

end CodeUnit

instance : Element CodeUnit := ⟨8, 4, ⟨0, 0⟩, (· == ·), CodeUnit.inspect⟩

/-! ## Opcodes

The operations of the machine, their codes and their operands.
-/

inductive Opcode where
  /-- Load a constant; the operand is its number in the pool. -/
  | constant
  | ret
  deriving DecidableEq

namespace Opcode

def all : List Opcode := [constant, ret]

def toByte : Opcode → UInt8
  | constant => 0
  | ret => 1

def ofByte? (byte : UInt8) : Option Opcode := all.find? fun opcode => opcode.toByte == byte

def operands : Opcode → Nat
  | constant => 1
  | ret => 0

def label : Opcode → String
  | constant => "Constant"
  | ret => "Return"

def mnemonic : Opcode → String
  | constant => "OP_CONSTANT"
  | ret => "OP_RETURN"

def toJson (opcode : Opcode) : Json := .text opcode.label

def unknownMessage (byte : UInt8) : String := s!"unknown opcode {byte.toNat}"

end Opcode

/-! ## Chunks

A chunk is a stream of code with a pool of constants, both stored on a heap.
The code comes first wherever both take part: it is freed first, compared first
and read first.
-/

structure Chunk where
  code : Store CodeUnit := {}
  constants : Pool := {}

structure Contents where
  units : Array CodeUnit
  constants : Array Value

namespace Contents

def size (contents : Contents) : Nat := contents.units.size

def unitAt? (contents : Contents) (offset : Nat) : Option CodeUnit := contents.units[offset]?

def byteAt? (contents : Contents) (offset : Nat) : Option UInt8 :=
  (contents.unitAt? offset).map CodeUnit.byte

def lineAt? (contents : Contents) (offset : Nat) : Option UInt32 :=
  (contents.unitAt? offset).map CodeUnit.line

def constant? (contents : Contents) (index : UInt8) : Option Value :=
  contents.constants[index.toNat]?

end Contents

namespace Chunk

def size (chunk : Chunk) : Nat := chunk.code.count

def capacity (chunk : Chunk) : Nat := chunk.code.capacity

def isEmpty (chunk : Chunk) : Bool := chunk.code.isEmpty

def write (units : List CodeUnit) (heap : Heap) : Chunk → Effect Chunk Unit
  | ⟨code, constants⟩ => (code.extend heap units).within (Chunk.mk · constants)

def writeByte (byte : UInt8) (line : UInt32) (heap : Heap) : Chunk → Effect Chunk Unit
  | ⟨code, constants⟩ => (code.push ⟨byte, line⟩ heap).within (Chunk.mk · constants)

def writeOpcode (opcode : Opcode) (line : UInt32) (heap : Heap) (chunk : Chunk) :
    Effect Chunk Unit :=
  chunk.writeByte opcode.toByte line heap

def addConstant (value : Value) (heap : Heap) : Chunk → Effect Chunk Nat
  | ⟨code, constants⟩ => (constants.add value heap).within (Chunk.mk code)

def addConstants (values : List Value) (heap : Heap) : Chunk → Effect Chunk (List Nat)
  | ⟨code, constants⟩ => (constants.addAll heap values).within (Chunk.mk code)

/-- When the code cannot be freed, the pool is left as it is. -/
def free (heap : Heap) : Chunk → Effect Chunk Unit
  | ⟨code, constants⟩ =>
      ((code.free heap).within (Chunk.mk · constants)).andThen
        fun _ chunk heap => (chunk.constants.free heap).within (Chunk.mk chunk.code)

/-- Gives the chunk up: the pool is freed also when the code cannot be, but then it has to
succeed. -/
def discard (chunk : Chunk) (heap : Heap) : Except Fault Unit × Heap :=
  let code := chunk.code.free heap
  let constants := chunk.constants.free code.heap
  let answer := match code.answer, constants.answer with
    | .ok (), answer => answer
    | .error fault, .ok () => .error fault
    | .error fault, .error later => .error (fault.followedBy later)
  (answer, constants.heap)

def unitAt? (chunk : Chunk) (offset : Nat) : Except Fault (Option CodeUnit) :=
  chunk.code.get? offset

def byteAt? (chunk : Chunk) (offset : Nat) : Except Fault (Option UInt8) :=
  return (← chunk.unitAt? offset).map CodeUnit.byte

def lineAt? (chunk : Chunk) (offset : Nat) : Except Fault (Option UInt32) :=
  return (← chunk.unitAt? offset).map CodeUnit.line

def units (chunk : Chunk) : Except Fault (List CodeUnit) := chunk.code.items

def bytes (chunk : Chunk) : Except Fault (List UInt8) := return (← chunk.units).map CodeUnit.byte

def lines (chunk : Chunk) : Except Fault (List UInt32) := return (← chunk.units).map CodeUnit.line

def same (left right : Chunk) : Except Fault Bool := do
  if ← left.code.same right.code then left.constants.same right.constants else return false

/-- Runs a walk over the contents. A pool that cannot be read fails only the walks that load
a constant. -/
def walk {α : Type} (chunk : Chunk) (visit : Contents → α) (loads : α → Bool) :
    Except Fault α := do
  let units ← chunk.code.read
  match chunk.constants.values.read with
  | .ok constants => return visit ⟨units, constants⟩
  | .error fault =>
      let blind := visit ⟨units, #[]⟩
      if loads blind then throw fault else return blind

def inspect (chunk : Chunk) : Except Fault String := do
  let code ← chunk.code.inspect
  let constants ← chunk.constants.inspect
  return Inspect.record "Chunk" [("code", code), ("constants", constants)]

end Chunk

end MeteredChunk
