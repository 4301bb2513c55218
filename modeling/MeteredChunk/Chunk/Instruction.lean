import MeteredChunk.Chunk.Basic

/-!
The instructions of a chunk. A walk reads one instruction after the other and
ends with the code, or with the first place where no instruction stands.
Decoding wants the whole code to be instructions; validation wants, besides,
every constant that is loaded to be in the pool.
-/

namespace MeteredChunk

structure Instruction where
  /-- Of the opcode's byte, like the line. -/
  offset : Nat
  line : UInt32
  opcode : Opcode
  operand : Option UInt8
  /-- What the operand stands for, if the pool has it. -/
  constant : Option Value
  deriving DecidableEq

inductive CodeFault where
  | unknownOpcode (offset : Nat) (byte : UInt8)
  | truncatedOperand (offset : Nat) (opcode : Opcode)
  | constantOutOfRange (offset index count : Nat)
  deriving DecidableEq

namespace CodeFault

def message : CodeFault → String
  | unknownOpcode offset byte => s!"unknown opcode {byte.toNat} at offset {offset}"
  | truncatedOperand offset opcode =>
      s!"{opcode.mnemonic} at offset {offset} is missing its operand"
  | constantOutOfRange offset index count =>
      s!"constant index {index} at offset {offset} is out of range (pool has {count})"

end CodeFault

namespace Instruction

def width (instruction : Instruction) : Nat := 1 + instruction.opcode.operands

def toJson (instruction : Instruction) : Json :=
  .record
    [("offset", .integer instruction.offset), ("line", .integer instruction.line.toNat),
      ("opcode", instruction.opcode.toJson),
      ("operand", (instruction.operand.map fun byte => Json.integer byte.toNat).getD .null),
      ("constant", (instruction.constant.map Value.toJson).getD .null)]

/-- An operand that numbers no constant of a pool of the given size. -/
def dangling? (count : Nat) (instruction : Instruction) : Option CodeFault :=
  match instruction.operand with
  | some index =>
      if count ≤ index.toNat then
        some (.constantOutOfRange instruction.offset index.toNat count)
      else none
  | none => none

/-- The earliest fault of a walk, dangling operands included. -/
def check (count : Nat) : List (Except CodeFault Instruction) → Except CodeFault Unit
  | [] => .ok ()
  | .error fault :: _ => .error fault
  | .ok instruction :: rest =>
      match instruction.dangling? count with
      | some fault => .error fault
      | none => check count rest

def loads (steps : List (Except CodeFault Instruction)) : Bool :=
  steps.any fun
    | .ok instruction => instruction.operand.isSome
    | .error _ => false

end Instruction

namespace Contents

def decodeAt (contents : Contents) (offset : Nat) (unit : CodeUnit) :
    Except CodeFault Instruction :=
  match Opcode.ofByte? unit.byte with
  | none => .error (.unknownOpcode offset unit.byte)
  | some opcode =>
      if opcode.operands = 0 then .ok ⟨offset, unit.line, opcode, none, none⟩
      else
        match contents.byteAt? (offset + 1), opcode with
        | none, opcode => .error (.truncatedOperand offset opcode)
        | some index, .constant =>
            .ok ⟨offset, unit.line, .constant, some index, contents.constant? index⟩
        | some operand, opcode => .ok ⟨offset, unit.line, opcode, some operand, none⟩

def instructionsFrom (contents : Contents) (offset : Nat) :
    List (Except CodeFault Instruction) :=
  match _ : contents.unitAt? offset with
  | none => []
  | some unit =>
      match contents.decodeAt offset unit with
      | .error fault => [.error fault]
      | .ok instruction =>
          .ok instruction :: contents.instructionsFrom (offset + instruction.width)
termination_by contents.size - offset
decreasing_by
  have inside : offset < contents.size := (Array.getElem?_eq_some_iff.mp ‹_›).1
  unfold Instruction.width
  omega

def instructions (contents : Contents) : List (Except CodeFault Instruction) :=
  contents.instructionsFrom 0

end Contents

namespace Chunk

def instructions (chunk : Chunk) : Except Fault (List (Except CodeFault Instruction)) :=
  chunk.walk Contents.instructions Instruction.loads

def decode (chunk : Chunk) : Except Fault (Except CodeFault (List Instruction)) :=
  return (← chunk.instructions).mapM id

def validate (chunk : Chunk) : Except Fault (Except CodeFault Unit) :=
  return Instruction.check chunk.constants.size (← chunk.instructions)

end Chunk

end MeteredChunk
