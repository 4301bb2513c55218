import MeteredChunk.Chunk.Basic

/-!
The listing of a chunk: a title and a row for each instruction, with its offset,
its line, and what it does. The line is left out where the byte before has the
same one. Bytes that start no instruction get rows of their own, so a listing
always reaches the end of the code.
-/

namespace MeteredChunk

inductive RowBody where
  | load (index : UInt8) (constant : Option Value)
  /-- A load at the very end, without its operand. -/
  | cutShort
  | ret
  | unknown (byte : UInt8)

structure Row where
  offset : Nat
  line : Option UInt32
  body : RowBody

namespace RowBody

def chars : RowBody → List Char
  | load index constant =>
      Opcode.constant.mnemonic.toList.rightpad 16 ' ' ++ ' ' ::
        (Nat.toDigits 10 index.toNat).leftpad 4 ' ' ++ ' ' ::
        match constant with
        | some value => '\'' :: value.generalChars ++ ['\'']
        | none => "<out of range>".toList
  | cutShort => Opcode.constant.mnemonic.toList.rightpad 16 ' ' ++ " <truncated>".toList
  | ret => Opcode.ret.mnemonic.toList
  | unknown byte => "Unknown opcode ".toList ++ Nat.toDigits 10 byte.toNat

end RowBody

namespace Row

def lineColumn (row : Row) : List Char :=
  match row.line with
  | some line => (Nat.toDigits 10 line.toNat).leftpad 4 ' '
  | none => "   |".toList

def chars (row : Row) : List Char :=
  (Nat.toDigits 10 row.offset).leftpad 4 '0' ++ ' ' :: row.lineColumn ++ ' ' :: row.body.chars ++
    ['\n']

def loads (row : Row) : Bool :=
  match row.body with
  | .load _ _ => true
  | _ => false

def listing (title : String) (rows : List Row) : String :=
  "== " ++ title ++ " ==\n" ++ String.ofList (rows.flatMap chars)

end Row

namespace Contents

def rowAt (contents : Contents) (offset : Nat) (unit : CodeUnit) : Row where
  offset := offset
  line :=
    if 0 < offset ∧ contents.lineAt? (offset - 1) = some unit.line then none else some unit.line
  body :=
    match Opcode.ofByte? unit.byte with
    | some .constant =>
        match contents.byteAt? (offset + 1) with
        | some index => .load index (contents.constant? index)
        | none => .cutShort
    | some .ret => .ret
    | none => .unknown unit.byte

def next (contents : Contents) (row : Row) : Nat :=
  match row.body with
  | .load _ _ => row.offset + 2
  | .cutShort => contents.size
  | .ret | .unknown _ => row.offset + 1

theorem lt_next (contents : Contents) (row : Row) (inside : row.offset < contents.size) :
    row.offset < contents.next row := by
  unfold next
  split <;> omega

def rowsFrom (contents : Contents) (offset : Nat) : List Row :=
  match _ : contents.unitAt? offset with
  | none => []
  | some unit =>
      contents.rowAt offset unit :: contents.rowsFrom (contents.next (contents.rowAt offset unit))
termination_by contents.size - offset
decreasing_by
  have inside : offset < contents.size := (Array.getElem?_eq_some_iff.mp ‹_›).1
  have onward : offset < contents.next (contents.rowAt offset unit) :=
    contents.lt_next (contents.rowAt offset unit) inside
  omega

def rows (contents : Contents) : List Row := contents.rowsFrom 0

def row? (contents : Contents) (offset : Nat) : Option (Row × Nat) :=
  (contents.unitAt? offset).map fun unit =>
    let row := contents.rowAt offset unit
    (row, contents.next row)

end Contents

namespace Chunk

def rows (chunk : Chunk) : Except Fault (List Row) :=
  chunk.walk Contents.rows (·.any Row.loads)

def listing (chunk : Chunk) (title : String) : Except Fault String :=
  return Row.listing title (← chunk.rows)

def listAt (chunk : Chunk) (offset : Nat) (text : String) : Except Fault (Nat × String) :=
  return match ← chunk.walk (·.row? offset) (·.any (Row.loads ·.1)) with
    | some (row, next) => (next, text ++ String.ofList row.chars)
    | none => (chunk.size, text)

end Chunk

end MeteredChunk
