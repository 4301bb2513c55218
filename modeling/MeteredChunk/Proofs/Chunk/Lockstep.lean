import MeteredChunk.Proofs.Chunk.Grammar
import Mathlib.Data.List.Forall2

/-!
The listing and the walk over the instructions are two readings of the same code, each
with its own way to go on. They stay side by side up to the first place where no
instruction stands; there the walk ends, and the listing says why.
-/

namespace MeteredChunk

theorem toDigits_inj (left right : Nat) (same : Nat.toDigits 10 left = Nat.toDigits 10 right) :
    left = right := by
  rw [← Nat.ofDigitChars_ten_toDigits (n := left), same, Nat.ofDigitChars_ten_toDigits]

/-! ## Texts -/

def unknownText (byte : UInt8) : List Char :=
  "Unknown opcode ".toList ++ Nat.toDigits 10 byte.toNat

def truncatedText : List Char := "OP_CONSTANT      <truncated>".toList

def operandText (opcode : Opcode) (operand : UInt8) : List Char :=
  opcode.mnemonic.toList.rightpad 16 ' ' ++ ' ' ::
    (Nat.toDigits 10 operand.toNat).leftpad 4 ' ' ++ [' ']

def outOfRangeText : List Char := "<out of range>".toList

def quotedText (value : Value) : List Char := '\'' :: value.generalChars ++ ['\'']

def Instruction.text (instruction : Instruction) : List Char :=
  match instruction.operand, instruction.constant with
  | none, _ => instruction.opcode.mnemonic.toList
  | some operand, some value => operandText instruction.opcode operand ++ quotedText value
  | some operand, none => operandText instruction.opcode operand ++ outOfRangeText

def Row.text (row : Row) : List Char := row.body.chars

theorem quoted_chars (operand : UInt8) (value : Value) :
    (RowBody.load operand (some value)).chars =
      operandText .constant operand ++ quotedText value := by
  unfold RowBody.chars operandText quotedText
  simp only [List.append_assoc, List.cons_append, List.nil_append]

theorem outOfRange_chars (operand : UInt8) :
    (RowBody.load operand none).chars = operandText .constant operand ++ outOfRangeText := by
  unfold RowBody.chars operandText outOfRangeText
  simp only [List.append_assoc, List.cons_append, List.nil_append]

theorem unknownText_inj (left right : UInt8) (same : unknownText left = unknownText right) :
    left = right :=
  UInt8.toNat_inj.mp (toDigits_inj _ _ (List.append_cancel_left same))

theorem operandText_length (operand : UInt8) : (operandText .constant operand).length = 22 := by
  have bounded : operand.toNat < 10 ^ 3 := lt_trans operand.toNat_lt (by decide)
  have few := (Nat.length_toDigits_le_iff (by decide) (by decide)).mpr bounded
  have mnemonic : (Opcode.constant.mnemonic.toList.rightpad 16 ' ').length = 16 := by decide
  simp only [operandText, List.length_append, List.length_cons, List.length_leftpad, mnemonic,
    List.length_nil]
  omega

theorem operandText_inj (one other : UInt8) (shown shownToo : List Char)
    (same : operandText .constant one ++ shown = operandText .constant other ++ shownToo) :
    shown = shownToo := by
  have lengths : (operandText .constant one).length = (operandText .constant other).length := by
    rw [operandText_length, operandText_length]
  exact (List.append_inj same lengths).2

/-- A row for a load has a blank where the one for a truncated load has a letter. -/
theorem operandText_truncated (operand : UInt8) (shown : List Char) :
    operandText .constant operand ++ shown ≠ truncatedText := by
  intro same
  have cut : operandText .constant operand = truncatedText.take 22 := by
    rw [← same, ← operandText_length operand, List.take_left]
  have last := congrArg List.getLast? cut
  rw [operandText, List.getLast?_concat] at last
  exact absurd last (by decide)

theorem operandText_head (operand : UInt8) (shown : List Char) :
    (operandText .constant operand ++ shown).head? = some 'O' := by
  rw [List.head?_append_of_ne_nil _ (by simp [operandText])]
  rfl

theorem unknownText_head (byte : UInt8) : (unknownText byte).head? = some 'U' := rfl

namespace Row

structure Shows (row : Row) (instruction : Instruction) : Prop where
  offset : row.offset = instruction.offset
  text : row.text = instruction.text
  quoted : (∃ operand value, row.text = operandText .constant operand ++ quotedText value) ↔
    instruction.opcode = .constant ∧ instruction.constant.isSome
  outOfRange : (∃ operand, row.text = operandText .constant operand ++ outOfRangeText) ↔
    instruction.opcode = .constant ∧ instruction.constant = none

def Malformed (row : Row) : Prop := row.text = truncatedText ∨ ∃ byte, row.text = unknownText byte

structure Reports (row : Row) (fault : CodeFault) : Prop where
  malformed : row.Malformed
  unknown : ∀ byte, row.text = unknownText byte ↔ fault = .unknownOpcode row.offset byte
  truncated : row.text = truncatedText ↔ fault = .truncatedOperand row.offset .constant

theorem shows_ret (row : Row) (instruction : Instruction) (offset : row.offset = instruction.offset)
    (body : row.body = .ret) (said : instruction.heading = (.ret, none)) :
    row.Shows instruction ∧ ¬ row.Malformed := by
  obtain ⟨place, line, opcode, operand, constant⟩ := instruction
  cases said
  have text : row.text = "OP_RETURN".toList := by
    rw [Row.text, body]
    rfl
  have short (operand : UInt8) (shown : List Char) :
      row.text ≠ operandText .constant operand ++ shown := by
    intro same
    have lengths := congrArg List.length (text.symm.trans same)
    rw [List.length_append, operandText_length] at lengths
    simp only [String.length_toList] at lengths
    have nine : "OP_RETURN".length = 9 := by decide
    omega
  refine ⟨⟨offset, text, ?_, ?_⟩, ?_⟩
  · simp [short]
  · simp [short]
  · rintro (same | ⟨byte, same⟩)
    · exact absurd (text.symm.trans same) (by decide)
    · have heads := congrArg List.head? (text.symm.trans same)
      rw [unknownText_head] at heads
      exact absurd heads (by decide)

theorem shows_load (row : Row) (instruction : Instruction) (operand : UInt8)
    (offset : row.offset = instruction.offset)
    (body : row.body = .load operand instruction.constant)
    (said : instruction.heading = (.constant, some operand)) :
    row.Shows instruction ∧ ¬ row.Malformed := by
  obtain ⟨place, line, opcode, operands, constant⟩ := instruction
  cases said
  have foreign (shown : List Char) : operandText .constant operand ++ shown ≠ truncatedText ∧
      ∀ byte, operandText .constant operand ++ shown ≠ unknownText byte := by
    refine ⟨operandText_truncated operand shown, fun byte same => ?_⟩
    have heads := congrArg List.head? same
    rw [unknownText_head, operandText_head] at heads
    exact absurd heads (by decide)
  cases constant with
  | some value =>
      have text : row.text = operandText .constant operand ++ quotedText value :=
        (congrArg RowBody.chars body).trans (quoted_chars operand value)
      refine ⟨⟨offset, by simp only [text, Instruction.text], ?_, ?_⟩, ?_⟩
      · exact ⟨fun _ => ⟨rfl, rfl⟩, fun _ => ⟨operand, value, text⟩⟩
      · refine ⟨?_, fun absent => by cases absent.2⟩
        rintro ⟨other, same⟩
        have heads := congrArg List.head? (operandText_inj _ _ _ _ (text.symm.trans same))
        cases heads
      · rintro (same | ⟨byte, same⟩)
        · exact (foreign _).1 (text.symm.trans same)
        · exact (foreign _).2 byte (text.symm.trans same)
  | none =>
      have text : row.text = operandText .constant operand ++ outOfRangeText :=
        (congrArg RowBody.chars body).trans (outOfRange_chars operand)
      refine ⟨⟨offset, by simp only [text, Instruction.text], ?_, ?_⟩, ?_⟩
      · refine ⟨?_, fun present => by cases present.2⟩
        rintro ⟨other, value, same⟩
        have heads := congrArg List.head? (operandText_inj _ _ _ _ (text.symm.trans same))
        cases heads
      · exact ⟨fun _ => ⟨rfl, rfl⟩, fun _ => ⟨operand, text⟩⟩
      · rintro (same | ⟨byte, same⟩)
        · exact (foreign _).1 (text.symm.trans same)
        · exact (foreign _).2 byte (text.symm.trans same)

end Row

namespace Contents

variable {contents : Contents} {offset : Nat} {unit : CodeUnit}

/-- Where the walk finds an instruction, the listing shows it, and both go on from the same
place. -/
theorem rowAt_shows {instruction : Instruction}
    (decoded : contents.decodeAt offset unit = .ok instruction) :
    (contents.rowAt offset unit).Shows instruction ∧ ¬ (contents.rowAt offset unit).Malformed ∧
      contents.next (contents.rowAt offset unit) = offset + instruction.width := by
  cases known : Opcode.ofByte? unit.byte with
  | none =>
      rw [decodeAt_unknown known] at decoded
      cases decoded
  | some opcode =>
      cases opcode with
      | ret =>
          rw [decodeAt_ret known] at decoded
          cases decoded
          have body : (contents.rowAt offset unit).body = .ret := by simp only [rowAt, known]
          obtain ⟨shows, fine⟩ := Row.shows_ret (contents.rowAt offset unit)
            ⟨offset, unit.line, .ret, none, none⟩ rfl body rfl
          refine ⟨shows, fine, ?_⟩
          simp only [next, body]
          rfl
      | constant =>
          cases behind : contents.byteAt? (offset + 1) with
          | none =>
              rw [decodeAt_cutShort known behind] at decoded
              cases decoded
          | some operand =>
              rw [decodeAt_load known behind] at decoded
              cases decoded
              have body : (contents.rowAt offset unit).body =
                  .load operand (contents.constant? operand) := by
                simp only [rowAt, known, behind]
              obtain ⟨shows, fine⟩ := Row.shows_load (contents.rowAt offset unit)
                ⟨offset, unit.line, .constant, some operand, contents.constant? operand⟩ operand
                rfl body rfl
              refine ⟨shows, fine, ?_⟩
              simp only [next, body]
              rfl

theorem rowsFrom_end (ends : contents.unitAt? offset = none) : contents.rowsFrom offset = [] := by
  rw [rowsFrom]
  split <;> simp_all

theorem rowsFrom_cons (found : contents.unitAt? offset = some unit) :
    contents.rowsFrom offset = contents.rowAt offset unit ::
      contents.rowsFrom (contents.next (contents.rowAt offset unit)) := by
  rw [rowsFrom]
  split <;> simp_all

end Contents

/-- A walk and a listing side by side: one row for each instruction. Then both end, or the walk ends
with a fault, and the listing has a row for it and goes on alone. -/
inductive Lockstep : List (Except CodeFault Instruction) → List Row → Prop
  | done : Lockstep [] []
  | step {instruction : Instruction} {row : Row} {steps : List (Except CodeFault Instruction)}
      {rows : List Row} (shows : row.Shows instruction) (fine : ¬ row.Malformed)
      (behind : Lockstep steps rows) : Lockstep (.ok instruction :: steps) (row :: rows)
  | stop {fault : CodeFault} {row : Row} (later : List Row) (reports : row.Reports fault) :
      Lockstep [.error fault] (row :: later)

namespace Lockstep

/-- What stands side by side: instructions and their rows, and then the end of both or a fault
and the row that reports it. -/
theorem split {steps : List (Except CodeFault Instruction)} {rows : List Row}
    (beside : Lockstep steps rows) :
    ∃ passed shown more, rows = shown ++ more ∧ List.Forall₂ Row.Shows shown passed ∧
      (steps = passed.map .ok ∧ more = [] ∨
        ∃ fault row later, steps = passed.map .ok ++ [.error fault] ∧ more = row :: later ∧
          row.Reports fault) := by
  induction beside with
  | done => exact ⟨[], [], [], rfl, .nil, .inl ⟨rfl, rfl⟩⟩
  | stop later reports =>
      exact ⟨[], [], _, rfl, .nil, .inr ⟨_, _, later, rfl, rfl, reports⟩⟩
  | @step instruction row steps rows shows fine behind ih =>
      obtain ⟨passed, shown, more, rfl, all, ends⟩ := ih
      refine ⟨instruction :: passed, row :: shown, more, rfl, .cons shows all, ?_⟩
      rcases ends with ⟨rfl, clean⟩ | ⟨fault, row, later, rfl, rest, reports⟩
      · exact .inl ⟨rfl, clean⟩
      · exact .inr ⟨fault, row, later, rfl, rest, reports⟩

theorem decodes {steps : List (Except CodeFault Instruction)} {rows : List Row}
    (beside : Lockstep steps rows) :
    (∃ instructions, steps.mapM id = (.ok instructions : Except CodeFault _)) ↔
      ∀ row ∈ rows, ¬ row.Malformed := by
  induction beside with
  | done => simp [pure, Except.pure]
  | stop later reports =>
      rw [Contents.collect_error]
      simp [reports.malformed]
  | @step instruction row steps rows shows fine behind ih =>
      simp only [List.forall_mem_cons, ← ih]
      constructor
      · rintro ⟨instructions, through⟩
        cases instructions with
        | nil => exact absurd through (Contents.collect_ok_nil _ _)
        | cons first rest =>
            exact ⟨fine, rest, ((Contents.collect_ok _ _ _ _).mp through).2⟩
      · rintro ⟨-, rest, through⟩
        exact ⟨instruction :: rest, (Contents.collect_ok _ _ _ _).mpr ⟨rfl, through⟩⟩

end Lockstep

namespace Chunk

variable {chunk : Chunk}

theorem listAt_intact (intact : chunk.Intact) (offset : Nat) (text : String) :
    chunk.listAt offset text = .ok (match chunk.contents.row? offset with
      | some (row, next) => (next, text ++ String.ofList row.chars)
      | none => (chunk.size, text)) := by
  unfold listAt
  rw [walk_intact intact]
  rfl

def broken : Chunk := { code := ⟨#[⟨1, 1⟩, ⟨0, 2⟩, ⟨9, 2⟩, ⟨7, 2⟩, ⟨0, 3⟩], 5⟩ }

end Chunk

end MeteredChunk
