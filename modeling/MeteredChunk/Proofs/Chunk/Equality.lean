import MeteredChunk.Proofs.Chunk.Lockstep
import MeteredChunk.Proofs.Chunk.Repair
import MeteredChunk.Proofs.Value.Order

/-!
Equality of chunks. Only the contents count: the code unit for unit, and the constants as the
numbers that they are. It is an equivalence but for NaNs. Equal chunks are validated and decoded
alike; their listings differ at most in the signs of zeros.
-/

namespace MeteredChunk

theorem isEqv_forall₂ {α : Type} (same : α → α → Bool) (these those : List α) :
    these.isEqv those same = true ↔ List.Forall₂ (same · · = true) these those := by
  induction these generalizing those with
  | nil => cases those <;> simp [List.isEqv]
  | cons first rest ih => cases those <;> simp [List.isEqv, ih]

namespace Store

variable {α : Type} [Element α] {one other : Store α}

theorem same_intact (intact : one.Intact) (intactToo : other.Intact) :
    one.same other = .ok (one.slots.toList.isEqv other.slots.toList Element.same) := by
  rw [same, items_intact _ intact, items_intact _ intactToo]
  rfl

end Store

structure Instruction.Equal (instruction other : Instruction) : Prop where
  offset : instruction.offset = other.offset
  line : instruction.line = other.line
  opcode : instruction.opcode = other.opcode
  operand : instruction.operand = other.operand
  constant : Option.Rel Value.Equal instruction.constant other.constant

inductive RowBody.UpToZeros (contents contentsToo : Contents) : RowBody → RowBody → Prop
  | same (body : RowBody) : UpToZeros contents contentsToo body body
  | zeros {index : UInt8} {value valueToo : Value} (there : contents.constant? index = some value)
      (thereToo : contentsToo.constant? index = some valueToo)
      (opposite : value.OppositeZeros valueToo) :
      UpToZeros contents contentsToo (.load index (some value)) (.load index (some valueToo))

/-- The same text, apart from what stands between the quotes where both constants are zeros. -/
def Row.UpToZeros (contents contentsToo : Contents) (row other : Row) : Prop :=
  row.chars = other.chars ∨
    ∃ front index value valueToo, contents.constant? index = some value ∧
      contentsToo.constant? index = some valueToo ∧ value.OppositeZeros valueToo ∧
      row.chars = front ++ quotedText value ++ ['\n'] ∧
      other.chars = front ++ quotedText valueToo ++ ['\n']

theorem RowBody.UpToZeros.chars {contents contentsToo : Contents} {body bodyToo : RowBody}
    (alike : body.UpToZeros contents contentsToo bodyToo) (offset : Nat) (line : Option UInt32) :
    (⟨offset, line, body⟩ : Row).UpToZeros contents contentsToo ⟨offset, line, bodyToo⟩ := by
  cases alike with
  | same body => exact .inl rfl
  | @zeros index value valueToo there thereToo opposite =>
      have shown (value : Value) : (⟨offset, line, .load index (some value)⟩ : Row).chars =
          (Nat.toDigits 10 offset).leftpad 4 '0' ++ ' ' ::
            (⟨offset, line, .cutShort⟩ : Row).lineColumn ++ ' ' ::
              operandText .constant index ++ quotedText value ++ ['\n'] := by
        simp only [Row.chars, quoted_chars, List.append_assoc, List.cons_append]
        rfl
      exact .inr ⟨_, index, value, valueToo, there, thereToo, opposite, shown value, shown valueToo⟩

namespace Contents

variable {contents other third : Contents}

structure Equal (contents other : Contents) : Prop where
  units : contents.units = other.units
  constants : List.Forall₂ Value.Equal contents.constants.toList other.constants.toList

theorem Equal.symm (equal : contents.Equal other) : other.Equal contents :=
  ⟨equal.units.symm, (equal.constants.imp fun _ _ => Value.Equal.symm).flip⟩

theorem Equal.trans (equal : contents.Equal other) (equalToo : other.Equal third) :
    contents.Equal third := by
  refine ⟨equal.units.trans equalToo.units, ?_⟩
  rw [List.forall₂_iff_get]
  have lengths := equal.constants.length_eq
  refine ⟨lengths.trans equalToo.constants.length_eq, fun index inside insideToo => ?_⟩
  have between := lengths ▸ inside
  exact (equal.constants.get inside between).trans (equalToo.constants.get between insideToo)

theorem equal_self :
    contents.Equal contents ↔ ∀ value ∈ contents.constants, value.isNaN = false := by
  have constants : List.Forall₂ Value.Equal contents.constants.toList contents.constants.toList ↔
      ∀ value ∈ contents.constants, value.isNaN = false := by
    simp only [List.forall₂_same, Value.equal_self, Array.mem_toList_iff]
  exact ⟨fun equal => constants.mp equal.constants, fun numbers => ⟨rfl, constants.mpr numbers⟩⟩

theorem Equal.constant? (equal : contents.Equal other) (index : UInt8) :
    Option.Rel Value.Equal (contents.constant? index) (other.constant? index) := by
  have lengths := equal.constants.length_eq
  simp only [Contents.constant?, ← Array.getElem?_toList]
  by_cases inside : index.toNat < contents.constants.toList.length
  · have insideToo := lengths ▸ inside
    rw [List.getElem?_eq_getElem inside, List.getElem?_eq_getElem insideToo]
    exact .some (equal.constants.get inside insideToo)
  · have outside : ¬ index.toNat < other.constants.toList.length := lengths ▸ inside
    rw [List.getElem?_eq_none (not_lt.mp inside), List.getElem?_eq_none (not_lt.mp outside)]
    exact .none

theorem Equal.loaded (equal : contents.Equal other) (instruction : Instruction) :
    Option.Rel Value.Equal (instruction.loaded? contents) (instruction.loaded? other) := by
  unfold Instruction.loaded?
  split
  · exact equal.constant? _
  · exact .none

theorem Equal.walked (equal : contents.Equal other) :
    other.instructions = contents.instructions.map (Instruction.recalled other) :=
  instructions_recalled equal.units.symm

/-- What a walk says of an instruction fixes it up to its constant. -/
theorem Equal.instructions (equal : contents.Equal other) :
    List.Forall₂ (Agree Instruction.Equal) contents.instructions other.instructions := by
  rw [equal.walked, List.forall₂_map_right_iff, List.forall₂_same]
  intro step member
  cases step with
  | error fault => exact .error fault
  | ok instruction =>
      obtain ⟨unit, found, decoded, -⟩ := decoded_step member
      have told := ((decodeAt_ok found instruction).mp decoded).2.1
      exact .ok ⟨rfl, rfl, rfl, rfl, told.constant ▸ equal.loaded instruction⟩

theorem Equal.unitAt? (equal : contents.Equal other) (offset : Nat) :
    other.unitAt? offset = contents.unitAt? offset := by
  rw [Contents.unitAt?, Contents.unitAt?, equal.units]

theorem Equal.rowBody (equal : contents.Equal other) (offset : Nat) (unit : CodeUnit) :
    (contents.rowAt offset unit).body.UpToZeros contents other (other.rowAt offset unit).body := by
  have byte : other.byteAt? (offset + 1) = contents.byteAt? (offset + 1) := by
    rw [byteAt?, byteAt?, equal.unitAt?]
  simp only [rowAt, byte]
  cases Opcode.ofByte? unit.byte with
  | none => exact .same _
  | some opcode =>
      cases opcode with
      | ret => exact .same _
      | constant =>
          cases contents.byteAt? (offset + 1) with
          | none => exact .same _
          | some index =>
              simp only
              have loaded := equal.constant? index
              generalize one : contents.constant? index = constant at loaded ⊢
              generalize two : other.constant? index = constantToo at loaded ⊢
              cases loaded with
              | none => exact .same _
              | some numbers =>
                  rcases numbers.eq_or_zeros with rfl | opposite
                  · exact .same _
                  · exact .zeros one two opposite

/-- At one place the rows are alike, and both listings go on from the same place. -/
theorem Equal.rowAt (equal : contents.Equal other) (offset : Nat) (unit : CodeUnit) :
    (contents.rowAt offset unit).UpToZeros contents other (other.rowAt offset unit) ∧
      contents.next (contents.rowAt offset unit) = other.next (other.rowAt offset unit) := by
  have line : (other.rowAt offset unit).line = (contents.rowAt offset unit).line := by
    rw [Contents.rowAt, Contents.rowAt, lineAt?, lineAt?, equal.unitAt?]
  have size : other.size = contents.size := by rw [Contents.size, Contents.size, equal.units]
  have bodies := equal.rowBody offset unit
  constructor
  · have shown := bodies.chars offset (contents.rowAt offset unit).line
    nth_rewrite 2 [← line] at shown
    exact shown
  · unfold next
    generalize (contents.rowAt offset unit).body = body at bodies ⊢
    generalize (other.rowAt offset unit).body = bodyToo at bodies ⊢
    cases bodies with
    | same body => simp only [size, Contents.rowAt]
    | zeros there thereToo opposite => rfl

theorem Equal.rows (equal : contents.Equal other) :
    List.Forall₂ (Row.UpToZeros contents other) contents.rows other.rows := by
  unfold Contents.rows
  generalize 0 = offset
  fun_induction contents.rowsFrom offset with
  | case1 offset ends =>
      rw [rowsFrom_end ((equal.unitAt? offset).trans ends)]
      exact .nil
  | case2 offset unit found ih =>
      obtain ⟨alike, onward⟩ := equal.rowAt offset unit
      rw [rowsFrom_cons ((equal.unitAt? offset).trans found), ← onward]
      exact .cons alike ih

end Contents

namespace Chunk

variable {one other : Chunk}

theorem code_isEqv (one other : Chunk) :
    one.code.slots.toList.isEqv other.code.slots.toList Element.same = true ↔
      one.contents.units = other.contents.units := by
  have units : (fun unit unitToo : CodeUnit => Element.same unit unitToo = true) = Eq := by
    funext unit unitToo
    exact propext beq_iff_eq
  rw [isEqv_forall₂, units, List.forall₂_eq_eq_eq]
  exact Array.toList_inj

theorem constants_isEqv (one other : Chunk) :
    one.constants.values.slots.toList.isEqv other.constants.values.slots.toList Element.same =
        true ↔
      List.Forall₂ Value.Equal one.contents.constants.toList other.contents.constants.toList := by
  have values : (fun value valueToo : Value => Element.same value valueToo = true) =
      Value.Equal := by
    funext value valueToo
    exact propext Value.equals_number
  rw [isEqv_forall₂, values]
  rfl

theorem same_contents (intact : one.Intact) (intactToo : other.Intact) :
    ∃ verdict, one.same other = .ok verdict ∧
      (verdict = true ↔ one.contents.Equal other.contents) := by
  have constants : one.constants.same other.constants = _ :=
    Store.same_intact intact.constants intactToo.constants
  rw [same, Store.same_intact intact.code intactToo.code, constants]
  cases code : one.code.slots.toList.isEqv other.code.slots.toList Element.same with
  | false =>
      refine ⟨false, rfl, fun wrong => absurd wrong Bool.false_ne_true, fun equal => ?_⟩
      exact code.symm.trans ((code_isEqv one other).mpr equal.units)
  | true =>
      refine ⟨_, rfl, ?_⟩
      rw [constants_isEqv]
      exact ⟨fun values => ⟨(code_isEqv one other).mp code, values⟩, fun equal => equal.constants⟩

theorem same_iff (intact : one.Intact) (intactToo : other.Intact) :
    one.same other = .ok true ↔ one.contents.Equal other.contents := by
  obtain ⟨verdict, answer, means⟩ := same_contents intact intactToo
  rw [answer, ← means, Except.ok.injEq]

theorem same_symm (intact : one.Intact) (intactToo : other.Intact) :
    one.same other = other.same one := by
  obtain ⟨verdict, answer, means⟩ := same_contents intact intactToo
  obtain ⟨verdictToo, answerToo, meansToo⟩ := same_contents intactToo intact
  have both : verdict = verdictToo := by
    rw [Bool.eq_iff_iff, means, meansToo]
    exact ⟨Contents.Equal.symm, Contents.Equal.symm⟩
  rw [answer, answerToo, both]

theorem validate_equal (intact : one.Intact) (intactToo : other.Intact)
    (equal : one.contents.Equal other.contents) : one.validate = other.validate := by
  have sizes : one.constants.size = other.constants.size := by
    rw [← size_constants intact, ← size_constants intactToo]
    exact equal.constants.length_eq
  rw [validate_checked intact, validate_checked intactToo, equal.walked,
    Instruction.check_recalled, sizes]

/-- Chunks are equal exactly if their units are the same and their constants are equal numbers.
Equality is symmetric and transitive, and reflexive but for NaNs. Equal chunks are validated alike,
decode to equal instructions, and have listings that differ at most in the signs of zeros. -/
theorem same_respects (one other third : Chunk) (intact : one.Intact) (intactToo : other.Intact)
    (intactLast : third.Intact) :
    (∃ verdict, one.same other = .ok verdict ∧
        (verdict = true ↔ one.contents.Equal other.contents)) ∧
      one.same other = other.same one ∧
      (one.same other = .ok true → other.same third = .ok true → one.same third = .ok true) ∧
      (one.same one = .ok true ↔ ∀ value ∈ one.contents.constants, value.isNaN = false) ∧
      (one.same other = .ok true →
        one.validate = other.validate ∧
        (∃ outcome outcomeToo, one.decode = .ok outcome ∧ other.decode = .ok outcomeToo ∧
          Agree (List.Forall₂ Instruction.Equal) outcome outcomeToo) ∧
        ∃ rows rowsToo,
          (∀ title, one.listing title = .ok (Row.listing title rows) ∧
            other.listing title = .ok (Row.listing title rowsToo)) ∧
          List.Forall₂ (Row.UpToZeros one.contents other.contents) rows rowsToo) := by
  refine ⟨same_contents intact intactToo, same_symm intact intactToo, ?_, ?_, ?_⟩
  · rw [same_iff intact intactToo, same_iff intactToo intactLast, same_iff intact intactLast]
    exact Contents.Equal.trans
  · rw [same_iff intact intact, Contents.equal_self]
  · rw [same_iff intact intactToo]
    intro equal
    exact ⟨validate_equal intact intactToo equal,
      ⟨_, _, decode_intact intact, decode_intact intactToo, .collect equal.instructions⟩,
      _, _, fun title => ⟨listing_intact intact title, listing_intact intactToo title⟩, equal.rows⟩

theorem same_respects_zeros :
    let one : Chunk := ⟨⟨#[⟨0, 1⟩, ⟨0, 1⟩], 2⟩, ⟨⟨#[⟨0⟩], 1⟩⟩⟩
    let other : Chunk := ⟨⟨#[⟨0, 1⟩, ⟨0, 1⟩], 2⟩, ⟨⟨#[⟨0x8000000000000000⟩, ⟨7⟩], 1⟩⟩⟩
    one.Intact ∧ other.Intact ∧ one.same other = .ok true ∧ one.validate = other.validate ∧
      one.listing "" = .ok "==  ==\n0000    1 OP_CONSTANT         0 '0'\n" ∧
      other.listing "" = .ok "==  ==\n0000    1 OP_CONSTANT         0 '-0'\n" := by
  intro one other
  have intact : one.Intact := ⟨by decide, by decide⟩
  have intactToo : other.Intact := ⟨by decide, by decide⟩
  obtain ⟨-, -, -, -, respects⟩ := same_respects one other one intact intactToo intact
  have same : one.same other = .ok true := by decide
  refine ⟨intact, intactToo, same, (respects same).1, ?_, ?_⟩
  · have rows : one.contents.rows = [⟨0, some 1, .load 0 (some ⟨0⟩)⟩] := by
      rw [Contents.rows, Contents.rowsFrom_cons rfl, Contents.rowsFrom_end rfl]
      rfl
    rw [listing_intact intact, rows]
    decide
  · have rows : other.contents.rows = [⟨0, some 1, .load 0 (some ⟨0x8000000000000000⟩)⟩] := by
      rw [Contents.rows, Contents.rowsFrom_cons rfl, Contents.rowsFrom_end rfl]
      rfl
    rw [listing_intact intactToo, rows]
    decide

end Chunk

end MeteredChunk
