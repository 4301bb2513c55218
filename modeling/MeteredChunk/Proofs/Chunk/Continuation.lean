import MeteredChunk.Proofs.Chunk.Lockstep
import MeteredChunk.Proofs.Chunk.Reach

/-!
Code that goes on behind other code. A walk looks no further than the operand of its
instruction, so behind a program it reads the rest as if that stood alone, only further on.
Behind half a load, the first byte of the rest becomes its operand.
-/

namespace MeteredChunk

def CodeFault.shift (distance : Nat) : CodeFault → CodeFault
  | unknownOpcode offset byte => unknownOpcode (distance + offset) byte
  | truncatedOperand offset opcode => truncatedOperand (distance + offset) opcode
  | constantOutOfRange offset index count => constantOutOfRange (distance + offset) index count

namespace Instruction

def shift (distance : Nat) (instruction : Instruction) : Instruction :=
  { instruction with offset := distance + instruction.offset }

def shiftStep (distance : Nat) : Except CodeFault Instruction → Except CodeFault Instruction
  | .ok instruction => .ok (instruction.shift distance)
  | .error fault => .error (fault.shift distance)

end Instruction

theorem Row.listing_append (title : String) (rows more : List Row) :
    listing title (rows ++ more) = listing title rows ++ String.ofList (more.flatMap chars) := by
  rw [listing, listing, List.flatMap_append, String.ofList_append, ← String.append_assoc]

namespace Contents

def followedBy (contents : Contents) (units : List CodeUnit) : Contents :=
  { contents with units := contents.units ++ units.toArray }

def replacedBy (contents : Contents) (units : List CodeUnit) : Contents :=
  { contents with units := units.toArray }

variable {contents : Contents} {units : List CodeUnit} {offset place : Nat} {unit : CodeUnit}
  {instruction : Instruction} {passed : List Instruction}

section Front

theorem unitAt?_front (inside : offset < contents.size) :
    (contents.followedBy units).unitAt? offset = contents.unitAt? offset :=
  Array.getElem?_append_left inside

theorem unitAt?_found (found : contents.unitAt? offset = some unit) :
    (contents.followedBy units).unitAt? offset = some unit := by
  rw [unitAt?_front (Array.getElem?_eq_some_iff.mp found).1, found]

theorem byteAt?_found {byte : UInt8} (found : contents.byteAt? offset = some byte) :
    (contents.followedBy units).byteAt? offset = some byte := by
  obtain ⟨unit, there, rfl⟩ := Option.map_eq_some_iff.mp found
  rw [byteAt?, unitAt?_found there, Option.map_some]

/-- An instruction that is there is still read when more code follows. -/
theorem decodeAt_front (units : List CodeUnit)
    (decoded : contents.decodeAt offset unit = .ok instruction) :
    (contents.followedBy units).decodeAt offset unit = .ok instruction := by
  cases known : Opcode.ofByte? unit.byte with
  | none =>
      rw [decodeAt_unknown known] at decoded
      cases decoded
  | some opcode =>
      cases opcode with
      | ret =>
          rw [decodeAt_ret known] at decoded ⊢
          exact decoded
      | constant =>
          cases behind : contents.byteAt? (offset + 1) with
          | none =>
              rw [decodeAt_cutShort known behind] at decoded
              cases decoded
          | some index =>
              rw [decodeAt_load known behind] at decoded
              rw [decodeAt_load known (byteAt?_found behind)]
              exact decoded

theorem Passes.front (passes : contents.Passes offset passed place) :
    (contents.followedBy units).Passes offset passed place := by
  induction passes with
  | stay offset => exact .stay offset
  | pass found decoded onward ih => exact .pass (unitAt?_found found) (decodeAt_front _ decoded) ih

theorem Passes.within (passes : contents.Passes offset passed place)
    (within : offset ≤ contents.size) : place ≤ contents.size := by
  induction passes with
  | stay offset => exact within
  | @pass offset place unit instruction passed found decoded onward ih =>
      apply ih
      obtain ⟨-, told, written⟩ := (decodeAt_ok found _).mp decoded
      have fits := written.length_le
      rw [Instruction.encode_length _ told.formed, List.length_drop, length_bytes] at fits
      omega

theorem rowAt_front (found : contents.unitAt? offset = some unit)
    (decoded : contents.decodeAt offset unit = .ok instruction) :
    (contents.followedBy units).rowAt offset unit = contents.rowAt offset unit := by
  have inside : offset < contents.size := (Array.getElem?_eq_some_iff.mp found).1
  have line : (contents.followedBy units).lineAt? (offset - 1) = contents.lineAt? (offset - 1) := by
    rw [lineAt?, unitAt?_front (by omega), lineAt?]
  unfold rowAt
  rw [line]
  cases known : Opcode.ofByte? unit.byte with
  | none => rfl
  | some opcode =>
      cases opcode with
      | ret => rfl
      | constant =>
          cases behind : contents.byteAt? (offset + 1) with
          | none =>
              rw [decodeAt_cutShort known behind] at decoded
              cases decoded
          | some index =>
              simp only [byteAt?_found behind]
              rfl

theorem Passes.rows (passes : contents.Passes offset passed place) (units : List CodeUnit) :
    ∃ rows, contents.rowsFrom offset = rows ++ contents.rowsFrom place ∧
      (contents.followedBy units).rowsFrom offset =
        rows ++ (contents.followedBy units).rowsFrom place := by
  induction passes with
  | stay offset => exact ⟨[], rfl, rfl⟩
  | @pass offset place unit instruction passed found decoded onward ih =>
      obtain ⟨rows, here, there⟩ := ih
      obtain ⟨-, -, next⟩ := rowAt_shows decoded
      obtain ⟨-, -, nextToo⟩ := rowAt_shows (decodeAt_front units decoded)
      refine ⟨contents.rowAt offset unit :: rows, ?_, ?_⟩
      · rw [rowsFrom_cons found, next, here]
        rfl
      · rw [rowsFrom_cons (unitAt?_found found), nextToo, there, rowAt_front found decoded]
        rfl

end Front

section Behind

theorem unitAt?_behind (contents : Contents) (units : List CodeUnit) (offset : Nat) :
    (contents.followedBy units).unitAt? (contents.size + offset) =
      (contents.replacedBy units).unitAt? offset := by
  unfold unitAt? followedBy replacedBy size
  rw [Array.getElem?_append_right (Nat.le_add_right _ _), Nat.add_sub_cancel_left]

theorem decodeAt_behind (contents : Contents) (units : List CodeUnit) (offset : Nat)
    (unit : CodeUnit) :
    (contents.followedBy units).decodeAt (contents.size + offset) unit =
      Instruction.shiftStep contents.size ((contents.replacedBy units).decodeAt offset unit) := by
  have byte : (contents.followedBy units).byteAt? (contents.size + offset + 1) =
      (contents.replacedBy units).byteAt? (offset + 1) := by
    rw [byteAt?, Nat.add_assoc, unitAt?_behind, byteAt?]
  cases known : Opcode.ofByte? unit.byte with
  | none =>
      rw [decodeAt_unknown known, decodeAt_unknown known]
      rfl
  | some opcode =>
      cases opcode with
      | ret =>
          rw [decodeAt_ret known, decodeAt_ret known]
          rfl
      | constant =>
          cases behind : (contents.replacedBy units).byteAt? (offset + 1) with
          | none =>
              rw [decodeAt_cutShort known behind, decodeAt_cutShort known (byte.trans behind)]
              rfl
          | some index =>
              rw [decodeAt_load known behind, decodeAt_load known (byte.trans behind)]
              rfl

/-- Behind the code, a walk reads what follows as if it stood alone, further on. -/
theorem instructionsFrom_behind (contents : Contents) (units : List CodeUnit) (offset : Nat) :
    (contents.followedBy units).instructionsFrom (contents.size + offset) =
      ((contents.replacedBy units).instructionsFrom offset).map
        (Instruction.shiftStep contents.size) :=
  instructionsFrom_changed (unitAt?_behind contents units) (decodeAt_behind contents units)
    (fun _ => ⟨_, rfl, rfl⟩) (fun _ => ⟨_, rfl⟩) offset

end Behind

/-- Behind a program, what follows is read on its own, and the rows so far stay. -/
theorem program_followed {program : List Instruction}
    (decoded : contents.instructions.mapM id = .ok program) (units : List CodeUnit) :
    (contents.followedBy units).instructions = contents.instructions ++
        (contents.replacedBy units).instructions.map (Instruction.shiftStep contents.size) ∧
      ∃ more, (contents.followedBy units).rows = contents.rows ++ more := by
  obtain ⟨place, passes, ends⟩ := passes_whole decoded
  have last : place = contents.size :=
    le_antisymm (passes.within (Nat.zero_le _)) (unitAt?_none.mp ends)
  obtain ⟨rows, here, there⟩ := passes.rows units
  rw [rowsFrom_end ends, List.append_nil] at here
  constructor
  · rw [instructions, passes.front.walk, last, instructions, passes.walk,
      instructionsFrom_end ends, List.append_nil, instructions, ← instructionsFrom_behind,
      Nat.add_zero]
  · exact ⟨_, by rw [Contents.rows, there, Contents.rows, here]⟩

/-- Half a load is made whole by what follows. -/
theorem truncated_followed {offset : Nat} {opcode : Opcode}
    (fails : contents.instructions.mapM id = .error (.truncatedOperand offset opcode))
    (first : CodeUnit) (rest : List CodeUnit) :
    ∃ (passed : List Instruction) (unit : CodeUnit) (later : List (Except CodeFault Instruction)),
      offset + 1 = contents.size ∧ contents.unitAt? offset = some unit ∧
      contents.instructions = passed.map .ok ++ [.error (.truncatedOperand offset opcode)] ∧
      (contents.followedBy (first :: rest)).instructions = passed.map .ok ++
        .ok ⟨offset, unit.line, .constant, some first.byte, contents.constant? first.byte⟩ ::
          later := by
  obtain ⟨passed, place, unit, passes, found, broken⟩ := passes_broken fails
  have here : Instruction.place (contents.decodeAt place unit) = place := place_decodeAt
  rw [broken] at here
  obtain rfl : offset = place := here
  have explains := decodeAt_explains found broken
  have same : CodeFault.truncatedOperand offset opcode = .truncatedOperand offset .constant :=
    explains.either.resolve_left (by simp)
  obtain ⟨there, last⟩ := explains.truncated.mp same
  have known : Opcode.ofByte? unit.byte = some .constant := by
    rw [← byteAt?_eq, byteAt?, found] at there
    rw [Option.some.inj there]
    rfl
  have operand : (contents.followedBy (first :: rest)).byteAt? (offset + 1) = some first.byte := by
    rw [byteAt?, last, length_bytes, ← Nat.add_zero contents.size, unitAt?_behind]
    rfl
  refine ⟨passed, unit, (contents.followedBy (first :: rest)).instructionsFrom (offset + 2),
    last.trans contents.length_bytes, found, ?_, ?_⟩
  · rw [instructions, passes.walk, instructionsFrom_error found broken]
  · rw [instructions, passes.front.walk,
      instructionsFrom_ok (unitAt?_found found) (decodeAt_load known operand)]
    rfl

end Contents

namespace Chunk

variable {chunk : Chunk} {heap : Heap}

theorem write_contents (intact : chunk.Intact) (units : List CodeUnit)
    (through : (chunk.write units heap).answer = .ok ()) :
    (chunk.write units heap).object.Intact ∧
      (chunk.write units heap).object.contents = chunk.contents.followedBy units := by
  obtain ⟨code, constants⟩ := chunk
  obtain ⟨kept, slots⟩ := Store.extend_ok sized_codeUnit units code intact.code through
  refine ⟨⟨kept, intact.constants⟩, Contents.ext_lists ?_ rfl⟩
  simp only [contents, write, Effect.within, slots, Contents.followedBy, Array.toList_append]

theorem write_calm (intact : chunk.Intact) (units : List CodeUnit)
    (small : chunk.code.block.bytes < 2 ^ 63) (calm : (chunk.write units heap).Calm heap) :
    (chunk.write units heap).answer = .ok () := by
  obtain ⟨code, constants⟩ := chunk
  exact Store.extend_calm sized_codeUnit units code intact.code small
    ⟨calm.survived, calm.unrefused⟩

/-- Code that is written behind a program is decoded and listed as if it stood alone, at later
offsets. Behind half a load, its first byte becomes the operand. -/
theorem decode_distributes (chunk : Chunk) (intact : chunk.Intact) (units : List CodeUnit)
    (heap : Heap) :
    let written := chunk.write units heap
    (chunk.code.block.bytes < 2 ^ 63 → written.Calm heap → written.answer = .ok ()) ∧
      (written.answer = .ok () →
        (∀ instructions, chunk.decode = .ok (.ok instructions) →
          (∀ second : Chunk, second.Intact → second.units = .ok units →
            second.constants.items = chunk.constants.items →
            ∃ steps later, chunk.instructions = .ok steps ∧ second.instructions = .ok later ∧
              written.object.instructions =
                .ok (steps ++ later.map (Instruction.shiftStep chunk.size))) ∧
          ∀ title, ∃ text more, chunk.listing title = .ok text ∧
            written.object.listing title = .ok (text ++ more)) ∧
        ∀ offset opcode first rest,
          chunk.decode = .ok (.error (.truncatedOperand offset opcode)) → units = first :: rest →
          ∃ (passed : List Instruction) (unit : CodeUnit)
            (later : List (Except CodeFault Instruction)),
            offset + 1 = chunk.size ∧ chunk.unitAt? offset = .ok (some unit) ∧
            chunk.instructions =
              .ok (passed.map .ok ++ [.error (.truncatedOperand offset opcode)]) ∧
            written.object.instructions = .ok (passed.map .ok ++
              .ok ⟨offset, unit.line, .constant, some first.byte,
                chunk.contents.constant? first.byte⟩ :: later)) := by
  refine ⟨write_calm intact units, fun through => ?_⟩
  obtain ⟨kept, same⟩ := write_contents intact units through
  rw [instructions_intact intact, instructions_intact kept, same, decode_intact intact,
    ← size_contents intact]
  constructor
  · intro instructions decoded
    obtain ⟨walked, more, rows⟩ := Contents.program_followed (Except.ok.inj decoded) units
    refine ⟨fun second intactToo code pool => ⟨_, _, rfl, instructions_intact intactToo, ?_⟩,
      fun title => ⟨_, String.ofList (more.flatMap Row.chars), listing_intact intact title, ?_⟩⟩
    · have alone : second.contents = chunk.contents.replacedBy units := by
        rw [Pool.items, Pool.items, Store.items_intact _ intactToo.constants,
          Store.items_intact _ intact.constants, Except.ok.injEq] at pool
        rw [Chunk.units, Store.items_intact _ intactToo.code, Except.ok.injEq] at code
        exact Contents.ext_lists code pool
      rw [walked, alone]
    · rw [listing_intact kept, same, rows, Row.listing_append]
  · rintro offset opcode first rest fails rfl
    obtain ⟨passed, unit, later, last, found, walked, walkedToo⟩ :=
      Contents.truncated_followed (Except.ok.inj fails) first rest
    exact ⟨passed, unit, later, last, (unitAt?_intact intact offset).trans (congrArg _ found),
      congrArg Except.ok walked, congrArg Except.ok walkedToo⟩

def finished : Chunk := { code := ⟨#[⟨1, 3⟩], 1⟩ }

def unfinished : Chunk := { code := ⟨#[⟨0, 4⟩], 1⟩ }

theorem finished_walk : finished.Intact ∧
    finished.contents.instructions = [.ok ⟨0, 3, .ret, none, none⟩] := by
  have returned : finished.contents.instructionsFrom 0 =
      .ok ⟨0, 3, .ret, none, none⟩ :: finished.contents.instructionsFrom 1 :=
    Contents.instructionsFrom_ok rfl rfl
  refine ⟨⟨by decide, by decide⟩, ?_⟩
  rw [Contents.instructions, returned, Contents.instructionsFrom_end rfl]

theorem unfinished_walk : unfinished.Intact ∧
    unfinished.contents.instructions = [.error (.truncatedOperand 0 .constant)] :=
  ⟨⟨by decide, by decide⟩, Contents.instructionsFrom_error rfl rfl⟩

/-- Half a load stands behind the return as it stands alone, and the byte of a return makes it
whole. -/
theorem decode_distributes_unfinished :
    finished.Intact ∧ unfinished.Intact ∧
      (finished.write [⟨0, 4⟩] {}).object.instructions =
        .ok [.ok ⟨0, 3, .ret, none, none⟩, .error (.truncatedOperand 1 .constant)] ∧
      ∃ later, (unfinished.write [⟨1, 5⟩] {}).object.instructions =
        .ok (.ok ⟨0, 4, .constant, some 1, none⟩ :: later) := by
  obtain ⟨intact, walked⟩ := finished_walk
  obtain ⟨half, walkedToo⟩ := unfinished_walk
  have decoded : finished.decode = .ok (.ok [⟨0, 3, .ret, none, none⟩]) := by
    rw [decode_intact intact, walked]
    rfl
  have fails : unfinished.decode = .ok (.error (.truncatedOperand 0 .constant)) := by
    rw [decode_intact half, walkedToo]
    rfl
  obtain ⟨goes, written⟩ := decode_distributes finished intact [⟨0, 4⟩] {}
  obtain ⟨goesToo, writtenToo⟩ := decode_distributes unfinished half [⟨1, 5⟩] {}
  have through := goes (by decide) (by decide +kernel)
  have throughToo := goesToo (by decide) (by decide +kernel)
  refine ⟨intact, half, ?_, ?_⟩
  · obtain ⟨steps, later, before, alone, after⟩ :=
      ((written through).1 _ decoded).1 unfinished half rfl rfl
    rw [instructions_intact intact, walked] at before
    rw [instructions_intact half, walkedToo] at alone
    cases before
    cases alone
    exact after
  · obtain ⟨passed, unit, later, -, there, before, after⟩ :=
      (writtenToo throughToo).2 0 .constant ⟨1, 5⟩ [] fails rfl
    rw [instructions_intact half, walkedToo, Except.ok.injEq] at before
    cases there
    cases passed with
    | nil => exact ⟨later, after⟩
    | cons first rest => simp at before

end Chunk

end MeteredChunk
