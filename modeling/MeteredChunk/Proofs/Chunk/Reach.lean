import MeteredChunk.Proofs.Chunk.Validation

/-!
How far decoding reaches. Code that does not decode starts with a longest program, and the
fault tells what stands behind it. A walk that is taken call by call gives the instructions
of that program, then the fault, and from then on nothing.
-/

namespace MeteredChunk

namespace Phrase

/-- The bytes before `offset` are a program, and no phrase begins at `offset`, which is inside. -/
structure Breaks (bytes : List UInt8) (offset : Nat) (program : List Phrase) : Prop where
  inside : offset < bytes.length
  front : bytes.take offset = program.flatMap encode
  stuck : ∀ phrase : Phrase, ¬ phrase.encode <+: bytes.drop offset

variable {bytes : List UInt8} {offset other : Nat} {program others : List Phrase}

/-- No program that the bytes start with is longer. -/
theorem Breaks.longest (breaks : Breaks bytes offset program) (within : other ≤ bytes.length)
    (front : bytes.take other = others.flatMap encode) : other ≤ offset := by
  by_contra beyond
  have behind : bytes.take offset ++ (bytes.drop offset).take (other - offset) =
      bytes.take other := by
    rw [← List.take_add]
    congr 1
    omega
  rw [breaks.front, front] at behind
  obtain ⟨phrases, rfl, spelled⟩ := (encode_behind program _ others).mp behind
  cases phrases with
  | nil =>
      have lengths := congrArg List.length spelled
      rw [List.length_take, List.length_drop, List.flatMap_nil, List.length_nil] at lengths
      omega
  | cons phrase rest =>
      rw [List.flatMap_cons] at spelled
      have begins : phrase.encode <+: (bytes.drop offset).take (other - offset) :=
        spelled ▸ List.prefix_append _ _
      exact breaks.stuck phrase (begins.trans (List.take_prefix _ _))

theorem Breaks.unique (breaks : Breaks bytes offset program)
    (breaksToo : Breaks bytes other others) : other = offset ∧ others = program := by
  have same : other = offset := le_antisymm
    (breaks.longest breaksToo.inside.le breaksToo.front)
    (breaksToo.longest breaks.inside.le breaks.front)
  subst same
  exact ⟨rfl, encode_inj _ _ (breaksToo.front.symm.trans breaks.front)⟩

end Phrase

structure CodeFault.Explains (bytes : List UInt8) (offset : Nat) (fault : CodeFault) : Prop where
  unknown : ∀ byte, fault = .unknownOpcode offset byte ↔
    bytes[offset]? = some byte ∧ ∀ opcode : Opcode, opcode.toByte ≠ byte
  truncated : fault = .truncatedOperand offset .constant ↔
    bytes[offset]? = some 0 ∧ offset + 1 = bytes.length
  either : (∃ byte, fault = .unknownOpcode offset byte) ∨ fault = .truncatedOperand offset .constant

namespace Contents

variable {contents : Contents} {offset place : Nat} {unit : CodeUnit} {passed : List Instruction}

inductive Passes (contents : Contents) : Nat → List Instruction → Nat → Prop
  | stay (offset : Nat) : contents.Passes offset [] offset
  | pass {offset place : Nat} {unit : CodeUnit} {instruction : Instruction}
      {passed : List Instruction} (found : contents.unitAt? offset = some unit)
      (decoded : contents.decodeAt offset unit = .ok instruction)
      (onward : contents.Passes (offset + instruction.width) passed place) :
      contents.Passes offset (instruction :: passed) place

namespace Passes

theorem walk (passes : contents.Passes offset passed place) :
    contents.instructionsFrom offset = passed.map .ok ++ contents.instructionsFrom place := by
  induction passes with
  | stay offset => rfl
  | pass found decoded onward ih =>
      rw [instructionsFrom_ok found decoded, ih]
      rfl

theorem bytes (passes : contents.Passes offset passed place) :
    contents.bytes.drop offset = passed.flatMap Instruction.encode ++ contents.bytes.drop place := by
  induction passes with
  | stay offset => rfl
  | pass found decoded onward ih =>
      obtain ⟨-, told, written⟩ := (decodeAt_ok found _).mp decoded
      rw [List.flatMap_cons, List.append_assoc, ← ih]
      exact (drop_encode _ told.formed _).mpr ⟨written, rfl⟩

theorem placed (passes : contents.Passes offset passed place) : contents.Placed offset passed := by
  induction passes with
  | stay offset => trivial
  | pass found decoded onward ih =>
      obtain ⟨here, told, -⟩ := (decodeAt_ok found _).mp decoded
      exact ⟨here, told, ih⟩

theorem program (passes : contents.Passes 0 passed place) (within : place ≤ contents.bytes.length) :
    ∃ program : List Phrase, passed.map Instruction.heading = program.map Phrase.heading ∧
      contents.bytes.take place = program.flatMap Phrase.encode := by
  obtain ⟨-, -, told⟩ := placed_chain 0 passed passes.placed
  obtain ⟨program, same⟩ := Instruction.program_exists passed
    fun instruction member => (told instruction member).formed
  refine ⟨program, same, ?_⟩
  have whole := passes.bytes
  rw [List.drop_zero, Instruction.encode_headings passed program same] at whole
  have length : (program.flatMap Phrase.encode).length = place := by
    have lengths := congrArg List.length whole
    rw [List.length_append, List.length_drop] at lengths
    omega
  rw [whole, ← length, List.take_left]

end Passes

/-- A walk passes over instructions to the end of the code, or to where none stands. -/
theorem passes_exists (contents : Contents) (offset : Nat) :
    ∃ passed place, contents.Passes offset passed place ∧
      (contents.unitAt? place = none ∨ ∃ unit fault, contents.unitAt? place = some unit ∧
        contents.decodeAt place unit = .error fault) := by
  fun_induction contents.instructionsFrom offset with
  | case1 offset ends => exact ⟨[], offset, .stay offset, .inl ends⟩
  | case2 offset unit found fault broken =>
      exact ⟨[], offset, .stay offset, .inr ⟨unit, fault, found, broken⟩⟩
  | case3 offset unit found instruction decoded ih =>
      obtain ⟨passed, place, passes, ends⟩ := ih
      exact ⟨instruction :: passed, place, .pass found decoded passes, ends⟩

theorem passes_whole {instructions : List Instruction}
    (decoded : contents.instructions.mapM id = .ok instructions) :
    ∃ place, contents.Passes 0 instructions place ∧ contents.unitAt? place = none := by
  obtain ⟨passed, place, passes, ends⟩ := contents.passes_exists 0
  have walked := (collect_map _ _).mp decoded
  rw [Contents.instructions, passes.walk] at walked
  rcases ends with ends | ⟨unit, fault, found, broken⟩
  · rw [instructionsFrom_end ends, List.append_nil] at walked
    obtain rfl := List.map_injective_iff.mpr (fun _ _ => Except.ok.inj) walked
    exact ⟨place, passes, ends⟩
  · have member : Except.error fault ∈ instructions.map (Except.ok (ε := CodeFault)) := by
      rw [← walked, instructionsFrom_error found broken]
      simp
    simp at member

theorem passes_broken {fault : CodeFault}
    (fails : contents.instructions.mapM id = .error fault) :
    ∃ passed place unit, contents.Passes 0 passed place ∧ contents.unitAt? place = some unit ∧
      contents.decodeAt place unit = .error fault := by
  obtain ⟨passed, place, passes, ends⟩ := contents.passes_exists 0
  have member := (collect_fault contents 0 fault).mp fails
  rw [passes.walk] at member
  rcases ends with ends | ⟨unit, other, found, broken⟩
  · rw [instructionsFrom_end ends] at member
    simp at member
  · rw [instructionsFrom_error found broken] at member
    obtain rfl : fault = other := by simpa using member
    exact ⟨passed, place, unit, passes, found, broken⟩

/-- Nothing can be decoded where no phrase begins, and there alone. -/
theorem decodeAt_stuck (found : contents.unitAt? offset = some unit) :
    (∃ fault, contents.decodeAt offset unit = .error fault) ↔
      ∀ phrase : Phrase, ¬ phrase.encode <+: contents.bytes.drop offset := by
  constructor
  · rintro ⟨fault, broken⟩ phrase written
    rw [bytes_drop found] at written
    obtain ⟨byte, operands⟩ := List.cons_prefix_cons.mp written
    have known := (Opcode.ofByte?_eq_some _ _).mpr byte
    cases phrase with
    | load index =>
        rw [decodeAt_load known (byteAt?_some.mpr operands)] at broken
        cases broken
    | ret =>
        rw [decodeAt_ret known] at broken
        cases broken
  · intro stuck
    cases decoded : contents.decodeAt offset unit with
    | error fault => exact ⟨fault, rfl⟩
    | ok instruction =>
        obtain ⟨-, told, written⟩ := (decodeAt_ok found instruction).mp decoded
        obtain ⟨phrase, heading⟩ := (Instruction.formed_iff _).mp told.formed
        obtain ⟨opcode, operand⟩ := Prod.mk.inj heading
        rw [Instruction.encode, ← opcode, ← operand] at written
        exact absurd written (stuck phrase)

theorem decodeAt_explains {fault : CodeFault} (found : contents.unitAt? offset = some unit)
    (broken : contents.decodeAt offset unit = .error fault) :
    fault.Explains contents.bytes offset := by
  have inside : offset < contents.size := (Array.getElem?_eq_some_iff.mp found).1
  have there : contents.bytes[offset]? = some unit.byte := by
    rw [← byteAt?_eq, byteAt?, found]
    rfl
  cases known : Opcode.ofByte? unit.byte with
  | none =>
      rw [decodeAt_unknown known] at broken
      cases broken
      have foreign (opcode : Opcode) : opcode.toByte ≠ unit.byte := fun same => by
        cases known.symm.trans ((Opcode.ofByte?_eq_some _ _).mpr same)
      refine ⟨fun byte => ?_, ?_, .inl ⟨_, rfl⟩⟩
      · rw [there, CodeFault.unknownOpcode.injEq, Option.some.injEq]
        exact ⟨fun same => ⟨same.2, same.2 ▸ foreign⟩, fun same => ⟨rfl, same.1⟩⟩
      · rw [there]
        refine iff_of_false (by simp) fun last => foreign .constant ?_
        exact (Option.some.inj last.1).symm
  | some opcode =>
      have byte := (Opcode.ofByte?_eq_some _ _).mp known
      cases opcode with
      | ret =>
          rw [decodeAt_ret known] at broken
          cases broken
      | constant =>
          cases behind : contents.byteAt? (offset + 1) with
          | some index =>
              rw [decodeAt_load known behind] at broken
              cases broken
          | none =>
              rw [decodeAt_cutShort known behind] at broken
              cases broken
              rw [byteAt?, Option.map_eq_none_iff] at behind
              have last := unitAt?_none.mp behind
              refine ⟨fun other => ?_, ?_, .inr rfl⟩
              · rw [there]
                refine iff_of_false (by simp) fun foreign => foreign.2 .constant ?_
                exact byte.trans (Option.some.inj foreign.1)
              · rw [there, length_bytes]
                exact ⟨fun _ => ⟨congrArg some byte.symm, by omega⟩, fun _ => rfl⟩

/-- Decoding that fails has come through a program to where no phrase begins. -/
theorem collect_breaks {fault : CodeFault} (fails : contents.instructions.mapM id = .error fault) :
    ∃ passed place program, contents.instructions = passed.map .ok ++ [.error fault] ∧
      passed.map Instruction.heading = program.map Phrase.heading ∧ contents.Placed 0 passed ∧
      Phrase.Breaks contents.bytes place program ∧ fault.Explains contents.bytes place := by
  obtain ⟨passed, place, unit, passes, found, broken⟩ := passes_broken fails
  have inside : place < contents.bytes.length := by
    rw [length_bytes]
    exact (Array.getElem?_eq_some_iff.mp found).1
  obtain ⟨program, same, front⟩ := passes.program inside.le
  refine ⟨passed, place, program, ?_, same, passes.placed, ⟨inside, front, ?_⟩,
    decodeAt_explains found broken⟩
  · rw [instructions, passes.walk, instructionsFrom_error found broken]
  · exact (decodeAt_stuck found).mp ⟨fault, broken⟩

theorem instructionsFrom_changed {other : Contents} {distance : Nat}
    {change : Except CodeFault Instruction → Except CodeFault Instruction}
    (units : ∀ offset, other.unitAt? (distance + offset) = contents.unitAt? offset)
    (steps : ∀ offset unit,
      other.decodeAt (distance + offset) unit = change (contents.decodeAt offset unit))
    (goes : ∀ instruction, ∃ changed, change (.ok instruction) = .ok changed ∧
      changed.width = instruction.width)
    (breaks : ∀ fault, ∃ changed, change (.error fault) = .error changed) (offset : Nat) :
    other.instructionsFrom (distance + offset) =
      (contents.instructionsFrom offset).map change := by
  fun_induction contents.instructionsFrom offset with
  | case1 offset ends => exact instructionsFrom_end ((units offset).trans ends)
  | case2 offset unit found fault broken =>
      obtain ⟨changed, same⟩ := breaks fault
      have step := steps offset unit
      rw [broken, same] at step
      rw [instructionsFrom_error ((units offset).trans found) step, List.map_singleton, same]
  | case3 offset unit found instruction decoded ih =>
      obtain ⟨changed, same, width⟩ := goes instruction
      have step := steps offset unit
      rw [decoded, same] at step
      rw [instructionsFrom_ok ((units offset).trans found) step, List.map_cons, same, width,
        Nat.add_assoc, ih]

def call? (contents : Contents) (offset : Nat) : Option (Except CodeFault Instruction × Nat) :=
  (contents.unitAt? offset).map fun unit =>
    match contents.decodeAt offset unit with
    | .ok instruction => (.ok instruction, offset + instruction.width)
    | .error fault => (.error fault, contents.size)

theorem instructionsFrom_gives (contents : Contents) (offset : Nat) :
    Iteration.Gives contents.call? offset (contents.instructionsFrom offset) := by
  fun_induction contents.instructionsFrom offset with
  | case1 offset ends =>
      apply Iteration.Gives.done
      rw [call?, ends, Option.map_none]
  | case2 offset unit found fault broken =>
      have ends : contents.call? contents.size = none := by
        rw [call?, unitAt?_none.mpr le_rfl, Option.map_none]
      apply Iteration.Gives.next _ (.done ends)
      simp only [call?, found, broken, Option.map_some]
  | case3 offset unit found instruction decoded ih =>
      apply Iteration.Gives.next _ ih
      simp only [call?, found, decoded, Option.map_some]

end Contents

namespace Chunk

def call? (chunk : Chunk) (offset : Nat) :
    Except Fault (Option (Except CodeFault Instruction × Nat)) :=
  chunk.walk (·.call? offset) fun called => Instruction.loads (called.map Prod.fst).toList

/-- The answers of a number of calls. A walk that has ended stays where it is. -/
def calls (chunk : Chunk) (offset : Nat) :
    Nat → Except Fault (List (Option (Except CodeFault Instruction)))
  | 0 => return []
  | count + 1 => do
      match ← chunk.call? offset with
      | some (step, onward) => return some step :: (← chunk.calls onward count)
      | none => return none :: (← chunk.calls offset count)

variable {chunk : Chunk}

theorem calls_eq (intact : chunk.Intact) (offset count : Nat) :
    chunk.calls offset count = .ok (Iteration.calls chunk.contents.call? offset count) := by
  induction count generalizing offset with
  | zero => rfl
  | succ count ih =>
      rw [calls, call?, walk_intact intact, Iteration.calls]
      cases chunk.contents.call? offset with
      | none =>
          simp only [ih]
          rfl
      | some call =>
          simp only [ih]
          rfl

/-- The calls give the steps of the walk, and from then on nothing. -/
theorem calls_walk (intact : chunk.Intact) (offset count : Nat) :
    chunk.calls offset count = .ok (((chunk.contents.instructionsFrom offset).map some ++
      List.replicate count none).take count) := by
  rw [calls_eq intact, (chunk.contents.instructionsFrom_gives offset).calls]

/-- Decoding fails exactly if the code breaks off behind a longest program, and the fault tells the
byte there. The iterator gives the instructions of that program, then the fault, and from then on
nothing. -/
theorem decode_breaks (chunk : Chunk) (intact : chunk.Intact) :
    ∃ bytes steps outcome, chunk.bytes = .ok bytes ∧ chunk.instructions = .ok steps ∧
      chunk.decode = .ok outcome ∧
      ((∃ fault, outcome = .error fault) ↔ ∃ offset program, Phrase.Breaks bytes offset program) ∧
      (∀ offset program, Phrase.Breaks bytes offset program →
        (∀ other others, Phrase.Breaks bytes other others → other = offset ∧ others = program) ∧
        (∀ other, ∀ others : List Phrase, other ≤ bytes.length →
          bytes.take other = others.flatMap Phrase.encode → other ≤ offset) ∧
        ∀ fault, outcome = .error fault → fault.Explains bytes offset ∧
          ∃ passed, steps = passed.map .ok ++ [.error fault] ∧
            passed.map Instruction.heading = program.map Phrase.heading ∧
            chunk.contents.Placed 0 passed) ∧
      (∀ instructions, outcome = .ok instructions → steps = instructions.map .ok) ∧
      ∀ count, chunk.calls 0 count =
        .ok ((steps.map some ++ List.replicate count none).take count) := by
  have decodes := decodes_iff intact
  rw [decode_intact intact] at decodes
  refine ⟨_, _, _, bytes_intact intact, instructions_intact intact, decode_intact intact,
    ⟨?_, ?_⟩, fun offset program breaks => ⟨fun _ _ => breaks.unique, fun _ _ => breaks.longest,
      fun fault fails => ?_⟩, fun instructions => (Contents.collect_map _ _).mp,
    calls_walk intact 0⟩
  · rintro ⟨fault, fails⟩
    obtain ⟨-, place, program, -, -, -, breaks, -⟩ := Contents.collect_breaks fails
    exact ⟨place, program, breaks⟩
  · rintro ⟨offset, program, breaks⟩
    cases collected : chunk.contents.instructions.mapM id with
    | error fault => exact ⟨fault, rfl⟩
    | ok instructions =>
        obtain ⟨whole, written⟩ := decodes.mp ⟨instructions, congrArg Except.ok collected⟩
        have longest := breaks.longest le_rfl ((List.take_length).trans written)
        exact absurd breaks.inside (Nat.not_lt.mpr longest)
  · obtain ⟨passed, place, front, walked, same, placed, breaksToo, explains⟩ :=
      Contents.collect_breaks fails
    obtain ⟨rfl, rfl⟩ := breaks.unique breaksToo
    exact ⟨explains, passed, walked, same, placed⟩

def halved : Chunk := { code := ⟨#[⟨0, 2⟩, ⟨1, 2⟩, ⟨1, 3⟩, ⟨0, 3⟩, ⟨0, 0⟩], 4⟩ }

theorem decode_breaks_halved :
    halved.Intact ∧ Phrase.Breaks [0, 1, 1, 0] 3 [.load 1, .ret] ∧
      halved.decode = .ok (.error (.truncatedOperand 3 .constant)) := by
  have intact : halved.Intact := ⟨by decide, by decide⟩
  have breaks : Phrase.Breaks [0, 1, 1, 0] 3 [.load 1, .ret] := by
    refine ⟨by decide, by decide, fun phrase => ?_⟩
    cases phrase with
    | load index => simp [Phrase.encode, Phrase.opcode, Phrase.operand, Opcode.toByte]
    | ret => decide
  obtain ⟨bytes, steps, outcome, read, -, decoded, breaksOff, fails, -⟩ :=
    decode_breaks halved intact
  cases read
  obtain ⟨fault, rfl⟩ := breaksOff.mpr ⟨3, _, breaks⟩
  have explains := ((fails 3 _ breaks).2.2 fault rfl).1
  rw [explains.truncated.mpr ⟨rfl, rfl⟩] at decoded
  exact ⟨intact, breaks, decoded⟩

end Chunk

end MeteredChunk
