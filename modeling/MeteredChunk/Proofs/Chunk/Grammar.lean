import MeteredChunk.Proofs.Chunk.Balance

/-!
The grammar of code, and programs written and read back.
-/

namespace MeteredChunk

/-! ## Grammar

The grammar of code: an opcode and the operand that it takes, one such phrase after
the other. Decoding accepts the code that is written in it and no other, and an
instruction says, besides, where its phrase stands and which constant it loads.
-/

namespace Opcode

theorem ofByte?_eq_some (byte : UInt8) (opcode : Opcode) :
    ofByte? byte = some opcode ↔ opcode.toByte = byte := by
  unfold ofByte? all
  constructor
  · intro found
    simpa using List.find?_some found
  · rintro rfl
    cases opcode <;> rfl

end Opcode

inductive Phrase where
  | load (index : UInt8)
  | ret
  deriving DecidableEq

namespace Phrase

def opcode : Phrase → Opcode
  | load _ => .constant
  | ret => .ret

def operand : Phrase → Option UInt8
  | load index => some index
  | ret => none

def encode (phrase : Phrase) : List UInt8 := phrase.opcode.toByte :: phrase.operand.toList

def heading (phrase : Phrase) : Opcode × Option UInt8 := (phrase.opcode, phrase.operand)

theorem encode_inj (one other : List Phrase) (same : one.flatMap encode = other.flatMap encode) :
    one = other := by
  induction one generalizing other with
  | nil => cases other <;> simp_all [encode]
  | cons phrase rest ih =>
      cases other with
      | nil => simp [encode] at same
      | cons phraseToo restToo =>
          cases phrase <;> cases phraseToo <;>
            simp [encode, opcode, operand, Opcode.toByte] at same
          case load.load =>
            rw [same.1, ih restToo same.2]
          case ret.ret =>
            rw [ih restToo same]

end Phrase

namespace Instruction

def encode (instruction : Instruction) : List UInt8 :=
  instruction.opcode.toByte :: instruction.operand.toList

def heading (instruction : Instruction) : Opcode × Option UInt8 :=
  (instruction.opcode, instruction.operand)

def Formed (instruction : Instruction) : Prop :=
  instruction.operand.toList.length = instruction.opcode.operands

theorem formed_iff (instruction : Instruction) :
    instruction.Formed ↔ ∃ phrase : Phrase, phrase.heading = instruction.heading := by
  obtain ⟨offset, line, opcode, operand, constant⟩ := instruction
  unfold Formed heading
  constructor
  · intro formed
    cases opcode <;> cases operand <;> simp [Opcode.operands] at formed
    · exact ⟨.load _, rfl⟩
    · exact ⟨.ret, rfl⟩
  · rintro ⟨phrase, same⟩
    cases phrase <;> cases same <;> rfl

theorem encode_length (instruction : Instruction) (formed : instruction.Formed) :
    instruction.encode.length = instruction.width := by
  unfold Formed at formed
  simp only [encode, List.length_cons, width, formed]
  omega

theorem encode_headings (instructions : List Instruction) (program : List Phrase)
    (same : instructions.map heading = program.map Phrase.heading) :
    instructions.flatMap encode = program.flatMap Phrase.encode := by
  have spell (instructions : List Instruction) : instructions.flatMap encode =
      (instructions.map heading).flatMap fun said => said.1.toByte :: said.2.toList := by
    rw [List.flatMap_map]
    rfl
  rw [spell, same, List.flatMap_map]
  rfl

def loaded? (contents : Contents) (instruction : Instruction) : Option Value :=
  match instruction.opcode, instruction.operand with
  | .constant, some index => contents.constant? index
  | _, _ => none

structure Tells (contents : Contents) (instruction : Instruction) : Prop where
  formed : instruction.Formed
  line : contents.lineAt? instruction.offset = some instruction.line
  constant : instruction.constant = instruction.loaded? contents

end Instruction

namespace Contents

variable {contents : Contents} {offset : Nat} {unit : CodeUnit}

/-- Each instruction begins where the one before it ends, and the first one at the given offset. -/
def Placed (contents : Contents) : Nat → List Instruction → Prop
  | _, [] => True
  | offset, instruction :: rest =>
      instruction.offset = offset ∧ instruction.Tells contents ∧
        contents.Placed (offset + instruction.width) rest

theorem decodeAt_unknown (unknown : Opcode.ofByte? unit.byte = none) :
    contents.decodeAt offset unit = .error (.unknownOpcode offset unit.byte) := by
  simp only [decodeAt, unknown]

theorem decodeAt_ret (known : Opcode.ofByte? unit.byte = some .ret) :
    contents.decodeAt offset unit = .ok ⟨offset, unit.line, .ret, none, none⟩ := by
  simp only [decodeAt, known]
  rfl

theorem decodeAt_cutShort (known : Opcode.ofByte? unit.byte = some .constant)
    (behind : contents.byteAt? (offset + 1) = none) :
    contents.decodeAt offset unit = .error (.truncatedOperand offset .constant) := by
  simp only [decodeAt, known, behind]
  rfl

theorem decodeAt_load {index : UInt8} (known : Opcode.ofByte? unit.byte = some .constant)
    (behind : contents.byteAt? (offset + 1) = some index) :
    contents.decodeAt offset unit =
      .ok ⟨offset, unit.line, .constant, some index, contents.constant? index⟩ := by
  simp only [decodeAt, known, behind]
  rfl

theorem byteAt?_some {byte : UInt8} :
    contents.byteAt? offset = some byte ↔ [byte] <+: contents.bytes.drop offset := by
  rw [byteAt?_eq, ← List.head?_drop]
  cases contents.bytes.drop offset <;> simp [List.cons_prefix_cons, eq_comm]

theorem decodeAt_ok (found : contents.unitAt? offset = some unit) (instruction : Instruction) :
    contents.decodeAt offset unit = .ok instruction ↔
      instruction.offset = offset ∧ instruction.Tells contents ∧
        instruction.encode <+: contents.bytes.drop offset := by
  have line : contents.lineAt? offset = some unit.line := by simp [lineAt?, found]
  rw [bytes_drop found]
  constructor
  · intro decoded
    cases known : Opcode.ofByte? unit.byte with
    | none =>
        rw [decodeAt_unknown known] at decoded
        cases decoded
    | some opcode =>
        have byte := (Opcode.ofByte?_eq_some _ _).mp known
        cases opcode with
        | ret =>
            rw [decodeAt_ret known] at decoded
            cases decoded
            exact ⟨rfl, ⟨rfl, line, rfl⟩, List.cons_prefix_cons.mpr ⟨byte, List.nil_prefix⟩⟩
        | constant =>
            cases behind : contents.byteAt? (offset + 1) with
            | none =>
                rw [decodeAt_cutShort known behind] at decoded
                cases decoded
            | some index =>
                rw [decodeAt_load known behind] at decoded
                cases decoded
                exact ⟨rfl, ⟨rfl, line, rfl⟩,
                  List.cons_prefix_cons.mpr ⟨byte, byteAt?_some.mp behind⟩⟩
  · obtain ⟨place, told, opcode, operand, constant⟩ := instruction
    rintro ⟨rfl, ⟨formed, said, stands⟩, written⟩
    obtain ⟨byte, operands⟩ := List.cons_prefix_cons.mp written
    have known := (Opcode.ofByte?_eq_some _ _).mpr byte
    have same : unit.line = told := Option.some.inj (line.symm.trans said)
    dsimp only at known stands
    obtain ⟨phrase, heading⟩ := (Instruction.formed_iff _).mp formed
    cases phrase with
    | ret =>
        cases heading
        rw [decodeAt_ret known, same, stands]
        rfl
    | load index =>
        cases heading
        rw [decodeAt_load known (byteAt?_some.mpr operands), same, stands]
        rfl

theorem instructionsFrom_end (ends : contents.unitAt? offset = none) :
    contents.instructionsFrom offset = [] := by
  unfold instructionsFrom
  split <;> simp_all

theorem instructionsFrom_ok {instruction : Instruction}
    (found : contents.unitAt? offset = some unit)
    (decoded : contents.decodeAt offset unit = .ok instruction) :
    contents.instructionsFrom offset =
      .ok instruction :: contents.instructionsFrom (offset + instruction.width) := by
  rw [instructionsFrom]
  split <;> simp_all

theorem instructionsFrom_error {fault : CodeFault} (found : contents.unitAt? offset = some unit)
    (broken : contents.decodeAt offset unit = .error fault) :
    contents.instructionsFrom offset = [.error fault] := by
  rw [instructionsFrom]
  split <;> simp_all

/-- Decoding goes through as long as the walk does. -/
theorem collect_ok (instruction first : Instruction) (rest : List Instruction)
    (steps : List (Except CodeFault Instruction)) :
    (.ok instruction :: steps).mapM id = (.ok (first :: rest) : Except CodeFault _) ↔
      instruction = first ∧ steps.mapM id = .ok rest := by
  rw [List.mapM_cons]
  cases steps.mapM id <;> simp [bind, Except.bind, pure, Except.pure]

theorem collect_ok_nil (instruction : Instruction) (steps : List (Except CodeFault Instruction)) :
    (.ok instruction :: steps).mapM id ≠ (.ok [] : Except CodeFault _) := by
  rw [List.mapM_cons]
  cases steps.mapM id <;> simp [bind, Except.bind, pure, Except.pure]

theorem collect_error (fault : CodeFault) (steps : List (Except CodeFault Instruction)) :
    (.error fault :: steps).mapM id = (.error fault : Except CodeFault (List Instruction)) := by
  rw [List.mapM_cons]
  rfl

theorem drop_encode (instruction : Instruction) (formed : instruction.Formed) (rest : List UInt8) :
    contents.bytes.drop offset = instruction.encode ++ rest ↔
      instruction.encode <+: contents.bytes.drop offset ∧
        contents.bytes.drop (offset + instruction.width) = rest := by
  rw [← Instruction.encode_length instruction formed, ← List.drop_drop]
  constructor
  · intro same
    rw [same]
    exact ⟨List.prefix_append _ _, List.drop_left⟩
  · rintro ⟨⟨written, same⟩, rfl⟩
    rw [← same, List.drop_left]

/-- The walk from an offset on goes through to the end where the bytes from there on are
encodings, and each instruction is where its encoding is. -/
theorem collect_iff (offset : Nat) (instructions : List Instruction) :
    (contents.instructionsFrom offset).mapM id = .ok instructions ↔
      contents.bytes.drop offset = instructions.flatMap Instruction.encode ∧
        contents.Placed offset instructions := by
  -- On the instructions to be accepted, not on the code: where the rest is read from is theirs to
  -- tell.
  induction instructions generalizing offset with
  | nil =>
      cases found : contents.unitAt? offset with
      | none =>
          rw [instructionsFrom_end found, bytes_drop_end found]
          simp [Placed, pure, Except.pure]
      | some unit =>
          rw [bytes_drop found]
          cases decoded : contents.decodeAt offset unit with
          | error fault =>
              rw [instructionsFrom_error found decoded, collect_error]
              simp
          | ok instruction =>
              rw [instructionsFrom_ok found decoded]
              simp only [collect_ok_nil]
              simp
  | cons first rest ih =>
      cases found : contents.unitAt? offset with
      | none =>
          rw [instructionsFrom_end found, bytes_drop_end found]
          simp [Instruction.encode, pure, Except.pure]
      | some unit =>
          have read := decodeAt_ok found first
          -- Reading the first one and going on is what the concatenation asks for.
          have whole : contents.bytes.drop offset =
                (first :: rest).flatMap Instruction.encode ∧
              contents.Placed offset (first :: rest) ↔
              contents.decodeAt offset unit = .ok first ∧
                (contents.instructionsFrom (offset + first.width)).mapM id = .ok rest := by
            rw [read, ih, Placed, List.flatMap_cons]
            constructor
            · rintro ⟨bytes, place, told, placed⟩
              obtain ⟨written, others⟩ := (drop_encode first told.formed _).mp bytes
              exact ⟨⟨place, told, written⟩, others, placed⟩
            · rintro ⟨⟨place, told, written⟩, others, placed⟩
              exact ⟨(drop_encode first told.formed _).mpr ⟨written, others⟩, place, told, placed⟩
          rw [whole]
          cases decoded : contents.decodeAt offset unit with
          | error fault =>
              rw [instructionsFrom_error found decoded, collect_error]
              simp
          | ok instruction =>
              rw [instructionsFrom_ok found decoded, collect_ok, Except.ok.injEq]
              constructor
              · rintro ⟨rfl, through⟩
                exact ⟨rfl, through⟩
              · rintro ⟨rfl, through⟩
                exact ⟨rfl, through⟩

theorem placed_exists (program : List Phrase) (offset : Nat)
    (written : contents.bytes.drop offset = program.flatMap Phrase.encode) :
    ∃ instructions : List Instruction,
      instructions.map Instruction.heading = program.map Phrase.heading ∧
        contents.Placed offset instructions := by
  induction program generalizing offset with
  | nil => exact ⟨[], rfl, trivial⟩
  | cons phrase rest ih =>
      cases found : contents.unitAt? offset with
      | none =>
          rw [bytes_drop_end found] at written
          simp [Phrase.encode] at written
      | some unit =>
          let blank : Instruction := ⟨offset, unit.line, phrase.opcode, phrase.operand, none⟩
          let instruction := { blank with constant := blank.loaded? contents }
          have formed : instruction.Formed := (instruction.formed_iff).mpr ⟨phrase, rfl⟩
          have line : contents.lineAt? offset = some unit.line := by simp [lineAt?, found]
          obtain ⟨-, others⟩ := (drop_encode instruction formed _).mp written
          obtain ⟨instructions, same, placed⟩ := ih _ others
          refine ⟨instruction :: instructions, ?_, rfl, ⟨formed, line, rfl⟩, placed⟩
          rw [List.map_cons, same]
          rfl

/-- A walk goes through exactly on the bytes of a program, and then says what the program says. -/
theorem collect_program (program : List Phrase) (offset : Nat) :
    contents.bytes.drop offset = program.flatMap Phrase.encode ↔
      ∃ instructions, (contents.instructionsFrom offset).mapM id = .ok instructions ∧
        instructions.map Instruction.heading = program.map Phrase.heading := by
  constructor
  · intro written
    obtain ⟨instructions, same, placed⟩ := placed_exists program offset written
    refine ⟨instructions, (collect_iff offset instructions).mpr ⟨?_, placed⟩, same⟩
    rw [written, Instruction.encode_headings instructions program same]
  · rintro ⟨instructions, through, same⟩
    rw [((collect_iff offset instructions).mp through).1]
    exact Instruction.encode_headings instructions program same

structure Filled (contents : Contents) (instructions : List Instruction) : Prop where
  first : ∀ instruction ∈ instructions.head?, instruction.offset = 0
  next : instructions.IsChain fun before after => after.offset = before.offset + before.width
  whole : (instructions.map Instruction.width).sum = contents.size
  told : ∀ instruction ∈ instructions, instruction.Tells contents

theorem placed_chain (offset : Nat) (instructions : List Instruction)
    (placed : contents.Placed offset instructions) :
    (∀ instruction ∈ instructions.head?, instruction.offset = offset) ∧
      (instructions.IsChain fun before after => after.offset = before.offset + before.width) ∧
      ∀ instruction ∈ instructions, instruction.Tells contents := by
  induction instructions generalizing offset with
  | nil => simp
  | cons first rest ih =>
      obtain ⟨place, told, others⟩ := placed
      obtain ⟨start, chain, allTold⟩ := ih _ others
      refine ⟨by simpa using place, ?_, by simpa using ⟨told, allTold⟩⟩
      cases rest with
      | nil => exact .singleton first
      | cons second later =>
          refine List.isChain_cons_cons.mpr ⟨?_, chain⟩
          rw [start second rfl, place]

theorem placed_filled (instructions : List Instruction)
    (bytes : contents.bytes = instructions.flatMap Instruction.encode)
    (placed : contents.Placed 0 instructions) : contents.Filled instructions := by
  obtain ⟨first, next, told⟩ := placed_chain 0 instructions placed
  refine ⟨first, next, ?_, told⟩
  have widths : instructions.map Instruction.width =
      instructions.map fun instruction => instruction.encode.length :=
    List.map_congr_left fun instruction member =>
      (Instruction.encode_length instruction (told instruction member).formed).symm
  rw [widths, ← List.length_flatMap, ← bytes]
  simp [Contents.bytes, size]

end Contents

/-! ## Round trip

Writing a program and reading it back. The bytes of a program are its phrases one after
the other, and no other program has the same bytes.
-/

structure Statement where
  phrase : Phrase
  line : UInt32
  operandLine : UInt32

namespace Statement

def units (statement : Statement) : List CodeUnit :=
  ⟨statement.phrase.opcode.toByte, statement.line⟩ ::
    statement.phrase.operand.toList.map (⟨·, statement.operandLine⟩)

theorem units_bytes (statement : Statement) :
    statement.units.map CodeUnit.byte = statement.phrase.encode := by
  cases statement with
  | mk phrase line operandLine => cases phrase <;> rfl

end Statement

namespace Chunk

def writeStatement (statement : Statement) (heap : Heap) (chunk : Chunk) : Effect Chunk Unit :=
  (chunk.writeOpcode statement.phrase.opcode statement.line heap).andThen fun _ chunk heap =>
    match statement.phrase.operand with
    | none => .done () chunk heap
    | some operand => chunk.writeByte operand statement.operandLine heap

def compose (chunk : Chunk) (heap : Heap) : List Statement → Effect Chunk Unit
  | [] => .done () chunk heap
  | statement :: rest =>
      (chunk.writeStatement statement heap).andThen fun _ chunk heap => chunk.compose heap rest

theorem within_andThen {σ τ : Type} (place : σ → τ) (effect : Effect σ Unit)
    (next : Unit → σ → Heap → Effect σ Unit) (nextToo : Unit → τ → Heap → Effect τ Unit)
    (same : ∀ answer object heap, (next answer object heap).within place =
      nextToo answer (place object) heap) :
    (effect.andThen next).within place = (effect.within place).andThen nextToo := by
  obtain ⟨answer, object, heap⟩ := effect
  cases answer with
  | ok answer => exact same answer object heap
  | error fault => rfl

theorem write_append (chunk : Chunk) (heap : Heap) (first second : List CodeUnit) :
    chunk.write (first ++ second) heap =
      (chunk.write first heap).andThen fun _ chunk heap => chunk.write second heap := by
  obtain ⟨code, constants⟩ := chunk
  simp only [write, Store.extend_append]
  exact within_andThen _ _ _ _ fun _ _ _ => rfl

theorem write_singleton (chunk : Chunk) (heap : Heap) (unit : CodeUnit) :
    chunk.write [unit] heap = chunk.writeByte unit.byte unit.line heap := by
  obtain ⟨code, constants⟩ := chunk
  simp only [write, writeByte, Store.extend]
  generalize Store.push _ heap code = pushed
  obtain ⟨answer, object, heap⟩ := pushed
  cases answer <;> rfl

theorem writeStatement_eq (statement : Statement) (heap : Heap) (chunk : Chunk) :
    chunk.writeStatement statement heap = chunk.write statement.units heap := by
  obtain ⟨phrase, line, operandLine⟩ := statement
  unfold writeStatement
  cases phrase with
  | ret =>
      rw [Statement.units]
      simp only [Phrase.operand, Option.toList_none, List.map_nil]
      rw [write_singleton, writeOpcode]
      generalize chunk.writeByte _ line heap = written
      obtain ⟨answer, object, heap⟩ := written
      cases answer <;> rfl
  | load index =>
      change _ = chunk.write ([⟨Opcode.constant.toByte, line⟩] ++ [⟨index, operandLine⟩]) heap
      rw [write_append, write_singleton]
      simp only [write_singleton]
      rfl

/-- Writing a program byte by byte is writing all of its bytes. -/
theorem compose_eq (program : List Statement) (heap : Heap) (chunk : Chunk) :
    chunk.compose heap program = chunk.write (program.flatMap Statement.units) heap := by
  induction program generalizing chunk heap with
  | nil =>
      obtain ⟨code, constants⟩ := chunk
      rfl
  | cons statement rest ih =>
      rw [List.flatMap_cons, write_append, compose, writeStatement_eq]
      simp only [ih]

theorem write_ok (units : List CodeUnit) (heap : Heap) (chunk : Chunk) (intact : chunk.Intact)
    (through : (chunk.write units heap).answer = .ok ()) :
    (chunk.write units heap).object.Intact ∧
      (chunk.write units heap).object.contents.bytes =
        chunk.contents.bytes ++ units.map CodeUnit.byte := by
  obtain ⟨code, constants⟩ := chunk
  obtain ⟨kept, slots⟩ := Store.extend_ok sized_codeUnit units code intact.code through
  refine ⟨⟨kept, intact.constants⟩, ?_⟩
  simp only [Contents.bytes, contents, write, Effect.within, slots, List.map_append]

/-- The program that a chunk was given is the one that is read from it. -/
theorem compose_decode (program : List Statement) (heap : Heap) (constants : Pool)
    (intact : constants.values.Intact)
    (through : ((⟨{}, constants⟩ : Chunk).compose heap program).answer = .ok ()) :
    ∃ instructions,
      ((⟨{}, constants⟩ : Chunk).compose heap program).object.decode = .ok (.ok instructions) ∧
        instructions.map Instruction.heading =
          program.map fun statement => statement.phrase.heading := by
  rw [compose_eq] at through ⊢
  obtain ⟨kept, bytes⟩ := write_ok _ heap ⟨{}, constants⟩ ⟨Nat.zero_le _, intact⟩ through
  rw [decode_intact kept]
  have spelled : (program.flatMap Statement.units).map CodeUnit.byte =
      (program.map Statement.phrase).flatMap Phrase.encode := by
    rw [List.map_flatMap, List.flatMap_map]
    simp only [Statement.units_bytes]
  rw [spelled] at bytes
  obtain ⟨instructions, collected, same⟩ := (Contents.collect_program _ 0).mp bytes
  refine ⟨instructions, congrArg Except.ok collected, ?_⟩
  rw [same, List.map_map]
  rfl

theorem compose_unwatched (program : List Statement) (heap : Heap) (constants : Pool)
    (vacant : heap.slot = none)
    (room : (8 + 2 * (program.flatMap Statement.units).length) * 8 < heap.ceiling) :
    ((⟨{}, constants⟩ : Chunk).compose heap program).answer = .ok () := by
  rw [compose_eq]
  refine Store.extend_unwatched sized_codeUnit _ {} (Nat.zero_le _) vacant ?_
  rw [Nat.zero_add]
  exact room

/-- Decoding succeeds exactly on concatenated encodings of phrases, and then each instruction has
the offset, line, operand and constant of its encoding. A program that was written is decoded as
itself. -/
theorem decode_grammar (chunk : Chunk) (intact : chunk.Intact) :
    (∀ instructions, chunk.decode = .ok (.ok instructions) ↔
      chunk.bytes = .ok (instructions.flatMap Instruction.encode) ∧
        chunk.contents.Placed 0 instructions) ∧
    (∀ program : List Phrase, chunk.bytes = .ok (program.flatMap Phrase.encode) ↔
      ∃ instructions, chunk.decode = .ok (.ok instructions) ∧
        instructions.map Instruction.heading = program.map Phrase.heading) ∧
    (∀ instructions, chunk.decode = .ok (.ok instructions) →
      chunk.contents.Filled instructions ∧
        (instructions.map Instruction.width).sum = chunk.size) ∧
    (∀ (program : List Statement) (heap : Heap),
      let written := (⟨{}, chunk.constants⟩ : Chunk).compose heap program
      (written.answer = .ok () → ∃ instructions,
        written.object.decode = .ok (.ok instructions) ∧
          instructions.map Instruction.heading =
            program.map fun statement => statement.phrase.heading) ∧
      (heap.slot = none →
        (8 + 2 * (program.flatMap Statement.units).length) * 8 < heap.ceiling →
          written.answer = .ok ())) ∧
    ∀ one other : List Phrase, one.flatMap Phrase.encode = other.flatMap Phrase.encode →
      one = other := by
  rw [bytes_intact intact, decode_intact intact]
  simp only [Except.ok.injEq]
  have accepts := @Contents.collect_iff chunk.contents 0
  have programs := fun program => @Contents.collect_program chunk.contents program 0
  rw [List.drop_zero] at accepts programs
  refine ⟨accepts, programs, fun instructions decoded => ?_, fun program heap => ?_,
    Phrase.encode_inj⟩
  · obtain ⟨bytes, placed⟩ := (accepts instructions).mp decoded
    have filled := Contents.placed_filled instructions bytes placed
    exact ⟨filled, filled.whole.trans (size_contents intact)⟩
  · exact ⟨compose_decode program heap chunk.constants intact.constants,
      compose_unwatched program heap chunk.constants⟩

def ambiguous : Chunk := { code := ⟨#[⟨0, 7⟩, ⟨1, 7⟩, ⟨1, 8⟩, ⟨0, 0⟩], 3⟩ }

theorem decode_grammar_ambiguous :
    ambiguous.Intact ∧ ∃ instructions, ambiguous.decode = .ok (.ok instructions) ∧
      instructions.map Instruction.heading = [(.constant, some 1), (.ret, none)] := by
  have intact : ambiguous.Intact := ⟨by decide, by decide⟩
  exact ⟨intact, ((decode_grammar ambiguous intact).2.1 [.load 1, .ret]).mp (by decide)⟩

end Chunk

end MeteredChunk
