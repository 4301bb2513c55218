import MeteredChunk.Proofs.Chunk.Grammar

/-!
Validation beside decoding, and what both accept.
-/

namespace MeteredChunk

/-! ## Validation

Validation beside decoding. A walk can meet a byte that is no opcode, an opcode without
its operand, and an operand that numbers no constant. No two of these are at one place,
so one of them is the earliest, and that is the one that validation reports.
-/

namespace CodeFault

def offset : CodeFault → Nat
  | unknownOpcode offset _ | truncatedOperand offset _ | constantOutOfRange offset _ _ => offset

def opening : CodeFault → UInt8
  | unknownOpcode _ byte => byte
  | truncatedOperand _ opcode => opcode.toByte
  | constantOutOfRange _ _ _ => Opcode.constant.toByte

end CodeFault

namespace Instruction

def place : Except CodeFault Instruction → Nat
  | .ok instruction => instruction.offset
  | .error fault => fault.offset

def fault? (count : Nat) : Except CodeFault Instruction → Option CodeFault
  | .ok instruction => instruction.dangling? count
  | .error fault => some fault

def faults (count : Nat) (steps : List (Except CodeFault Instruction)) : List CodeFault :=
  steps.filterMap (fault? count)

variable {count : Nat} {instruction : Instruction} {fault : CodeFault}

theorem dangling?_some : instruction.dangling? count = some fault ↔
    ∃ index, instruction.operand = some index ∧ count ≤ index.toNat ∧
      fault = .constantOutOfRange instruction.offset index.toNat count := by
  unfold dangling?
  cases instruction.operand with
  | none => simp
  | some index => by_cases beyond : count ≤ index.toNat <;> simp [beyond, eq_comm]

theorem place_fault {step : Except CodeFault Instruction} (wrong : fault? count step = some fault) :
    fault.offset = place step := by
  cases step with
  | error other =>
      cases wrong
      rfl
  | ok instruction =>
      obtain ⟨index, -, -, rfl⟩ := dangling?_some.mp wrong
      rfl

/-- The check ends at the first fault of the walk. -/
theorem check_head (count : Nat) (steps : List (Except CodeFault Instruction)) :
    check count steps = (faults count steps).head?.elim (.ok ()) .error := by
  induction steps with
  | nil => rfl
  | cons step rest ih =>
      cases step with
      | error fault => rfl
      | ok instruction =>
          simp only [check, faults, List.filterMap_cons, fault?] at ih ⊢
          cases instruction.dangling? count with
          | none => exact ih
          | some fault => rfl

theorem operand_formed (formed : instruction.Formed) :
    instruction.opcode = .constant ↔ ∃ index, instruction.operand = some index := by
  obtain ⟨phrase, heading⟩ := (formed_iff instruction).mp formed
  obtain ⟨opcode, operand⟩ := Prod.mk.inj heading
  rw [← opcode, ← operand]
  cases phrase <;> simp [Phrase.opcode, Phrase.operand]

theorem dangling?_none {contents : Contents} (told : instruction.Tells contents) :
    instruction.dangling? contents.constants.size = none ↔
      (instruction.opcode = .constant → instruction.constant.isSome) := by
  have stands := told.constant
  cases operand : instruction.operand with
  | none =>
      have other : instruction.opcode ≠ .constant := by
        intro opcode
        obtain ⟨index, there⟩ := (operand_formed told.formed).mp opcode
        cases operand.symm.trans there
      simp [dangling?, operand, other]
  | some index =>
      have opcode := (operand_formed told.formed).mpr ⟨index, operand⟩
      simp only [loaded?, opcode, operand] at stands
      simp [dangling?, operand, opcode, stands, Contents.constant?]

end Instruction

namespace Contents

open Instruction (place fault? faults)

variable {contents : Contents} {offset : Nat} {unit : CodeUnit}

theorem place_decodeAt : place (contents.decodeAt offset unit) = offset := by
  cases known : Opcode.ofByte? unit.byte with
  | none => rw [decodeAt_unknown known]; rfl
  | some opcode =>
      cases opcode with
      | ret => rw [decodeAt_ret known]; rfl
      | constant =>
          cases behind : contents.byteAt? (offset + 1) with
          | none => rw [decodeAt_cutShort known behind]; rfl
          | some index => rw [decodeAt_load known behind]; rfl

theorem decoded_step {step : Except CodeFault Instruction}
    (member : step ∈ contents.instructionsFrom offset) :
    ∃ unit, contents.unitAt? (place step) = some unit ∧
      contents.decodeAt (place step) unit = step ∧ offset ≤ place step := by
  fun_induction contents.instructionsFrom offset with
  | case1 offset ends => cases member
  | case2 offset unit found fault broken =>
      obtain rfl := List.mem_singleton.mp member
      rw [← broken, place_decodeAt]
      exact ⟨unit, found, broken ▸ rfl, le_rfl⟩
  | case3 offset unit found instruction decoded ih =>
      rcases List.mem_cons.mp member with rfl | later
      · rw [← decoded, place_decodeAt]
        exact ⟨unit, found, rfl, le_rfl⟩
      · obtain ⟨unit, there, same, onward⟩ := ih later
        exact ⟨unit, there, same, (Nat.le_add_right _ _).trans onward⟩

/-- A walk never comes back to a place. -/
theorem places_increase (contents : Contents) (offset : Nat) :
    (contents.instructionsFrom offset).Pairwise fun step later => place step < place later := by
  fun_induction contents.instructionsFrom offset with
  | case1 offset ends => exact .nil
  | case2 offset unit found fault broken => exact List.pairwise_singleton _ _
  | case3 offset unit found instruction decoded ih =>
      refine List.pairwise_cons.mpr ⟨fun later member => ?_, ih⟩
      obtain ⟨-, -, -, onward⟩ := decoded_step member
      have here : place (.ok instruction) = offset := by rw [← decoded, place_decodeAt]
      rw [here]
      exact (Nat.lt_add_of_pos_right (Nat.add_pos_left Nat.one_pos _)).trans_le onward

theorem faults_increase (contents : Contents) (count : Nat) :
    (faults count contents.instructions).Pairwise fun fault later =>
      fault.offset < later.offset := by
  refine (places_increase contents 0).filterMap _ ?_
  intro step later before fault wrong other wrongToo
  rw [Instruction.place_fault wrong, Instruction.place_fault wrongToo]
  exact before

/-- A fault of decoding is behind all that was read before. -/
theorem fault_last {fault : CodeFault} {step : Except CodeFault Instruction}
    (ends : .error fault ∈ contents.instructionsFrom offset)
    (member : step ∈ contents.instructionsFrom offset) :
    step = .error fault ∨ place step < fault.offset := by
  have increase := places_increase contents offset
  fun_induction contents.instructionsFrom offset with
  | case1 offset ended => cases member
  | case2 offset unit found other broken =>
      rw [List.mem_singleton.mp ends]
      exact .inl (List.mem_singleton.mp member)
  | case3 offset unit found instruction decoded ih =>
      obtain ⟨before, others⟩ := List.pairwise_cons.mp increase
      have later := (List.mem_cons.mp ends).resolve_left (by simp)
      rcases List.mem_cons.mp member with rfl | behind
      · exact .inr (before _ later)
      · exact ih later behind others

/-- Decoding goes through where every step of the walk is an instruction. -/
theorem collect_map (steps : List (Except CodeFault Instruction)) (instructions : List Instruction) :
    steps.mapM id = .ok instructions ↔ steps = instructions.map .ok := by
  induction steps generalizing instructions with
  | nil => cases instructions <;> simp [pure, Except.pure]
  | cons step rest ih =>
      cases step with
      | error fault =>
          rw [collect_error]
          cases instructions <;> simp
      | ok instruction =>
          cases instructions with
          | nil => exact iff_of_false (collect_ok_nil _ _) (by simp)
          | cons first others =>
              rw [collect_ok, ih]
              simp

theorem collect_fault (contents : Contents) (offset : Nat) (fault : CodeFault) :
    (contents.instructionsFrom offset).mapM id = .error fault ↔
      .error fault ∈ contents.instructionsFrom offset := by
  fun_induction contents.instructionsFrom offset with
  | case1 offset ends => simp [pure, Except.pure]
  | case2 offset unit found other broken =>
      rw [collect_error]
      simp [eq_comm]
  | case3 offset unit found instruction decoded ih =>
      rw [List.mapM_cons, List.mem_cons, ← ih]
      cases (contents.instructionsFrom (offset + instruction.width)).mapM id <;>
        simp [bind, Except.bind, pure, Except.pure]

theorem opening_decodeAt {count : Nat} {fault : CodeFault}
    (wrong : fault? count (contents.decodeAt offset unit) = some fault) :
    unit.byte = fault.opening := by
  cases known : Opcode.ofByte? unit.byte with
  | none =>
      rw [decodeAt_unknown known] at wrong
      cases wrong
      rfl
  | some opcode =>
      have byte := (Opcode.ofByte?_eq_some _ _).mp known
      cases opcode with
      | ret =>
          rw [decodeAt_ret known] at wrong
          cases wrong
      | constant =>
          cases behind : contents.byteAt? (offset + 1) with
          | none =>
              rw [decodeAt_cutShort known behind] at wrong
              cases wrong
              exact byte.symm
          | some index =>
              rw [decodeAt_load known behind, fault?] at wrong
              obtain ⟨-, -, -, rfl⟩ := Instruction.dangling?_some.mp wrong
              exact byte.symm

end Contents

namespace Chunk

open Instruction (fault? faults)

/-- The faults of a chunk: the one that decoding ends with, and one for each load before it of a
constant that the pool lacks. -/
inductive Faulty (chunk : Chunk) : CodeFault → Prop
  | undecodable {fault : CodeFault} (ends : chunk.decode = .ok (.error fault)) : chunk.Faulty fault
  | dangling {steps : List (Except CodeFault Instruction)} {instruction : Instruction}
      {index : UInt8} (walked : chunk.instructions = .ok steps) (passed : .ok instruction ∈ steps)
      (opcode : instruction.opcode = .constant) (operand : instruction.operand = some index)
      (beyond : chunk.constants.size ≤ index.toNat) :
      chunk.Faulty (.constantOutOfRange instruction.offset index.toNat chunk.constants.size)

variable {chunk : Chunk}

theorem size_constants (intact : chunk.Intact) :
    chunk.contents.constants.size = chunk.constants.size := by
  have constants := intact.constants
  unfold Store.Intact Store.capacity at constants
  simp [contents, Store.slots, Pool.size, constants]

theorem validate_intact (intact : chunk.Intact) :
    chunk.validate = .ok ((faults chunk.constants.size chunk.contents.instructions).head?.elim
      (.ok ()) .error) := by
  rw [← Instruction.check_head]
  unfold validate
  rw [instructions_intact intact]
  rfl

theorem tells_passed {instruction : Instruction}
    (passed : .ok instruction ∈ chunk.contents.instructions) :
    instruction.Tells chunk.contents := by
  obtain ⟨unit, found, decoded, -⟩ := Contents.decoded_step passed
  exact ((Contents.decodeAt_ok found instruction).mp decoded).2.1

theorem faulty_iff (intact : chunk.Intact) (fault : CodeFault) :
    chunk.Faulty fault ↔ fault ∈ faults chunk.constants.size chunk.contents.instructions := by
  rw [faults, List.mem_filterMap]
  constructor
  · rintro (ends | ⟨walked, passed, opcode, operand, beyond⟩)
    · rw [decode_intact intact, Except.ok.injEq] at ends
      exact ⟨_, (Contents.collect_fault _ _ _).mp ends, rfl⟩
    · cases (instructions_intact intact).symm.trans walked
      exact ⟨_, passed, Instruction.dangling?_some.mpr ⟨_, operand, beyond, rfl⟩⟩
  · rintro ⟨step, member, wrong⟩
    cases step with
    | error other =>
        cases wrong
        refine .undecodable ?_
        rw [decode_intact intact]
        exact congrArg Except.ok ((Contents.collect_fault _ 0 _).mpr member)
    | ok instruction =>
        obtain ⟨index, operand, beyond, rfl⟩ := Instruction.dangling?_some.mp wrong
        have opcode := (Instruction.operand_formed (tells_passed member).formed).mpr ⟨index, operand⟩
        exact .dangling (instructions_intact intact) member opcode operand beyond

/-- Nothing is wrong where the code decodes and all its constants are there. -/
theorem faultless_iff (intact : chunk.Intact) :
    faults chunk.constants.size chunk.contents.instructions = [] ↔
      ∃ instructions, chunk.decode = .ok (.ok instructions) ∧
        ∀ instruction ∈ instructions, instruction.opcode = .constant →
          instruction.constant.isSome := by
  rw [faults, List.filterMap_eq_nil_iff, decode_intact intact]
  simp only [Except.ok.injEq, Contents.collect_map]
  have present {instruction : Instruction}
      (passed : .ok instruction ∈ chunk.contents.instructions) :=
    Instruction.dangling?_none (tells_passed passed)
  rw [size_constants intact] at present
  constructor
  · intro faultless
    cases collected : chunk.contents.instructions.mapM id with
    | error fault =>
        have member := (Contents.collect_fault _ 0 _).mp collected
        cases faultless _ member
    | ok instructions =>
        have walked := (Contents.collect_map _ _).mp collected
        refine ⟨instructions, walked, fun instruction among => ?_⟩
        have passed : .ok instruction ∈ chunk.contents.instructions :=
          walked ▸ List.mem_map_of_mem among
        exact (present passed).mp (faultless _ passed)
  · rintro ⟨instructions, walked, all⟩ step member
    have listed := member
    rw [walked] at listed
    obtain ⟨instruction, among, rfl⟩ := List.mem_map.mp listed
    exact (present member).mpr (all instruction among)

theorem opening_faulty (intact : chunk.Intact) (fault : CodeFault) (faulty : chunk.Faulty fault) :
    chunk.byteAt? fault.offset = .ok (some fault.opening) := by
  obtain ⟨step, member, wrong⟩ := List.mem_filterMap.mp ((faulty_iff intact fault).mp faulty)
  obtain ⟨unit, found, decoded, -⟩ := Contents.decoded_step member
  rw [← decoded] at wrong
  rw [byteAt?_intact intact, Instruction.place_fault wrong, Contents.place_decodeAt,
    Contents.byteAt?, found]
  exact congrArg (fun byte => Except.ok (some byte)) (Contents.opening_decodeAt wrong)

/-- The first of the faults is the earliest one. -/
theorem first_faulty (intact : chunk.Intact) (fault : CodeFault) :
    (faults chunk.constants.size chunk.contents.instructions).head? = some fault ↔
      chunk.Faulty fault ∧
        ∀ other, chunk.Faulty other → other = fault ∨ fault.offset < other.offset := by
  have increase := Contents.faults_increase chunk.contents chunk.constants.size
  simp only [faulty_iff intact]
  cases listed : faults chunk.constants.size chunk.contents.instructions with
  | nil => simp
  | cons first rest =>
      rw [listed] at increase
      have before := (List.pairwise_cons.mp increase).1
      rw [List.head?_cons, Option.some.injEq]
      constructor
      · rintro rfl
        refine ⟨List.mem_cons_self, fun other member => ?_⟩
        exact (List.mem_cons.mp member).imp_right (before other)
      · rintro ⟨member, earliest⟩
        rcases List.mem_cons.mp member with rfl | later
        · rfl
        · have less := before fault later
          rcases earliest first List.mem_cons_self with same | other
          · exact same
          · omega

/-- Nothing is read behind the place where decoding breaks off. -/
theorem undecodable_last (intact : chunk.Intact) {fault other : CodeFault}
    (ends : chunk.decode = .ok (.error fault)) (faulty : chunk.Faulty other)
    (different : other ≠ fault) : other.offset < fault.offset := by
  rw [decode_intact intact, Except.ok.injEq] at ends
  obtain ⟨step, member, wrong⟩ := List.mem_filterMap.mp ((faulty_iff intact other).mp faulty)
  rcases Contents.fault_last ((Contents.collect_fault _ 0 _).mp ends) member with rfl | before
  · cases wrong
    exact absurd rfl different
  · rw [Instruction.place_fault wrong]
    exact before

/-- Validation succeeds exactly if decoding does and all constants are there; otherwise it reports
the fault with the least offset, and the byte of its opcode stands there. -/
theorem validate_earliest (chunk : Chunk) (intact : chunk.Intact) :
    ∃ verdict, chunk.validate = .ok verdict ∧
      (verdict = .ok () ↔ ∃ instructions, chunk.decode = .ok (.ok instructions) ∧
        ∀ instruction ∈ instructions, instruction.opcode = .constant →
          instruction.constant.isSome) ∧
      (∀ fault, verdict = .error fault ↔ chunk.Faulty fault ∧
        ∀ other, chunk.Faulty other → other = fault ∨ fault.offset < other.offset) ∧
      (∀ fault other, chunk.decode = .ok (.error fault) → chunk.Faulty other → other ≠ fault →
        other.offset < fault.offset ∧ verdict ≠ .error fault) ∧
      ∀ fault, chunk.Faulty fault → chunk.byteAt? fault.offset = .ok (some fault.opening) := by
  have reported (fault : CodeFault) :
      (faults chunk.constants.size chunk.contents.instructions).head?.elim (.ok ()) .error =
          (.error fault : Except CodeFault Unit) ↔
        chunk.Faulty fault ∧
          ∀ other, chunk.Faulty other → other = fault ∨ fault.offset < other.offset := by
    rw [← first_faulty intact]
    cases faults chunk.constants.size chunk.contents.instructions <;> simp
  refine ⟨_, validate_intact intact, ?_, reported, fun fault other ends faulty different => ?_,
    opening_faulty intact⟩
  · rw [← faultless_iff intact]
    cases faults chunk.constants.size chunk.contents.instructions <;> simp
  · have before := undecodable_last intact ends faulty different
    refine ⟨before, fun verdict => ?_⟩
    rcases ((reported fault).mp verdict).2 other faulty with same | behind
    · exact different same
    · omega

def overrun : Chunk := { code := ⟨#[⟨1, 4⟩, ⟨0, 4⟩, ⟨9, 5⟩, ⟨7, 5⟩, ⟨0, 6⟩], 5⟩ }

theorem validate_earliest_overrun :
    overrun.Intact ∧ overrun.validate = .ok (.error (.constantOutOfRange 1 9 0)) ∧
      overrun.decode = .ok (.error (.unknownOpcode 3 7)) ∧
      ∀ other, overrun.Faulty other → other = .constantOutOfRange 1 9 0 ∨ 1 < other.offset := by
  have intact : overrun.Intact := ⟨by decide, by decide⟩
  have returned : overrun.contents.instructionsFrom 0 =
      .ok ⟨0, 4, .ret, none, none⟩ :: overrun.contents.instructionsFrom 1 :=
    Contents.instructionsFrom_ok rfl rfl
  have loaded : overrun.contents.instructionsFrom 1 =
      .ok ⟨1, 4, .constant, some 9, none⟩ :: overrun.contents.instructionsFrom 3 :=
    Contents.instructionsFrom_ok rfl rfl
  have unknown : overrun.contents.instructionsFrom 3 = [.error (.unknownOpcode 3 7)] :=
    Contents.instructionsFrom_error rfl rfl
  have walked : overrun.contents.instructions =
      [.ok ⟨0, 4, .ret, none, none⟩, .ok ⟨1, 4, .constant, some 9, none⟩,
        .error (.unknownOpcode 3 7)] := by
    rw [Contents.instructions, returned, loaded, unknown]
  have validated : overrun.validate = .ok (.error (.constantOutOfRange 1 9 0)) := by
    rw [validate_intact intact, walked]
    rfl
  obtain ⟨verdict, same, -, earliest, -⟩ := validate_earliest overrun intact
  cases validated.symm.trans same
  refine ⟨intact, validated, ?_, ((earliest _).mp rfl).2⟩
  rw [decode_intact intact, walked]
  rfl

end Chunk

/-! ## Acceptance

What decoding and validation accept, as bytes. Decoding accepts programs; validation
accepts those that load no constant beyond the pool. Behind the bytes of a program the
rest is accepted on its own: no phrase reaches over the end of the first part.
-/

namespace Phrase

/-- Bytes that start with a program go on with one just where all of them are one. -/
theorem encode_behind (first : List Phrase) (rest : List UInt8) (program : List Phrase) :
    first.flatMap encode ++ rest = program.flatMap encode ↔
      ∃ phrases, program = first ++ phrases ∧ rest = phrases.flatMap encode := by
  induction first generalizing program with
  | nil => simp
  | cons phrase others ih =>
      constructor
      · intro same
        cases program with
        | nil => simp [encode] at same
        | cons phraseToo othersToo =>
            rw [List.flatMap_cons, List.flatMap_cons, List.append_assoc] at same
            cases phrase <;> cases phraseToo <;>
              simp [encode, opcode, operand, Opcode.toByte] at same
            case load.load =>
              obtain ⟨phrases, rfl, spelled⟩ := (ih othersToo).mp same.2
              exact ⟨phrases, by rw [same.1]; rfl, spelled⟩
            case ret.ret =>
              obtain ⟨phrases, rfl, spelled⟩ := (ih othersToo).mp same
              exact ⟨phrases, rfl, spelled⟩
      · rintro ⟨phrases, rfl, rfl⟩
        rw [← List.flatMap_append]

theorem heading_constant {phrase : Phrase} (opcode : phrase.opcode = .constant) :
    ∃ index, phrase = .load index := by
  cases phrase with
  | load index => exact ⟨index, rfl⟩
  | ret => cases opcode

def Within (count : Nat) (program : List Phrase) : Prop :=
  ∀ index, .load index ∈ program → index.toNat < count

end Phrase

namespace Instruction

theorem program_exists (instructions : List Instruction)
    (formed : ∀ instruction ∈ instructions, instruction.Formed) :
    ∃ program : List Phrase, instructions.map heading = program.map Phrase.heading := by
  induction instructions with
  | nil => exact ⟨[], rfl⟩
  | cons first rest ih =>
      obtain ⟨others, same⟩ := ih fun instruction member =>
        formed instruction (List.mem_cons_of_mem _ member)
      obtain ⟨phrase, heading⟩ := (formed_iff first).mp (formed first List.mem_cons_self)
      exact ⟨phrase :: others, by rw [List.map_cons, List.map_cons, heading, same]⟩

theorem present_iff {contents : Contents} {instructions : List Instruction}
    {program : List Phrase} (told : ∀ instruction ∈ instructions, instruction.Tells contents)
    (same : instructions.map heading = program.map Phrase.heading) :
    (∀ instruction ∈ instructions, instruction.opcode = .constant →
        instruction.constant.isSome) ↔ Phrase.Within contents.constants.size program := by
  -- A load and its phrase, and what the load says of its constant.
  have constant {instruction : Instruction} {index : UInt8} (member : instruction ∈ instructions)
      (load : instruction.heading = (.constant, some index)) :
      instruction.constant.isSome ↔ index.toNat < contents.constants.size := by
    obtain ⟨opcode, operand⟩ := Prod.mk.inj load
    rw [(told instruction member).constant, loaded?, opcode, operand]
    simp [Contents.constant?]
  constructor
  · intro present index member
    have listed : (.constant, some index) ∈ instructions.map heading := by
      rw [same]
      exact List.mem_map_of_mem member
    obtain ⟨instruction, among, load⟩ := List.mem_map.mp listed
    exact (constant among load).mp (present instruction among (Prod.mk.inj load).1)
  · intro within instruction member opcode
    have listed : instruction.heading ∈ program.map Phrase.heading := by
      rw [← same]
      exact List.mem_map_of_mem member
    obtain ⟨phrase, among, load⟩ := List.mem_map.mp listed
    obtain ⟨index, rfl⟩ := Phrase.heading_constant ((Prod.mk.inj load).1.trans opcode)
    exact (constant member load.symm).mpr (within index among)

end Instruction

namespace Chunk

variable {chunk : Chunk}

/-- The code decodes as a program, and each instruction tells of its place. -/
theorem decode_program (intact : chunk.Intact) {instructions : List Instruction}
    (decoded : chunk.decode = .ok (.ok instructions)) :
    (∀ instruction ∈ instructions, instruction.Tells chunk.contents) ∧
      ∃ program : List Phrase, instructions.map Instruction.heading = program.map Phrase.heading ∧
        chunk.contents.bytes = program.flatMap Phrase.encode := by
  rw [decode_intact intact, Except.ok.injEq] at decoded
  obtain ⟨bytes, placed⟩ := (Contents.collect_iff 0 instructions).mp decoded
  obtain ⟨-, -, told⟩ := Contents.placed_chain 0 instructions placed
  obtain ⟨program, same⟩ := Instruction.program_exists instructions
    fun instruction member => (told instruction member).formed
  exact ⟨told, program, same, bytes.trans (Instruction.encode_headings _ _ same)⟩

theorem program_decode (intact : chunk.Intact) {program : List Phrase}
    (written : chunk.contents.bytes = program.flatMap Phrase.encode) :
    ∃ instructions, chunk.decode = .ok (.ok instructions) ∧
      instructions.map Instruction.heading = program.map Phrase.heading := by
  obtain ⟨instructions, collected, same⟩ := (Contents.collect_program program 0).mp written
  exact ⟨instructions, (decode_intact intact).trans (congrArg Except.ok collected), same⟩

theorem decodes_iff (intact : chunk.Intact) :
    (∃ instructions, chunk.decode = .ok (.ok instructions)) ↔
      ∃ program : List Phrase, chunk.contents.bytes = program.flatMap Phrase.encode := by
  constructor
  · rintro ⟨instructions, decoded⟩
    obtain ⟨-, program, -, written⟩ := decode_program intact decoded
    exact ⟨program, written⟩
  · rintro ⟨program, written⟩
    obtain ⟨instructions, decoded, -⟩ := program_decode intact written
    exact ⟨instructions, decoded⟩

theorem validates_iff (intact : chunk.Intact) :
    chunk.validate = .ok (.ok ()) ↔
      ∃ program : List Phrase, chunk.contents.bytes = program.flatMap Phrase.encode ∧
        Phrase.Within chunk.constants.size program := by
  have accepted : chunk.validate = .ok (.ok ()) ↔
      Instruction.faults chunk.constants.size chunk.contents.instructions = [] := by
    rw [validate_intact intact]
    cases Instruction.faults chunk.constants.size chunk.contents.instructions <;> simp
  rw [accepted, faultless_iff intact, ← size_constants intact]
  constructor
  · rintro ⟨instructions, decoded, present⟩
    obtain ⟨told, program, same, written⟩ := decode_program intact decoded
    exact ⟨program, written, (Instruction.present_iff told same).mp present⟩
  · rintro ⟨program, written, within⟩
    obtain ⟨instructions, decoded, same⟩ := program_decode intact written
    obtain ⟨told, -⟩ := decode_program intact decoded
    exact ⟨instructions, decoded, (Instruction.present_iff told same).mpr within⟩

end Chunk

end MeteredChunk
