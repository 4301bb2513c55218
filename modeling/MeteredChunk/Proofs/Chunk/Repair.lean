import MeteredChunk.Proofs.Chunk.Reach
import Mathlib.Data.List.Forall2

/-!
Constants that come after the code that loads them. More constants mend loads and break
nothing: the code decodes as before, and what validation finds is the same or further on.
With a constant for every byte there is, only the code itself can be at fault.
-/

namespace MeteredChunk

inductive Agree {ε α : Type} (related : α → α → Prop) : Except ε α → Except ε α → Prop
  | ok {one other : α} (same : related one other) : Agree related (.ok one) (.ok other)
  | error (fault : ε) : Agree related (.error fault) (.error fault)

theorem Agree.collect {related : Instruction → Instruction → Prop}
    {steps others : List (Except CodeFault Instruction)}
    (agree : List.Forall₂ (Agree related) steps others) :
    Agree (List.Forall₂ related) (steps.mapM id) (others.mapM id) := by
  induction agree with
  | nil => exact .ok .nil
  | @cons step other steps others first rest ih =>
      rw [List.mapM_cons, List.mapM_cons]
      cases first with
      | error fault => exact .error fault
      | ok same =>
          generalize steps.mapM id = one at ih ⊢
          generalize others.mapM id = two at ih ⊢
          cases ih with
          | error fault => exact .error fault
          | ok behind => exact .ok (.cons same behind)

inductive CodeFault.Undecodable : CodeFault → Prop
  | unknown (offset : Nat) (byte : UInt8) : Undecodable (.unknownOpcode offset byte)
  | truncated (offset : Nat) (opcode : Opcode) : Undecodable (.truncatedOperand offset opcode)

namespace Instruction

structure Completed (before after : Instruction) : Prop where
  offset_eq : after.offset = before.offset
  line_eq : after.line = before.line
  opcode_eq : after.opcode = before.opcode
  operand_eq : after.operand = before.operand
  constant_kept : ∀ value, before.constant = some value → after.constant = some value

def recalled (contents : Contents) : Except CodeFault Instruction → Except CodeFault Instruction
  | .ok instruction => .ok { instruction with constant := instruction.loaded? contents }
  | .error fault => .error fault

/-- The check asks for the number of constants, not for the constants. -/
theorem check_recalled (contents : Contents) (count : Nat)
    (steps : List (Except CodeFault Instruction)) :
    check count (steps.map (recalled contents)) = check count steps := by
  induction steps with
  | nil => rfl
  | cons step rest ih =>
      cases step with
      | error fault => rfl
      | ok instruction =>
          let other := { instruction with constant := instruction.loaded? contents }
          have same : other.dangling? count = instruction.dangling? count := rfl
          rw [List.map_cons, recalled, check, check, same, ih]

/-- How the verdict of validation may change when the pool has grown to `count` constants. -/
inductive Repaired (count : Nat) : Except CodeFault Unit → Except CodeFault Unit → Prop
  | fine : Repaired count (.ok ()) (.ok ())
  | kept {fault : CodeFault} (undecodable : fault.Undecodable) :
      Repaired count (.error fault) (.error fault)
  | missing {offset index before : Nat} (beyond : count ≤ index) :
      Repaired count (.error (.constantOutOfRange offset index before))
        (.error (.constantOutOfRange offset index count))
  | mended {offset index before : Nat} {verdict : Except CodeFault Unit} (there : index < count)
      (later : ∀ fault, verdict = .error fault → offset < fault.offset) :
      Repaired count (.error (.constantOutOfRange offset index before)) verdict

theorem check_place {count : Nat} {steps : List (Except CodeFault Instruction)} {fault : CodeFault}
    (fails : check count steps = .error fault) : ∃ step ∈ steps, place step = fault.offset := by
  have first : (faults count steps).head? = some fault := by
    rw [check_head] at fails
    cases head : (faults count steps).head? with
    | none =>
        rw [head] at fails
        cases fails
    | some other =>
        rw [head] at fails
        cases fails
        rfl
  obtain ⟨step, member, wrong⟩ := List.mem_filterMap.mp (List.mem_of_mem_head? first)
  exact ⟨step, member, (place_fault wrong).symm⟩

/-- On the steps to come. A load that is mended leaves the verdict to what is behind it. -/
theorem check_repaired {count larger : Nat} (more : count ≤ larger)
    (steps : List (Except CodeFault Instruction))
    (undecodable : ∀ fault, .error fault ∈ steps → fault.Undecodable)
    (increase : steps.Pairwise fun step later => place step < place later) :
    Repaired larger (check count steps) (check larger steps) := by
  induction steps with
  | nil => exact .fine
  | cons step rest ih =>
      obtain ⟨before, others⟩ := List.pairwise_cons.mp increase
      have behind :=
        ih (fun fault member => undecodable fault (List.mem_cons_of_mem _ member)) others
      cases step with
      | error fault => exact .kept (undecodable fault List.mem_cons_self)
      | ok instruction =>
          unfold check
          cases operand : instruction.operand with
          | none =>
              simp only [dangling?, operand]
              exact behind
          | some index =>
              simp only [dangling?, operand]
              by_cases beyond : count ≤ index.toNat
              · by_cases beyondToo : larger ≤ index.toNat
                · simp only [beyond, beyondToo, if_true]
                  exact .missing beyondToo
                · -- The load goes through now. The walk goes on, and only to places behind it.
                  simp only [beyond, beyondToo, if_true, if_false]
                  refine .mended (Nat.not_le.mp beyondToo) fun fault fails => ?_
                  obtain ⟨step, member, here⟩ := check_place fails
                  exact here ▸ before step member
              · have inside : ¬ larger ≤ index.toNat := fun high => beyond (more.trans high)
                simp only [beyond, inside, if_false]
                exact behind

/-- A pool with a constant for every byte has all that are loaded. -/
theorem check_full {count : Nat} (full : 256 ≤ count)
    (steps : List (Except CodeFault Instruction)) :
    check count steps = (steps.mapM id).map fun _ => () := by
  induction steps with
  | nil => rfl
  | cons step rest ih =>
      rw [List.mapM_cons]
      cases step with
      | error fault => rfl
      | ok instruction =>
          have present : instruction.dangling? count = none := by
            unfold dangling?
            cases instruction.operand with
            | none => rfl
            | some index =>
                have small := index.toNat_lt
                exact if_neg (by omega)
          rw [check, present]
          refine ih.trans ?_
          cases rest.mapM id <;> rfl

end Instruction

namespace Contents

variable {contents other : Contents} {offset : Nat} {unit : CodeUnit}

def enriched (contents : Contents) (values : List Value) : Contents :=
  { contents with constants := contents.constants ++ values.toArray }

theorem decodeAt_recalled (same : other.units = contents.units) (offset : Nat) (unit : CodeUnit) :
    other.decodeAt offset unit =
      Instruction.recalled other (contents.decodeAt offset unit) := by
  have byte : other.byteAt? (offset + 1) = contents.byteAt? (offset + 1) := by
    rw [byteAt?, unitAt?, same]
    rfl
  cases known : Opcode.ofByte? unit.byte with
  | none =>
      rw [decodeAt_unknown known, decodeAt_unknown known]
      rfl
  | some opcode =>
      cases opcode with
      | ret =>
          rw [decodeAt_ret known, decodeAt_ret known]
          rfl
      | constant =>
          cases behind : contents.byteAt? (offset + 1) with
          | none =>
              rw [decodeAt_cutShort known behind, decodeAt_cutShort known (byte.trans behind)]
              rfl
          | some index =>
              rw [decodeAt_load known behind, decodeAt_load known (byte.trans behind)]
              rfl

/-- A walk over the same code with another pool finds other constants and nothing else. -/
theorem instructions_recalled (same : other.units = contents.units) :
    other.instructions = contents.instructions.map (Instruction.recalled other) := by
  have units (offset : Nat) : other.unitAt? (0 + offset) = contents.unitAt? offset := by
    rw [Nat.zero_add, unitAt?, same]
    rfl
  have steps (offset : Nat) (unit : CodeUnit) : other.decodeAt (0 + offset) unit =
      Instruction.recalled other (contents.decodeAt offset unit) := by
    rw [Nat.zero_add]
    exact decodeAt_recalled same offset unit
  exact instructionsFrom_changed units steps (fun _ => ⟨_, rfl, rfl⟩) (fun _ => ⟨_, rfl⟩) 0

theorem completed_enriched {instruction : Instruction} (told : instruction.Tells contents)
    (values : List Value) :
    instruction.Completed
      { instruction with constant := instruction.loaded? (contents.enriched values) } := by
  refine ⟨rfl, rfl, rfl, rfl, fun value there => ?_⟩
  have stands := told.constant.symm.trans there
  unfold Instruction.loaded? at stands ⊢
  split at stands
  · obtain ⟨inside, same⟩ := Array.getElem?_eq_some_iff.mp stands
    simp only [constant?, enriched]
    rw [Array.getElem?_append_left inside]
    exact stands
  · cases stands

theorem undecodable_fault {fault : CodeFault} (member : .error fault ∈ contents.instructions) :
    fault.Undecodable := by
  obtain ⟨unit, found, broken, -⟩ := decoded_step member
  rcases (decodeAt_explains found broken).either with ⟨byte, same⟩ | same
  · exact same ▸ .unknown _ byte
  · exact same ▸ .truncated _ _

end Contents

theorem Pool.addAll_extend (pool : Pool) (values : List Value) (heap : Heap) :
    (pool.addAll heap values).map (fun _ => ()) =
      (pool.values.extend heap values).within Pool.mk := by
  induction values generalizing pool heap with
  | nil => rfl
  | cons value rest ih =>
      obtain ⟨store⟩ := pool
      simp only [addAll, add, Store.extend]
      generalize store.push value heap = pushed
      obtain ⟨answer, longer, after⟩ := pushed
      cases answer with
      | error fault => rfl
      | ok done =>
          refine Eq.trans ?_ (ih ⟨longer⟩ after)
          simp only [Effect.within, Effect.andThen, Effect.done, Effect.map]
          cases (Pool.addAll ⟨longer⟩ after rest).answer <;> rfl

namespace Chunk

variable {chunk : Chunk} {heap : Heap}

theorem addConstants_contents (intact : chunk.Intact) (values : List Value) {numbers : List Nat}
    (through : (chunk.addConstants values heap).answer = .ok numbers) :
    (chunk.addConstants values heap).object.Intact ∧
      (chunk.addConstants values heap).object.contents = chunk.contents.enriched values := by
  obtain ⟨code, pool⟩ := chunk
  have extended := pool.addAll_extend values heap
  have added : (pool.addAll heap values).answer = .ok numbers := through
  have went : (pool.values.extend heap values).answer = .ok () := by
    have same := congrArg Effect.answer extended
    rw [Effect.map, added] at same
    exact same.symm
  have object : (pool.addAll heap values).object = ⟨(pool.values.extend heap values).object⟩ :=
    congrArg Effect.object extended
  obtain ⟨kept, slots⟩ := Store.extend_ok sized_value values _ intact.constants went
  simp only [addConstants, Effect.within, object]
  refine ⟨⟨intact.code, kept⟩, Contents.ext_lists rfl ?_⟩
  rw [contents, slots, Contents.enriched, Array.toList_append]
  rfl

theorem addConstants_calm (intact : chunk.Intact) (values : List Value)
    (small : chunk.constants.values.block.bytes < 2 ^ 63)
    (calm : (chunk.addConstants values heap).Calm heap) :
    ∃ numbers, (chunk.addConstants values heap).answer = .ok numbers := by
  obtain ⟨code, pool⟩ := chunk
  have extended := pool.addAll_extend values heap
  have survived : (pool.addAll heap values).Survived := calm.survived
  have unrefused : (pool.addAll heap values).heap.refusals = heap.refusals := calm.unrefused
  have other := Effect.survived_mapped (fun _ => ()) survived
  rw [extended] at other
  have same : (pool.addAll heap values).heap = (pool.values.extend heap values).heap :=
    congrArg Effect.heap extended
  have went : (pool.values.extend heap values).answer = .ok () :=
    Store.extend_calm sized_value values _ intact.constants small ⟨other, same ▸ unrefused⟩
  have answers : (pool.addAll heap values).answer.map (fun _ => ()) = .ok () :=
    (congrArg Effect.answer extended).trans went
  cases answer : (pool.addAll heap values).answer with
  | error fault =>
      rw [answer] at answers
      cases answers
  | ok numbers => exact ⟨numbers, answer⟩

theorem validate_checked (intact : chunk.Intact) :
    chunk.validate = .ok (Instruction.check chunk.constants.size chunk.contents.instructions) := by
  rw [validate, instructions_intact intact]
  rfl

/-- Adding constants leaves all instructions as they are, but for constants that were missing, and
the verdict of validation stays or moves to a later fault. With a constant for every byte only
decoding can fail. -/
theorem validate_repairs (chunk : Chunk) (intact : chunk.Intact) (values : List Value)
    (heap : Heap) :
    let added := chunk.addConstants values heap
    let after := added.object
    (chunk.constants.values.block.bytes < 2 ^ 63 → added.Calm heap →
        ∃ numbers, added.answer = .ok numbers) ∧
      ∀ numbers, added.answer = .ok numbers →
        after.constants.size = chunk.constants.size + values.length ∧
        (∃ before verdict, chunk.validate = .ok before ∧ after.validate = .ok verdict ∧
          Instruction.Repaired after.constants.size before verdict) ∧
        (∃ steps others, chunk.instructions = .ok steps ∧ after.instructions = .ok others ∧
          List.Forall₂ (Agree Instruction.Completed) steps others) ∧
        (∃ outcome other, chunk.decode = .ok outcome ∧ after.decode = .ok other ∧
          Agree (List.Forall₂ Instruction.Completed) outcome other) ∧
        (256 ≤ after.constants.size →
          ∃ outcome, after.decode = .ok outcome ∧
            after.validate = .ok (outcome.map fun _ => ())) := by
  intro added after
  refine ⟨addConstants_calm intact values, fun numbers through => ?_⟩
  obtain ⟨kept, same⟩ := addConstants_contents intact values through
  have more : after.constants.size = chunk.constants.size + values.length := by
    rw [← size_constants kept, ← size_constants intact]
    refine (congrArg (Array.size ∘ Contents.constants) same).trans ?_
    exact Array.size_append.trans (congrArg _ List.size_toArray)
  have units : after.contents.units = chunk.contents.units :=
    (congrArg Contents.units same).trans rfl
  have walked : after.contents.instructions =
      chunk.contents.instructions.map (Instruction.recalled after.contents) :=
    Contents.instructions_recalled units
  have agree : List.Forall₂ (Agree Instruction.Completed) chunk.contents.instructions
      after.contents.instructions := by
    rw [walked, List.forall₂_map_right_iff, List.forall₂_same]
    intro step member
    cases step with
    | error fault => exact .error fault
    | ok instruction =>
        have completed := Contents.completed_enriched (tells_passed member) values
        rw [← same] at completed
        exact .ok completed
  refine ⟨more, ⟨_, _, validate_checked intact, validate_checked kept, ?_⟩,
    ⟨_, _, instructions_intact intact, instructions_intact kept, agree⟩,
    ⟨_, _, decode_intact intact, decode_intact kept, .collect agree⟩, fun full => ?_⟩
  · rw [walked, Instruction.check_recalled]
    exact Instruction.check_repaired (by omega) _ (fun fault => Contents.undecodable_fault)
      (Contents.places_increase chunk.contents 0)
  · refine ⟨_, decode_intact kept, (validate_checked kept).trans ?_⟩
    exact congrArg Except.ok (Instruction.check_full full _)

def eager : Chunk := { code := ⟨#[⟨0, 1⟩, ⟨0, 1⟩, ⟨0, 2⟩, ⟨1, 2⟩], 4⟩ }

theorem validate_repairs_eager :
    eager.Intact ∧ eager.validate = .ok (.error (.constantOutOfRange 0 0 0)) ∧
      ∃ verdict, (eager.addConstants [⟨7⟩] {}).object.validate = .ok verdict ∧
        ∀ fault, verdict = .error fault → 0 < fault.offset := by
  have intact : eager.Intact := ⟨by decide, by decide⟩
  have walked : eager.contents.instructions =
      .ok ⟨0, 1, .constant, some 0, none⟩ :: eager.contents.instructionsFrom 2 :=
    Contents.instructionsFrom_ok rfl rfl
  have missing : eager.validate = .ok (.error (.constantOutOfRange 0 0 0)) := by
    rw [validate_checked intact, walked]
    rfl
  obtain ⟨goes, repairs⟩ := validate_repairs eager intact [⟨7⟩] {}
  obtain ⟨numbers, through⟩ := goes (by decide) (by decide +kernel)
  obtain ⟨more, ⟨before, verdict, first, second, repaired⟩, -⟩ := repairs numbers through
  refine ⟨intact, missing, verdict, second, ?_⟩
  cases missing.symm.trans first
  cases repaired with
  | kept undecodable => cases undecodable
  | missing beyond =>
      rw [more] at beyond
      cases beyond
  | mended there later => exact later

end Chunk

end MeteredChunk
