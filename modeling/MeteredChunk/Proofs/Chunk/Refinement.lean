import MeteredChunk.Proofs.Chunk.Balance
import Mathlib.Data.List.DropRight

/-!
A chunk is two lists: the code units and the constants that came since it was freed
last. Whatever becomes of the heap between two deeds, and whatever hooks do in them
as long as none fails, every reading of the chunk is one of these lists.
-/

namespace MeteredChunk.Chunk

inductive Deed where
  | writeByte (byte : UInt8) (line : UInt32)
  | writeOpcode (opcode : Opcode) (line : UInt32)
  | addConstant (value : Value)
  | free

namespace Deed

def perform : Deed → Heap → Chunk → Effect Chunk (Option Nat)
  | writeByte byte line, heap, chunk => (chunk.writeByte byte line heap).map fun _ => none
  | writeOpcode opcode line, heap, chunk => (chunk.writeOpcode opcode line heap).map fun _ => none
  | addConstant value, heap, chunk => (chunk.addConstant value heap).map some
  | free, heap, chunk => (chunk.free heap).map fun _ => none

def unit? : Deed → Option CodeUnit
  | writeByte byte line => some ⟨byte, line⟩
  | writeOpcode opcode line => some ⟨opcode.toByte, line⟩
  | _ => none

def value? : Deed → Option Value
  | addConstant value => some value
  | _ => none

def isFree : Deed → Bool
  | free => true
  | _ => false

/-- The deeds since the last freeing. -/
def recent (deeds : List Deed) : List Deed := deeds.rtakeWhile fun deed => !deed.isFree

def units (deeds : List Deed) : List CodeUnit := (recent deeds).filterMap unit?

def values (deeds : List Deed) : List Value := (recent deeds).filterMap value?

def answer (past : List Deed) : Deed → Option Nat
  | addConstant _ => some (values past).length
  | _ => none

theorem units_concat (past : List Deed) (deed : Deed) :
    units (past ++ [deed]) = if deed.isFree then [] else units past ++ deed.unit?.toList := by
  unfold units recent
  rw [List.rtakeWhile_concat]
  cases deed <;> simp [isFree, unit?]

theorem values_concat (past : List Deed) (deed : Deed) :
    values (past ++ [deed]) = if deed.isFree then [] else values past ++ deed.value?.toList := by
  unfold values recent
  rw [List.rtakeWhile_concat]
  cases deed <;> simp [isFree, value?]

end Deed

/-- A deed, and what happened to the heap before it. -/
structure Turn where
  meanwhile : Heap → Heap
  deed : Deed

def run (chunk : Chunk) (heap : Heap) : List Turn → List (Except Fault (Option Nat)) × Chunk
  | [] => ([], chunk)
  | turn :: rest =>
      let effect := turn.deed.perform (turn.meanwhile heap) chunk
      let ran := effect.object.run effect.heap rest
      (effect.answer :: ran.1, ran.2)

def Untroubled (chunk : Chunk) (heap : Heap) : List Turn → Prop
  | [] => True
  | turn :: rest =>
      let effect := turn.deed.perform (turn.meanwhile heap) chunk
      effect.Calm (turn.meanwhile heap) ∧ effect.object.Untroubled effect.heap rest

instance decUntroubled (chunk : Chunk) (heap : Heap) :
    (turns : List Turn) → Decidable (chunk.Untroubled heap turns)
  | [] => isTrue trivial
  | turn :: rest =>
      have := decUntroubled (turn.deed.perform (turn.meanwhile heap) chunk).object
        (turn.deed.perform (turn.meanwhile heap) chunk).heap rest
      inferInstanceAs (Decidable (_ ∧ _))

structure Holds (chunk : Chunk) (units : List CodeUnit) (values : List Value) : Prop where
  intact : chunk.Intact
  smallCode : chunk.code.block.bytes < 2 ^ 63
  smallConstants : chunk.constants.values.block.bytes < 2 ^ 63
  units_eq : chunk.code.slots.toList = units
  values_eq : chunk.constants.values.slots.toList = values

theorem holds_new : Holds {} [] [] :=
  ⟨⟨Nat.zero_le _, Nat.zero_le _⟩, by decide, by decide, rfl, rfl⟩

variable {chunk : Chunk} {units : List CodeUnit} {values : List Value} {heap : Heap}

theorem writeByte_holds (byte : UInt8) (line : UInt32) (holds : chunk.Holds units values)
    (calm : (chunk.writeByte byte line heap).Calm heap) :
    (chunk.writeByte byte line heap).answer = .ok () ∧
      (chunk.writeByte byte line heap).object.Holds (units ++ [⟨byte, line⟩]) values := by
  obtain ⟨code, constants⟩ := chunk
  have pushed : (code.push ⟨byte, line⟩ heap).Calm heap := ⟨calm.survived, calm.unrefused⟩
  have added := Store.push_added sized_codeUnit ⟨byte, line⟩ code holds.intact.code
    holds.smallCode pushed
  obtain ⟨kept, slots⟩ := Store.push_ok sized_codeUnit ⟨byte, line⟩ code added.through
  refine ⟨added.through, ⟨kept, holds.intact.constants⟩, added.small, holds.smallConstants, ?_,
    holds.values_eq⟩
  have before := holds.units_eq
  exact slots.trans (congrArg (· ++ [_]) before)

theorem addConstant_pushed (value : Value) (code : Store CodeUnit) (store : Store Value)
    (pushed : (store.push value heap).answer = .ok ()) :
    (⟨code, ⟨store⟩⟩ : Chunk).addConstant value heap =
      .done ((store.push value heap).object.count - 1) ⟨code, ⟨(store.push value heap).object⟩⟩
        (store.push value heap).heap := by
  have within : ((store.push value heap).within Pool.mk).answer = .ok () := pushed
  rw [addConstant, Pool.add, Effect.andThen_through within]
  rfl

theorem addConstant_holds (value : Value) (holds : chunk.Holds units values)
    (calm : (chunk.addConstant value heap).Calm heap) :
    (chunk.addConstant value heap).answer = .ok values.length ∧
      (chunk.addConstant value heap).object.Holds units (values ++ [value]) := by
  obtain ⟨code, ⟨store⟩⟩ := chunk
  have whole : (Pool.add value heap ⟨store⟩).Calm heap := ⟨calm.survived, calm.unrefused⟩
  have pushed : (store.push value heap).Calm heap := by
    have survived := whole.survived
    have unrefused := whole.unrefused
    simp only [Pool.add, Effect.andThen, Effect.within] at survived unrefused
    constructor
    · intro fault broken
      rw [broken] at survived
      exact survived fault rfl
    · cases answer : (store.push value heap).answer with
      | ok done =>
          rw [answer] at unrefused
          exact unrefused
      | error fault =>
          rw [answer] at unrefused
          exact unrefused
  have added := Store.push_added sized_value value store holds.intact.constants
    holds.smallConstants pushed
  obtain ⟨kept, slots⟩ := Store.push_ok sized_value value store added.through
  have before : store.slots.toList = values := holds.values_eq
  have count : store.count = values.length := by
    rw [← before, Store.size_slots store holds.intact.constants]
  rw [addConstant_pushed value code store added.through, added.count_eq, count, Nat.add_sub_cancel]
  refine ⟨rfl, ⟨holds.intact.code, kept⟩, holds.smallCode, added.small, holds.units_eq, ?_⟩
  rw [← before]
  exact slots

theorem free_holds (holds : chunk.Holds units values) (calm : (chunk.free heap).Calm heap) :
    (chunk.free heap).answer = .ok () ∧ (chunk.free heap).object.Holds [] [] := by
  rw [← hold_freeing] at calm ⊢
  obtain ⟨ended, -⟩ := Dialogue.hold_calm (freeing_candid chunk) calm
  rw [(freeing_granted chunk heap.ceiling holds.smallCode holds.smallConstants).1] at ended
  obtain ⟨answer, object⟩ := Prod.mk.inj ended
  rw [object]
  exact ⟨answer, holds_new⟩

/-- One deed: it goes through, with its answer, and the chunk holds what it has come to hold. -/
theorem perform_holds (past : List Deed) (deed : Deed)
    (holds : chunk.Holds (Deed.units past) (Deed.values past))
    (calm : (deed.perform heap chunk).Calm heap) :
    (deed.perform heap chunk).answer = .ok (deed.answer past) ∧
      (deed.perform heap chunk).object.Holds (Deed.units (past ++ [deed]))
        (Deed.values (past ++ [deed])) := by
  have plain {α : Type} {effect : Effect Chunk α} {f : α → Option Nat}
      (calm : (effect.map f).Calm heap) : effect.Calm heap :=
    ⟨Effect.survived_map f calm.survived, calm.unrefused⟩
  rw [Deed.units_concat, Deed.values_concat]
  cases deed with
  | writeByte byte line =>
      obtain ⟨through, after⟩ := writeByte_holds byte line holds (plain calm)
      constructor
      · simp only [Deed.perform, Effect.map, through]
        rfl
      · simp only [Deed.isFree, Deed.unit?, Deed.value?, Bool.false_eq_true, if_false,
          Option.toList_some, Option.toList_none, List.append_nil]
        exact after
  | writeOpcode opcode line =>
      obtain ⟨through, after⟩ := writeByte_holds opcode.toByte line holds (plain calm)
      constructor
      · simp only [Deed.perform, writeOpcode, Effect.map, through]
        rfl
      · simp only [Deed.isFree, Deed.unit?, Deed.value?, Bool.false_eq_true, if_false,
          Option.toList_some, Option.toList_none, List.append_nil]
        exact after
  | addConstant value =>
      obtain ⟨through, after⟩ := addConstant_holds value holds (plain calm)
      constructor
      · simp only [Deed.perform, Effect.map, through]
        rfl
      · simp only [Deed.isFree, Deed.unit?, Deed.value?, Bool.false_eq_true, if_false,
          Option.toList_some, Option.toList_none, List.append_nil]
        exact after
  | free =>
      obtain ⟨through, after⟩ := free_holds holds (plain calm)
      refine ⟨?_, after⟩
      simp only [Deed.perform, Effect.map, through]
      rfl

theorem run_holds (turns : List Turn) (past : List Deed)
    (holds : chunk.Holds (Deed.units past) (Deed.values past))
    (untroubled : chunk.Untroubled heap turns) :
    (chunk.run heap turns).1 = turns.mapIdx (fun index turn =>
        .ok (turn.deed.answer (past ++ (turns.take index).map Turn.deed))) ∧
      (chunk.run heap turns).2.Holds (Deed.units (past ++ turns.map Turn.deed))
        (Deed.values (past ++ turns.map Turn.deed)) := by
  -- On the turns to come; what a deed meets is told by the deeds of the past alone.
  induction turns generalizing chunk heap past with
  | nil =>
      rw [List.map_nil, List.append_nil]
      exact ⟨rfl, holds⟩
  | cons turn rest ih =>
      obtain ⟨calm, later⟩ := untroubled
      obtain ⟨answered, after⟩ := perform_holds past turn.deed holds calm
      obtain ⟨answers, last⟩ := ih (past ++ [turn.deed]) after later
      simp only [run, List.mapIdx_cons, List.take_zero, List.take_succ_cons, List.map_nil,
        List.map_cons, List.append_nil]
      rw [List.append_assoc, List.singleton_append] at last
      refine ⟨?_, last⟩
      rw [answered, answers]
      simp only [List.append_assoc, List.singleton_append]

structure Reads (chunk : Chunk) (units : List CodeUnit) (values : List Value) : Prop where
  units_eq : chunk.units = .ok units
  bytes_eq : chunk.bytes = .ok (units.map CodeUnit.byte)
  lines_eq : chunk.lines = .ok (units.map CodeUnit.line)
  size_eq : chunk.size = units.length
  unitAt_eq : ∀ offset, chunk.unitAt? offset = .ok units[offset]?
  byteAt_eq : ∀ offset, chunk.byteAt? offset = .ok (units.map CodeUnit.byte)[offset]?
  lineAt_eq : ∀ offset, chunk.lineAt? offset = .ok (units.map CodeUnit.line)[offset]?
  constants_eq : chunk.constants.items = .ok values
  constantCount_eq : chunk.constants.size = values.length
  constant_eq : ∀ number, chunk.constants.get? number = .ok values[number]?

theorem reads_holds (holds : chunk.Holds units values) : chunk.Reads units values := by
  have code := Store.items_intact chunk.code holds.intact.code
  have pool := Store.items_intact chunk.constants.values holds.intact.constants
  have unitAt := Store.get?_intact chunk.code holds.intact.code
  have constant := Store.get?_intact chunk.constants.values holds.intact.constants
  have size := Store.size_slots chunk.code holds.intact.code
  have count := Store.size_slots chunk.constants.values holds.intact.constants
  rw [holds.units_eq] at code size
  rw [holds.values_eq] at pool count
  simp only [holds.units_eq] at unitAt
  simp only [holds.values_eq] at constant
  refine ⟨code, ?_, ?_, size.symm, unitAt, fun offset => ?_, fun offset => ?_, pool, count.symm,
    constant⟩
  · rw [bytes, Chunk.units, code]
    rfl
  · rw [lines, Chunk.units, code]
    rfl
  · rw [byteAt?, unitAt?, unitAt offset, List.getElem?_map]
    rfl
  · rw [lineAt?, unitAt?, unitAt offset, List.getElem?_map]
    rfl

/-- A chunk reads as the code units and constants that were added since it was freed last, whatever
happens to the heap between the deeds, and each constant gets the number of those before it. -/
theorem run_refines (heap : Heap) (turns : List Turn)
    (untroubled : ({} : Chunk).Untroubled heap turns) :
    let ran := ({} : Chunk).run heap turns
    let deeds := turns.map Turn.deed
    ran.2.Reads (Deed.units deeds) (Deed.values deeds) ∧
      ran.1 = turns.mapIdx fun index turn => .ok (turn.deed.answer (deeds.take index)) := by
  obtain ⟨answers, holds⟩ := run_holds turns [] holds_new untroubled
  refine ⟨reads_holds holds, answers.trans ?_⟩
  simp only [List.nil_append, List.map_take]

def restarted : List Turn :=
  [⟨(·.enlist (.reenter 32)), .writeByte 7 1⟩, ⟨id, .addConstant ⟨0x7ff8000000000001⟩⟩,
    ⟨id, .free⟩, ⟨(·.enlist .reset), .writeOpcode .constant 2⟩,
    ⟨id, .addConstant ⟨0x8000000000000000⟩⟩, ⟨Heap.resetCounters, .writeByte 1 2⟩,
    ⟨id, .addConstant ⟨0x8000000000000000⟩⟩]

theorem run_refines_restarted :
    ({} : Chunk).Untroubled {} restarted ∧
      (({} : Chunk).run {} restarted).2.Reads [⟨0, 2⟩, ⟨1, 2⟩]
        [⟨0x8000000000000000⟩, ⟨0x8000000000000000⟩] ∧
      (({} : Chunk).run {} restarted).1 =
        [.ok none, .ok (some 0), .ok none, .ok none, .ok (some 0), .ok none, .ok (some 1)] := by
  have untroubled : ({} : Chunk).Untroubled {} restarted := by decide +kernel
  obtain ⟨reads, answers⟩ := run_refines {} restarted untroubled
  exact ⟨untroubled, reads, answers⟩

end MeteredChunk.Chunk
