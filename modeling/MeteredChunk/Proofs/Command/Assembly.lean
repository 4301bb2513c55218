import MeteredChunk.Command.Run
import MeteredChunk.Proofs.Chunk.Grammar
import MeteredChunk.Proofs.Chunk.Refinement

/-!
Assembling a program. Lines end with the 32-bit words and constant numbers with the
bytes; which end comes first is told by the first line and by how many constants
there are. Up to there the chunk holds the loads of the constants so far, and this
is what the loop keeps.
-/

namespace MeteredChunk

variable {heap : Heap} {units : List CodeUnit} {values : List Value} {ceiling : Nat}

namespace Chunk

structure Settled (units : List CodeUnit) (values : List Value) (ceiling : Nat) (chunk : Chunk)
    (heap : Heap) : Prop where
  holds : chunk.Holds units values
  vacant : heap.slot = none
  ceiling_eq : heap.ceiling = ceiling

variable {chunk : Chunk}

theorem hold_writingByte (byte : UInt8) (line : UInt32) (chunk : Chunk) (heap : Heap) :
    ((chunk.code.pushing ⟨byte, line⟩).within (Chunk.mk · chunk.constants)).hold heap =
      chunk.writeByte byte line heap := by
  rw [Dialogue.hold_within, Store.hold_pushing]
  rfl

theorem hold_addingConstant (value : Value) (chunk : Chunk) (heap : Heap) :
    ((chunk.constants.adding value).within (Chunk.mk chunk.code)).hold heap =
      chunk.addConstant value heap := by
  rw [Dialogue.hold_within, Pool.hold_adding]
  rfl

theorem writeByte_settled (byte : UInt8) (line : UInt32)
    (settled : chunk.Settled units values ceiling heap)
    (room : (8 + 2 * units.length) * 8 < ceiling) :
    (chunk.writeByte byte line heap).answer = .ok () ∧
      (chunk.writeByte byte line heap).object.Settled (units ++ [⟨byte, line⟩]) values ceiling
        (chunk.writeByte byte line heap).heap := by
  have holds := settled.holds
  have count : chunk.code.count = units.length := by
    rw [← holds.units_eq, Store.size_slots chunk.code holds.intact.code]
  have pushed := Store.push_unwatched sized_codeUnit ⟨byte, line⟩ chunk.code holds.intact.code
    settled.vacant (by rw [count, settled.ceiling_eq]; exact room)
  have through : (chunk.writeByte byte line heap).answer = .ok () := pushed.1
  have calm := Dialogue.calm_vacant settled.vacant (hold_writingByte byte line chunk heap) through
  constructor
  · exact through
  · exact ⟨(writeByte_holds byte line holds calm).2, pushed.2.1,
      pushed.2.2.trans settled.ceiling_eq⟩

theorem addConstant_settled (value : Value) (settled : chunk.Settled units values ceiling heap)
    (room : (8 + 2 * values.length) * 8 < ceiling) :
    (chunk.addConstant value heap).answer = .ok values.length ∧
      (chunk.addConstant value heap).object.Settled units (values ++ [value]) ceiling
        (chunk.addConstant value heap).heap := by
  have holds := settled.holds
  have store : ∃ code pool, chunk = ⟨code, ⟨pool⟩⟩ := ⟨_, _, rfl⟩
  obtain ⟨code, pool, rfl⟩ := store
  have count : pool.count = values.length := by
    rw [← holds.values_eq, Store.size_slots pool holds.intact.constants]
  have pushed := Store.push_unwatched sized_value value pool holds.intact.constants
    settled.vacant (by rw [count, settled.ceiling_eq]; exact room)
  have whole := addConstant_pushed value code pool pushed.1
  have through := congrArg Effect.answer whole
  have calm := Dialogue.calm_vacant settled.vacant (hold_addingConstant value _ heap) through
  have added := addConstant_holds value holds calm
  constructor
  · exact added.1
  · refine ⟨added.2, ?_, ?_⟩
    · rw [whole]
      exact pushed.2.1
    · rw [whole]
      exact pushed.2.2.trans settled.ceiling_eq

theorem write_settled (added : List CodeUnit) (settled : chunk.Settled units values ceiling heap)
    (room : (8 + 2 * (units.length + added.length)) * 8 < ceiling) :
    (chunk.write added heap).answer = .ok () ∧
      (chunk.write added heap).object.Settled (units ++ added) values ceiling
        (chunk.write added heap).heap := by
  induction added generalizing chunk heap units with
  | nil =>
      rw [List.append_nil]
      exact ⟨rfl, settled⟩
  | cons unit rest ih =>
      rw [List.length_cons] at room
      have first := writeByte_settled unit.byte unit.line settled (by omega)
      rw [← List.singleton_append, write_append, write_singleton,
        Effect.andThen_through first.1, ← List.append_assoc]
      apply ih first.2
      rw [List.length_append, List.length_singleton]
      omega

/-- What went through went as it would have with room to spare. -/
theorem writeByte_passes (byte : UInt8) (line : UInt32)
    (settled : chunk.Settled units values ceiling heap)
    (through : (chunk.writeByte byte line heap).answer = .ok ()) :
    (chunk.writeByte byte line heap).object.Settled (units ++ [⟨byte, line⟩]) values
      (chunk.writeByte byte line heap).heap.ceiling (chunk.writeByte byte line heap).heap := by
  have held := hold_writingByte byte line chunk heap
  have calm := Dialogue.calm_vacant settled.vacant held through
  refine ⟨(writeByte_holds byte line settled.holds calm).2, ?_, rfl⟩
  rw [← held, Dialogue.hold_vacant _ settled.vacant]
  exact (Heap.serveAll_vacant _ settled.vacant).1

theorem write_passes (added : List CodeUnit) (settled : chunk.Settled units values ceiling heap)
    (through : (chunk.write added heap).answer = .ok ()) :
    (chunk.write added heap).object.Settled (units ++ added) values
      (chunk.write added heap).heap.ceiling (chunk.write added heap).heap := by
  induction added generalizing chunk heap units ceiling with
  | nil =>
      rw [List.append_nil]
      exact ⟨settled.holds, settled.vacant, rfl⟩
  | cons unit rest ih =>
      rw [← List.singleton_append, write_append, write_singleton] at through ⊢
      obtain ⟨⟨⟩, first, same⟩ := Effect.andThen_ok through
      rw [same] at through ⊢
      rw [← List.append_assoc]
      exact ih (writeByte_passes unit.byte unit.line settled first) through

end Chunk

namespace Command

def loads (first count : Nat) : List CodeUnit :=
  (List.range count).flatMap fun number =>
    let line := UInt32.ofNat (first + number)
    [⟨0, line⟩, ⟨UInt8.ofNat number, line⟩]

def program (first count : Nat) (raw : List UInt8) : List CodeUnit :=
  let line := UInt32.ofNat (first + (count - 1))
  loads first count ++ ⟨1, line⟩ :: raw.map (CodeUnit.mk · line)

/-- The fault of the limit that is met first, that of the lines or that of the constant numbers. -/
def verdict (first count : Nat) : Except AssemblyFault Unit :=
  if UInt32.size ≤ first + min (count - 1) 256 then .error .lineOutOfRange
  else if 256 < count then .error (.constantNumber 256)
  else .ok ()

theorem loads_succ (first count : Nat) :
    loads first (count + 1) = loads first count ++
      [⟨0, UInt32.ofNat (first + count)⟩, ⟨UInt8.ofNat count, UInt32.ofNat (first + count)⟩] := by
  rw [loads, List.range_succ, List.flatMap_append, List.flatMap_singleton]
  rfl

theorem length_loads (first count : Nat) : (loads first count).length = 2 * count := by
  induction count with
  | zero => rfl
  | succ count ih => rw [loads_succ, List.length_append, ih]; rfl

section Ends
variable {first count : Nat}

theorem verdict_line {loaded : Nat} (few : loaded ≤ 256) (more : loaded < count)
    (beyond : UInt32.size ≤ first + loaded) : verdict first count = .error .lineOutOfRange := by
  apply if_pos
  have least : loaded ≤ min (count - 1) 256 := le_min (Nat.le_sub_one_of_lt more) few
  exact beyond.trans (Nat.add_le_add_left least first)

theorem verdict_number (more : 256 < count) (fits : first + 256 < UInt32.size) :
    verdict first count = .error (.constantNumber 256) := by
  have inside : ¬UInt32.size ≤ first + min (count - 1) 256 := by omega
  rw [verdict, if_neg inside, if_pos more]

theorem verdict_ok (few : count ≤ 256) (fits : first + (count - 1) < UInt32.size) :
    verdict first count = .ok () := by
  have inside : ¬UInt32.size ≤ first + min (count - 1) 256 := by omega
  rw [verdict, if_neg inside, if_neg (Nat.not_lt_of_le few)]

end Ends

/-- One turn of the loop, for a constant that is added already: the opcode and the number of the
constant go through, and one more constant is loaded. -/
theorem load_settled (first : Nat) (value : Value) {before : List Value} {chunk : Chunk}
    (added : chunk.Settled (loads first before.length) (before ++ [value]) ceiling heap)
    (few : before.length < 256) (room : (8 + 2 * 513) * 8 < ceiling) :
    let line := UInt32.ofNat (first + before.length)
    let opcode := chunk.writeOpcode .constant line heap
    let operand := opcode.object.writeByte (UInt8.ofNat before.length) line opcode.heap
    opcode.answer = .ok () ∧ operand.answer = .ok () ∧
      operand.object.Settled (loads first (before ++ [value]).length) (before ++ [value]) ceiling
        operand.heap := by
  intro line opcode operand
  have length := length_loads first before.length
  have written := Chunk.writeByte_settled Opcode.constant.toByte line added (by omega)
  have numbered := Chunk.writeByte_settled (UInt8.ofNat before.length) line written.2
    (by rw [List.length_append, List.length_singleton]; omega)
  have loaded : loads first (before ++ [value]).length =
      loads first before.length ++ [⟨Opcode.constant.toByte, line⟩] ++
        [⟨UInt8.ofNat before.length, line⟩] := by
    rw [List.length_append, List.append_assoc]
    exact loads_succ first before.length
  rw [loaded]
  exact ⟨written.1, numbered.1, numbered.2⟩

/-- The loop, from where a number of constants are loaded: it ends by the verdict on all of them,
and if that lets it, it loads the rest. -/
theorem assembleLoads_settled (first : Nat) (rest : List Value) {before : List Value} {chunk : Chunk}
    (settled : chunk.Settled (loads first before.length) before ceiling heap)
    (few : before.length ≤ 256) (inRange : first + (before.length - 1) < UInt32.size)
    (room : (8 + 2 * 513) * 8 < ceiling) :
    let count := before.length + rest.length
    let effect := assembleLoads (first + before.length) (first + (before.length - 1)) rest chunk heap
    effect.answer = .ok ((verdict first count).map fun _ => first + (count - 1)) ∧
      (verdict first count = .ok () →
        effect.object.Settled (loads first count) (before ++ rest) ceiling effect.heap) := by
  -- On the constants to come; those before them are the ones that are loaded.
  induction rest generalizing before chunk heap with
  | nil =>
      simp only [List.length_nil, Nat.add_zero, List.append_nil, verdict_ok few inRange]
      exact ⟨rfl, fun _ => settled⟩
  | cons value rest ih =>
      have more : before.length < before.length + (value :: rest).length :=
        Nat.lt_add_of_pos_right (Nat.succ_pos _)
      simp only [assembleLoads]
      by_cases beyond : UInt32.size ≤ first + before.length
      · rw [if_pos beyond, verdict_line few more beyond]
        exact ⟨rfl, fun passes => by cases passes⟩
      · have added := Chunk.addConstant_settled value settled (by omega)
        rw [if_neg beyond, Effect.andThen_through added.1]
        -- The number is looked at when the constant is in the pool already.
        by_cases full : UInt8.size ≤ before.length
        · have last : before.length = 256 := Nat.le_antisymm few full
          rw [last] at more beyond
          rw [if_pos full, last, verdict_number more (Nat.lt_of_not_le beyond)]
          exact ⟨rfl, fun passes => by cases passes⟩
        · have numbered : before.length < 256 := Nat.lt_of_not_le full
          obtain ⟨opcode, operand, loaded⟩ := load_settled first value added.2 numbered room
          rw [if_neg full, Effect.andThen_through opcode, Effect.andThen_through operand]
          have longer : (before ++ [value]).length = before.length + 1 := List.length_append
          have all : before.length + (value :: rest).length = before.length + 1 + rest.length := by
            rw [List.length_cons, Nat.add_right_comm, Nat.add_assoc]
          have next := ih loaded (by omega) (by omega)
          simp only [longer, Nat.add_sub_cancel] at next
          rw [← List.append_cons] at next
          rw [all]
          exact next

def prologue (first count : Nat) : List CodeUnit :=
  loads first count ++ [⟨1, UInt32.ofNat (first + (count - 1))⟩]

theorem program_eq (first count : Nat) (raw : List UInt8) :
    program first count raw = prologue first count ++
      raw.map (CodeUnit.mk · (UInt32.ofNat (first + (count - 1)))) := by
  rw [prologue, List.append_assoc]
  rfl

/-- Up to the raw bytes the verdict alone decides, and they are written after all the rest. -/
theorem assemble_raw (values : List Value) (firstLine : UInt32) (raw : List UInt8)
    (vacant : heap.slot = none) (room : (8 + 2 * 513) * 8 < heap.ceiling) :
    let first := firstLine.toNat
    let count := values.length
    let effect := assemble values firstLine raw heap
    (∀ fault, verdict first count = .error fault → effect.answer = .ok (.error fault)) ∧
      (verdict first count = .ok () → count ≤ 256 ∧ ∃ (chunk : Chunk) (heapToo : Heap),
        chunk.Settled (prologue first count) values heap.ceiling heapToo ∧
          effect = (chunk.write (raw.map (CodeUnit.mk · (UInt32.ofNat (first + (count - 1)))))
            heapToo).map .ok) := by
  intro first count effect
  have start : ({} : Chunk).Settled (loads first ([] : List Value).length) [] heap.ceiling heap :=
    ⟨Chunk.holds_new, vacant, rfl⟩
  have loaded := assembleLoads_settled first values start (Nat.zero_le _) firstLine.toNat_lt room
  simp only [List.length_nil, Nat.zero_add, Nat.add_zero, Nat.zero_sub, List.nil_append] at loaded
  have length := length_loads first values.length
  have answered := loaded.1
  constructor
  · intro fault fails
    rw [fails] at answered
    simp only [effect, assemble]
    rw [Effect.andThen_through answered]
    rfl
  · intro passes
    rw [passes] at answered
    have few : count ≤ 256 := by
      by_contra many
      rw [verdict, if_pos (Nat.not_le.mp many)] at passes
      split at passes <;> cases passes
    have opcode := Chunk.writeByte_settled Opcode.ret.toByte
      (UInt32.ofNat (first + (count - 1))) (loaded.2 passes) (by omega)
    refine ⟨few, _, _, opcode.2, ?_⟩
    simp only [effect, assemble]
    rw [Effect.andThen_through answered]
    simp only [Except.map, Chunk.writeOpcode]
    rw [Effect.andThen_through opcode.1]

/-- All of it: the verdict is the answer, and if it lets the program through, the chunk holds it. -/
theorem assemble_settled (values : List Value) (firstLine : UInt32) (raw : List UInt8)
    (vacant : heap.slot = none) (room : (8 + 2 * (513 + raw.length)) * 8 < heap.ceiling) :
    let count := values.length
    let effect := assemble values firstLine raw heap
    effect.answer = .ok (verdict firstLine.toNat count) ∧
      (verdict firstLine.toNat count = .ok () →
        effect.object.Holds (program firstLine.toNat count raw) values) := by
  intro count effect
  obtain ⟨stops, goes⟩ := assemble_raw values firstLine raw vacant (by omega)
  cases decided : verdict firstLine.toNat count with
  | error fault => exact ⟨stops fault decided, fun passes => by cases passes⟩
  | ok done =>
      obtain ⟨few, chunk, heapToo, settled, same⟩ := goes decided
      have length := length_loads firstLine.toNat values.length
      have written := Chunk.write_settled
        (raw.map (CodeUnit.mk · (UInt32.ofNat (firstLine.toNat + (count - 1))))) settled
        (by rw [prologue, List.length_append, List.length_singleton, List.length_map]; omega)
      rw [program_eq]
      simp only [effect, same]
      exact ⟨congrArg (Except.map _) written.1, fun _ => written.2.holds⟩

/-- A program that is there, however long it is, is there as a whole. -/
theorem assemble_passes (values : List Value) (firstLine : UInt32) (raw : List UInt8)
    (vacant : heap.slot = none) (room : (8 + 2 * 513) * 8 < heap.ceiling)
    (through : (assemble values firstLine raw heap).answer = .ok (.ok ())) :
    values.length ≤ 256 ∧ ∃ ceiling,
      (assemble values firstLine raw heap).object.Settled (program firstLine.toNat values.length raw)
        values ceiling (assemble values firstLine raw heap).heap := by
  obtain ⟨stops, goes⟩ := assemble_raw values firstLine raw vacant room
  cases decided : verdict firstLine.toNat values.length with
  | error fault => cases (stops fault decided).symm.trans through
  | ok done =>
      obtain ⟨few, chunk, heapToo, settled, same⟩ := goes decided
      rw [same] at through ⊢
      obtain ⟨⟨⟩, written, -⟩ := Effect.map_ok through
      rw [program_eq]
      exact ⟨few, _, Chunk.write_passes _ settled written⟩

/-- Assembly succeeds exactly below both limits, and then the chunk holds the program of the
settings. Otherwise the answer is the fault of the limit that is met first. -/
theorem assemble_builds (settings : Settings) (heap : Heap) (vacant : heap.slot = none)
    (room : (8 + 2 * (513 + settings.raw.length)) * 8 < heap.ceiling) :
    let values := settings.loaded
    let count := values.length
    let first := settings.firstLine.toNat
    let effect := assemble values settings.firstLine settings.raw heap
    (effect.answer = .ok (.ok ()) ↔ count ≤ 256 ∧ first + count - 1 ≤ 2 ^ 32 - 1) ∧
      (effect.answer = .ok (.ok ()) → effect.object.Reads (program first count settings.raw) values) ∧
      (effect.answer ≠ .ok (.ok ()) →
        effect.answer = .ok (.error
          (if 2 ^ 32 - 1 < first + min (count - 1) 256 then .lineOutOfRange
          else .constantNumber 256))) := by
  intro values count first effect
  have settled := assemble_settled values settings.firstLine settings.raw vacant room
  have answered : effect.answer = .ok (verdict first count) := settled.1
  have size : UInt32.size = 2 ^ 32 := rfl
  have below : first < 2 ^ 32 := settings.firstLine.toNat_lt
  rw [answered]
  by_cases beyond : UInt32.size ≤ first + min (count - 1) 256
  · have fails : verdict first count = .error .lineOutOfRange := if_pos beyond
    rw [fails]
    refine ⟨⟨fun same => (by cases same), fun fits => ?_⟩, fun same => (by cases same), fun _ => ?_⟩
    · omega
    · rw [if_pos (by omega)]
  · by_cases many : 256 < count
    · have fails : verdict first count = .error (.constantNumber 256) := by
        rw [verdict, if_neg beyond, if_pos many]
      rw [fails]
      refine ⟨⟨fun same => (by cases same), fun fits => ?_⟩, fun same => (by cases same), fun _ => ?_⟩
      · omega
      · rw [if_neg (by omega)]
    · have passes : verdict first count = .ok () := by
        rw [verdict, if_neg beyond, if_neg many]
      rw [passes]
      refine ⟨⟨fun _ => ?_, fun _ => rfl⟩, fun _ => ?_, fun fails => absurd rfl fails⟩
      · omega
      · exact Chunk.reads_holds (settled.2 passes)

/-- Two constants on the last two lines, a third one for which no line is left, and one constant
more than the numbers reach. -/
theorem assemble_builds_ends :
    let most : Settings := { constants := [⟨0⟩, ⟨1⟩], line := some 4294967294, raw := [7] }
    let late : Settings := { constants := [⟨0⟩, ⟨1⟩, ⟨2⟩], line := some 4294967294 }
    let more : Settings := { constants := List.replicate 257 ⟨0⟩ }
    (assemble most.loaded most.firstLine most.raw {}).object.Reads
        (program most.firstLine.toNat most.loaded.length most.raw) most.loaded ∧
      (assemble late.loaded late.firstLine late.raw {}).answer = .ok (.error .lineOutOfRange) ∧
      (assemble more.loaded more.firstLine more.raw {}).answer =
        .ok (.error (.constantNumber 256)) := by
  intro most late more
  have whole := assemble_builds most {} rfl (by decide)
  have tooLate := assemble_builds late {} rfl (by decide)
  have tooMany := assemble_builds more {} rfl (by decide)
  have beyond : 2 ^ 32 - 1 < late.firstLine.toNat + min (late.loaded.length - 1) 256 := by
    decide +kernel
  have within : ¬2 ^ 32 - 1 < more.firstLine.toNat + min (more.loaded.length - 1) 256 := by
    decide +kernel
  have reads := whole.2.1 (whole.1.mpr (by decide +kernel))
  have lineFails := tooLate.2.2 fun passes => absurd (tooLate.1.mp passes) (by decide +kernel)
  have numberFails := tooMany.2.2 fun passes => absurd (tooMany.1.mp passes) (by decide +kernel)
  exact ⟨reads,
    lineFails.trans (congrArg (fun fault => Except.ok (Except.error fault)) (if_pos beyond)),
    numberFails.trans (congrArg (fun fault => Except.ok (Except.error fault)) (if_neg within))⟩

end Command

end MeteredChunk
