import MeteredChunk.Proofs.Store.Granted

/-!
Pools and chunks keep the balance of their heap, and talk to it in dialogues.
-/

namespace MeteredChunk

/-! ## Balance

Pools and chunks keep the balance of their heap. A chunk has two stores, and what
is done to one of them leaves the other where it is.
-/

section Balance
variable {ceiling bytes blocks : Nat} {heap : Heap}

theorem sized_codeUnit : Block.Sized CodeUnit := by
  unfold Block.Sized
  decide

theorem sized_value : Block.Sized Value := by
  unfold Block.Sized
  decide

namespace Pool

abbrev Held (ceiling bytes blocks : Nat) (pool : Pool) (heap : Heap) : Prop :=
  pool.values.Held ceiling bytes blocks heap

theorem add_leaves (value : Value) (pool : Pool)
    (held : pool.Held ceiling bytes blocks heap) :
    (pool.add value heap).Leaves (Held ceiling bytes blocks) := by
  have pushed := Store.push_leaves sized_value value pool.values held
  exact Effect.leaves_andThen (Effect.leaves_within pushed) (fun _ _ kept => kept)
    fun _ _ _ kept => Effect.leaves_done _ _ _ kept

theorem addAll_leaves (values : List Value) (pool : Pool)
    (held : pool.Held ceiling bytes blocks heap) :
    (pool.addAll heap values).Leaves (Held ceiling bytes blocks) := by
  induction values generalizing pool heap with
  | nil => exact Effect.leaves_done _ _ _ held
  | cons value rest ih =>
      exact Effect.leaves_andThen (add_leaves value pool held) (fun _ _ kept => kept)
        fun _ longer _ kept => Effect.leaves_map _ (ih longer kept)

theorem free_leaves (pool : Pool)
    (held : pool.Held ceiling bytes blocks heap) :
    (pool.free heap).Leaves fun freed heap =>
      freed.Held ceiling bytes blocks heap ∧ freed.values.block.bytes = 0 :=
  Effect.leaves_within (Store.free_leaves sized_value pool.values held)

end Pool

namespace Chunk

def bytesHeld (chunk : Chunk) : Nat := chunk.code.block.bytes + chunk.constants.values.block.bytes

def blocksHeld (chunk : Chunk) : Nat :=
  occupied chunk.code.block.bytes + occupied chunk.constants.values.block.bytes

structure Held (ceiling bytes blocks : Nat) (chunk : Chunk) (heap : Heap) : Prop where
  balanced : heap.Balanced ceiling (bytes + chunk.bytesHeld) (blocks + chunk.blocksHeld)
  smallCode : chunk.code.block.bytes < 2 ^ 63
  smallConstants : chunk.constants.values.block.bytes < 2 ^ 63

theorem held_iff_code (chunk : Chunk) :
    chunk.Held ceiling bytes blocks heap ↔
      chunk.code.Held ceiling (bytes + chunk.constants.values.block.bytes)
        (blocks + occupied chunk.constants.values.block.bytes) heap ∧
      chunk.constants.values.block.bytes < 2 ^ 63 := by
  have same : bytes + chunk.bytesHeld =
      bytes + chunk.constants.values.block.bytes + chunk.code.block.bytes := by
    unfold bytesHeld
    omega
  have sameBlocks : blocks + chunk.blocksHeld = blocks +
      occupied chunk.constants.values.block.bytes + occupied chunk.code.block.bytes := by
    unfold blocksHeld
    omega
  constructor
  · rintro ⟨balanced, small, smallToo⟩
    rw [same, sameBlocks] at balanced
    exact ⟨⟨balanced, small⟩, smallToo⟩
  · rintro ⟨⟨balanced, small⟩, smallToo⟩
    unfold Block.Held at balanced
    rw [← same, ← sameBlocks] at balanced
    exact ⟨balanced, small, smallToo⟩

theorem held_iff_constants (chunk : Chunk) :
    chunk.Held ceiling bytes blocks heap ↔
      chunk.constants.Held ceiling (bytes + chunk.code.block.bytes)
        (blocks + occupied chunk.code.block.bytes) heap ∧ chunk.code.block.bytes < 2 ^ 63 := by
  have same : bytes + chunk.bytesHeld =
      bytes + chunk.code.block.bytes + chunk.constants.values.block.bytes := by
    unfold bytesHeld
    omega
  have sameBlocks : blocks + chunk.blocksHeld = blocks +
      occupied chunk.code.block.bytes + occupied chunk.constants.values.block.bytes := by
    unfold blocksHeld
    omega
  constructor
  · rintro ⟨balanced, small, smallToo⟩
    rw [same, sameBlocks] at balanced
    exact ⟨⟨balanced, smallToo⟩, small⟩
  · rintro ⟨⟨balanced, smallToo⟩, small⟩
    unfold Block.Held at balanced
    rw [← same, ← sameBlocks] at balanced
    exact ⟨balanced, small, smallToo⟩

theorem code_leaves {α : Type} {effect : Effect (Store CodeUnit) α} {constants : Pool}
    (small : constants.values.block.bytes < 2 ^ 63)
    (left : effect.Leaves (Store.Held ceiling (bytes + constants.values.block.bytes)
      (blocks + occupied constants.values.block.bytes))) :
    (effect.within (Chunk.mk · constants)).Leaves (Held ceiling bytes blocks) :=
  Effect.leaves_within (Effect.leaves_mono left fun code _ kept =>
    (held_iff_code ⟨code, constants⟩).mpr ⟨kept, small⟩)

theorem constants_leaves {α : Type} {effect : Effect Pool α} {code : Store CodeUnit}
    (small : code.block.bytes < 2 ^ 63)
    (left : effect.Leaves (Pool.Held ceiling (bytes + code.block.bytes)
      (blocks + occupied code.block.bytes))) :
    (effect.within (Chunk.mk code)).Leaves (Held ceiling bytes blocks) :=
  Effect.leaves_within (Effect.leaves_mono left fun constants _ kept =>
    (held_iff_constants ⟨code, constants⟩).mpr ⟨kept, small⟩)

theorem write_leaves (units : List CodeUnit) (chunk : Chunk)
    (held : chunk.Held ceiling bytes blocks heap) :
    (chunk.write units heap).Leaves (Held ceiling bytes blocks) := by
  obtain ⟨code, constants⟩ := chunk
  obtain ⟨kept, small⟩ := (held_iff_code _).mp held
  exact code_leaves small (Store.extend_leaves sized_codeUnit units code kept)

theorem addConstants_leaves (values : List Value) (chunk : Chunk)
    (held : chunk.Held ceiling bytes blocks heap) :
    (chunk.addConstants values heap).Leaves (Held ceiling bytes blocks) := by
  obtain ⟨code, constants⟩ := chunk
  obtain ⟨kept, small⟩ := (held_iff_constants _).mp held
  exact constants_leaves small (Pool.addAll_leaves values constants kept)

theorem free_leaves (chunk : Chunk)
    (held : chunk.Held ceiling bytes blocks heap) :
    (chunk.free heap).Leaves (Held ceiling bytes blocks) := by
  obtain ⟨code, constants⟩ := chunk
  obtain ⟨kept, small⟩ := (held_iff_code _).mp held
  have freed := Effect.leaves_mono (Store.free_leaves sized_codeUnit code kept)
    fun _ _ both => both.1
  refine Effect.leaves_andThen (code_leaves small freed) (fun _ _ kept => kept)
    fun _ between _ held => ?_
  obtain ⟨kept, small⟩ := (held_iff_constants _).mp held
  exact constants_leaves small
    (Effect.leaves_mono (Pool.free_leaves between.constants kept) fun _ _ both => both.1)

theorem discard_survived (chunk : Chunk)
    (survived : ∀ fault, (chunk.discard heap).1 = .error fault → fault.isFatal = false) :
    (chunk.code.free heap).Survived ∧
      (chunk.constants.free (chunk.code.free heap).heap).Survived := by
  unfold discard at survived
  unfold Effect.Survived
  dsimp only at survived
  -- The constants go also when the code fails to. Two faults at once are fatal.
  generalize (chunk.code.free heap).answer = code at *
  generalize (chunk.constants.free (chunk.code.free heap).heap).answer = constants at *
  cases code with
  | ok done => exact ⟨fun _ broken => (by cases broken), survived⟩
  | error first =>
      cases constants with
      | ok done => exact ⟨survived, fun _ broken => by cases broken⟩
      | error second =>
          have contained := survived _ rfl
          rw [Fault.followedBy_fatal] at contained
          cases contained

theorem discard_balanced (chunk : Chunk)
    (held : chunk.Held ceiling bytes blocks heap)
    (survived : ∀ fault, (chunk.discard heap).1 = .error fault → fault.isFatal = false) :
    (chunk.discard heap).2.Balanced ceiling bytes blocks := by
  obtain ⟨code, constants⟩ := chunk
  obtain ⟨first, second⟩ := discard_survived _ survived
  obtain ⟨kept, small⟩ := (held_iff_code _).mp held
  obtain ⟨freed, empty⟩ := Store.free_leaves sized_codeUnit code kept first
  have between : constants.Held ceiling bytes blocks (code.free heap).heap := by
    have balanced := freed.held
    unfold Block.Held at balanced
    rw [empty] at balanced
    exact ⟨balanced, small⟩
  obtain ⟨last, emptyToo⟩ := Pool.free_leaves constants between second
  have balanced := last.held
  unfold Block.Held at balanced
  rw [emptyToo] at balanced
  exact balanced

end Chunk

end Balance

/-! ## Dialogues

Pools and chunks as dialogues with their heap. A chunk lets its code speak first and
its pool after it; in the end each of the two is given back, whatever became of the
other.
-/

namespace Pool

def adding (value : Value) : Pool → Dialogue Pool Nat
  | ⟨values⟩ =>
      ((values.pushing value).within Pool.mk).andThen
        fun _ pool => .close (.ok (pool.size - 1)) pool

def addingAll (pool : Pool) : List Value → Dialogue Pool (List Nat)
  | [] => .close (.ok []) pool
  | value :: rest =>
      (pool.adding value).andThen fun number pool => (pool.addingAll rest).map (number :: ·)

def freeing : Pool → Dialogue Pool Unit
  | ⟨values⟩ => values.freeing.within Pool.mk

theorem hold_adding (value : Value) (pool : Pool) (heap : Heap) :
    (pool.adding value).hold heap = pool.add value heap := by
  obtain ⟨values⟩ := pool
  simp only [adding, add, Dialogue.hold_andThen, Dialogue.hold_within, Store.hold_pushing]
  rfl

theorem hold_addingAll (values : List Value) (pool : Pool) (heap : Heap) :
    (pool.addingAll values).hold heap = pool.addAll heap values := by
  induction values generalizing pool heap with
  | nil => rfl
  | cons value rest ih =>
      simp only [addingAll, addAll, Dialogue.hold_andThen, Dialogue.hold_map, hold_adding, ih]

theorem hold_freeing (pool : Pool) (heap : Heap) : pool.freeing.hold heap = pool.free heap := by
  obtain ⟨values⟩ := pool
  simp only [freeing, free, Dialogue.hold_within, Store.hold_freeing]

theorem adding_candid (value : Value) (pool : Pool) : (pool.adding value).Candid := by
  obtain ⟨values⟩ := pool
  exact Dialogue.candid_andThen (Dialogue.candid_within _ (Store.pushing_candid value values))
    fun _ _ => Dialogue.candid_close _ _

theorem addingAll_candid (values : List Value) (pool : Pool) : (pool.addingAll values).Candid := by
  induction values generalizing pool with
  | nil => exact Dialogue.candid_close _ _
  | cons value rest ih =>
      exact Dialogue.candid_andThen (adding_candid value pool) fun _ longer =>
        Dialogue.candid_map _ (ih longer)

theorem freeing_candid (pool : Pool) : pool.freeing.Candid := by
  obtain ⟨values⟩ := pool
  exact Dialogue.candid_within _ (Store.freeing_candid values)

end Pool

namespace Chunk

def writing (units : List CodeUnit) : Chunk → Dialogue Chunk Unit
  | ⟨code, constants⟩ => (code.extending units).within (Chunk.mk · constants)

def addingConstants (values : List Value) : Chunk → Dialogue Chunk (List Nat)
  | ⟨code, constants⟩ => (constants.addingAll values).within (Chunk.mk code)

def freeing : Chunk → Dialogue Chunk Unit
  | ⟨code, constants⟩ =>
      (code.freeing.within (Chunk.mk · constants)).andThen
        fun _ chunk => chunk.constants.freeing.within (Chunk.mk chunk.code)

def settle : Except Fault Unit → Except Fault Unit → Except Fault Unit
  | .ok (), constants => constants
  | .error fault, .ok () => .error fault
  | .error fault, .error later => .error (fault.followedBy later)

def discarding (chunk : Chunk) : Dialogue Unit Unit :=
  chunk.code.freeing.follow fun code _ =>
    chunk.constants.freeing.follow fun constants _ => .close (settle code constants) ()

theorem hold_writing (units : List CodeUnit) (chunk : Chunk) (heap : Heap) :
    (chunk.writing units).hold heap = chunk.write units heap := by
  obtain ⟨code, constants⟩ := chunk
  simp only [writing, write, Dialogue.hold_within, Store.hold_extending]

theorem hold_addingConstants (values : List Value) (chunk : Chunk) (heap : Heap) :
    (chunk.addingConstants values).hold heap = chunk.addConstants values heap := by
  obtain ⟨code, constants⟩ := chunk
  simp only [addingConstants, addConstants, Dialogue.hold_within, Pool.hold_addingAll]

theorem hold_freeing (chunk : Chunk) (heap : Heap) : chunk.freeing.hold heap = chunk.free heap := by
  obtain ⟨code, constants⟩ := chunk
  simp only [freeing, free, Dialogue.hold_andThen, Dialogue.hold_within, Store.hold_freeing,
    Pool.hold_freeing]

theorem hold_discarding (chunk : Chunk) (heap : Heap) :
    let effect := chunk.discarding.hold heap
    chunk.discard heap = (effect.answer, effect.heap) := by
  simp only [discarding, discard, Dialogue.hold_follow, Store.hold_freeing, Pool.hold_freeing]
  cases (chunk.code.free heap).answer with
  | ok done => rfl
  | error fault =>
      cases (chunk.constants.free (chunk.code.free heap).heap).answer with
      | ok done => rfl
      | error later => rfl

theorem writing_candid (units : List CodeUnit) (chunk : Chunk) : (chunk.writing units).Candid := by
  obtain ⟨code, constants⟩ := chunk
  exact Dialogue.candid_within _ (Store.extending_candid units code)

theorem addingConstants_candid (values : List Value) (chunk : Chunk) :
    (chunk.addingConstants values).Candid := by
  obtain ⟨code, constants⟩ := chunk
  exact Dialogue.candid_within _ (Pool.addingAll_candid values constants)

theorem freeing_candid (chunk : Chunk) : chunk.freeing.Candid := by
  obtain ⟨code, constants⟩ := chunk
  exact Dialogue.candid_andThen (Dialogue.candid_within _ (Store.freeing_candid code))
    fun _ between => Dialogue.candid_within _ (Pool.freeing_candid between.constants)

/-- A fatal fault of one of the two is fatal, and so are two faults. -/
theorem settle_fatal (code constants : Except Fault Unit) (fault : Fault) (fatal : fault.isFatal = true)
    (broken : code = .error fault ∨ constants = .error fault) :
    ∃ last, settle code constants = .error last ∧ last.isFatal = true := by
  cases code with
  | ok done =>
      rcases broken with broken | broken
      · cases broken
      · exact ⟨fault, broken, fatal⟩
  | error early =>
      cases constants with
      | ok done =>
          rcases broken with broken | broken
          · exact ⟨early, rfl, Except.error.inj broken ▸ fatal⟩
          · cases broken
      | error late => exact ⟨_, rfl, Fault.followedBy_fatal early late⟩

theorem discarding_candid (chunk : Chunk) : chunk.discarding.Candid := by
  have rest (code : Except Fault Unit) :
      (chunk.constants.freeing.follow fun constants _ =>
        Dialogue.close (settle code constants) ()).Candid :=
    Dialogue.candid_follow (Pool.freeing_candid _) (fun _ _ => Dialogue.candid_close _ _)
      fun fault _ _ fatal => settle_fatal code _ fault fatal (.inr rfl)
  refine Dialogue.candid_follow (Store.freeing_candid _) (fun code _ => rest code) ?_
  intro fault object heap fatal
  rw [Dialogue.hold_follow]
  exact settle_fatal _ _ fault fatal (.inl rfl)

theorem freeing_granted (chunk : Chunk) (ceiling : Nat) (smallCode : chunk.code.block.bytes < 2 ^ 63)
    (smallConstants : chunk.constants.values.block.bytes < 2 ^ 63) :
    chunk.freeing.granted ceiling = (.ok (), {}) ∧
      chunk.freeing.wishes ceiling = chunk.code.releases ++ chunk.constants.values.releases := by
  obtain ⟨code, ⟨values⟩⟩ := chunk
  obtain ⟨codeEnds, codeAsks⟩ := Store.freeing_granted sized_codeUnit code ceiling smallCode
  obtain ⟨poolEnds, poolAsks⟩ := Store.freeing_granted sized_value values ceiling smallConstants
  have first := Dialogue.granted_within (Chunk.mk · ⟨values⟩) code.freeing ceiling
  rw [codeEnds] at first
  obtain ⟨whole, wishes⟩ := Dialogue.granted_andThen
    (fun _ chunk => chunk.constants.freeing.within (Chunk.mk chunk.code)) first
  rw [freeing, whole, wishes]
  simp only [Pool.freeing, Dialogue.granted_within, Dialogue.wishes_within, codeAsks, poolEnds,
    poolAsks, and_self]

end Chunk

end MeteredChunk
