import MeteredChunk.Proofs.Chunk.Balance
import MeteredChunk.Session.Basic

/-!
The objects of a session keep the balance of its heap. Only a block on its own can
leave storage behind that the meter still counts: when it is given up, and when it
is handed over for a request that fails the checks.
-/

namespace MeteredChunk

variable {κ : Type} [Kinds κ] {ceiling bytes blocks : Nat} {heap : Heap}

namespace Block
variable {α : Type} [Element α]

def forfeit (block : Block α) : (old new : Except Fault Nat) → Nat
  | .ok old, .ok new => if (block.checked old new).isOk then 0 else block.bytes
  | _, _ => block.bytes

theorem fail_held {β : Type} (fault : Fault) (block : Block α)
    (held : block.Held ceiling bytes blocks heap) :
    (Effect.fail fault #[] heap : Effect (Block α) β).Leaves
      (Held ceiling (bytes + block.bytes) (blocks + occupied block.bytes)) :=
  Effect.leaves_fail _ _ _ fun _ => held_empty held

theorem reallocate_leaves (block : Block α) (old new : Nat)
    (held : block.Held ceiling bytes blocks heap) :
    (block.reallocate old new heap).Leaves
      (Held ceiling (bytes + block.forfeit (.ok old) (.ok new))
        (blocks + occupied (block.forfeit (.ok old) (.ok new)))) := by
  cases passes : block.checked old new with
  | error fault =>
      simp only [forfeit, reallocate, passes]
      exact fail_held fault block held
  | ok request =>
      simp only [forfeit, passes]
      exact Effect.leaves_mono (reallocate_held block old new request passes held)
        fun _ _ kept => kept.1

theorem grow_leaves (block : Block α) (old new : Nat)
    (held : block.Held ceiling bytes blocks heap) :
    (block.grow old new heap).Leaves
      (Held ceiling (bytes + block.forfeit (arrayBytes α old) (arrayBytes α new))
        (blocks + occupied (block.forfeit (arrayBytes α old) (arrayBytes α new)))) := by
  cases sized : arrayBytes α old with
  | error fault =>
      simp only [grow, forfeit, sized]
      exact fail_held fault block held
  | ok oldBytes =>
      cases sizedToo : arrayBytes α new with
      | error fault =>
          simp only [grow, forfeit, sized, sizedToo]
          exact fail_held fault block held
      | ok newBytes =>
          simp only [grow, forfeit, sized, sizedToo]
          exact reallocate_leaves block oldBytes newBytes held

theorem release_leaves (block : Block α) (old : Nat)
    (held : block.Held ceiling bytes blocks heap) :
    (block.release old heap).Leaves
      (Held ceiling (bytes + block.forfeit (arrayBytes α old) (.ok 0))
        (blocks + occupied (block.forfeit (arrayBytes α old) (.ok 0)))) := by
  cases sized : arrayBytes α old with
  | error fault =>
      simp only [release, forfeit, sized]
      exact fail_held fault block held
  | ok oldBytes =>
      simp only [release, forfeit, sized]
      exact reallocate_leaves block oldBytes 0 held

theorem bytes_overwrite (block : Block α) (values : List α) :
    Block.bytes (block.overwrite values) = block.bytes := by
  have shorter : (values.take block.size).length ≤ block.size := by simp
  simp only [Block.bytes, overwrite, Array.size_append, List.size_toArray, Array.size_extract]
  congr 1
  omega

end Block

namespace Object

def bytesHeld : Object κ → Nat
  | chunk it => it.bytesHeld
  | pool it => it.values.block.bytes
  | store _ it => it.block.bytes
  | block _ it => it.bytes

def blocksHeld : Object κ → Nat
  | chunk it => it.blocksHeld
  | pool it => occupied it.values.block.bytes
  | store _ it => occupied it.block.bytes
  | block _ it => occupied it.bytes

/-- The bytes of a block that goes without a release. -/
def loose : Object κ → Nat
  | block _ it => it.bytes
  | _ => 0

def forfeit (edit : Edit κ) : Object κ → Nat
  | block kind it =>
      let sized := arrayBytes (Kinds.Carrier kind)
      match edit with
      | .reallocate old new => it.forfeit (.ok old) (.ok new)
      | .grow old new => it.forfeit (sized old) (sized new)
      | .release old => it.forfeit (sized old) (.ok 0)
      | _ => 0
  | _ => 0

def Small : Object κ → Prop
  | chunk it => it.code.block.bytes < 2 ^ 63 ∧ it.constants.values.block.bytes < 2 ^ 63
  | pool it => it.values.block.bytes < 2 ^ 63
  | store kind it => Block.Sized (Kinds.Carrier kind) ∧ it.block.bytes < 2 ^ 63
  | block _ _ => True

structure Held (ceiling bytes blocks : Nat) (object : Object κ) (heap : Heap) : Prop where
  balanced : heap.Balanced ceiling (bytes + object.bytesHeld) (blocks + object.blocksHeld)
  small : object.Small

theorem edit_chunk_leaves (it : Chunk) (edit : Edit κ)
    (effect : Effect (Object κ) Reply) (fits : (chunk it).edit edit heap = some effect)
    (held : (chunk it : Object κ).Held ceiling bytes blocks heap) :
    effect.Leaves (Held ceiling bytes blocks) := by
  have kept : it.Held ceiling bytes blocks heap := ⟨held.balanced, held.small.1, held.small.2⟩
  have back (after : Chunk) (heap : Heap) (kept : after.Held ceiling bytes blocks heap) :
      (chunk after : Object κ).Held ceiling bytes blocks heap :=
    ⟨kept.balanced, kept.smallCode, kept.smallConstants⟩
  cases edit <;> simp only [Object.edit, Option.some.injEq, reduceCtorEq] at fits <;> subst fits
  case write units =>
    exact Effect.leaves_map _ (Effect.leaves_mono (Chunk.write_leaves units it kept) back)
  case add values =>
    exact Effect.leaves_map _
      (Effect.leaves_mono (Chunk.addConstants_leaves values it kept) back)
  case free =>
    exact Effect.leaves_map _ (Effect.leaves_mono (Chunk.free_leaves it kept) back)

theorem edit_pool_leaves (it : Pool) (edit : Edit κ)
    (effect : Effect (Object κ) Reply) (fits : (pool it).edit edit heap = some effect)
    (held : (pool it : Object κ).Held ceiling bytes blocks heap) :
    effect.Leaves (Held ceiling bytes blocks) := by
  have kept : it.Held ceiling bytes blocks heap := ⟨held.balanced, held.small⟩
  have back (after : Pool) (heap : Heap) (kept : after.Held ceiling bytes blocks heap) :
      (pool after : Object κ).Held ceiling bytes blocks heap := ⟨kept.held, kept.small⟩
  cases edit <;> simp only [Object.edit, Option.some.injEq, reduceCtorEq] at fits <;> subst fits
  case add values =>
    exact Effect.leaves_map _ (Effect.leaves_mono (Pool.addAll_leaves values it kept) back)
  case free =>
    exact Effect.leaves_map _ (Effect.leaves_mono (Pool.free_leaves it kept)
      fun after heap both => back after heap both.1)

theorem edit_store_leaves (kind : κ)
    (it : Store (Kinds.Carrier kind)) (edit : Edit κ) (effect : Effect (Object κ) Reply)
    (fits : (store kind it).edit edit heap = some effect)
    (held : (store kind it).Held ceiling bytes blocks heap) :
    effect.Leaves (Held ceiling bytes blocks) := by
  obtain ⟨balanced, sized, small⟩ := held
  have kept : it.Held ceiling bytes blocks heap := ⟨balanced, small⟩
  have back (after : Store (Kinds.Carrier kind)) (heap : Heap)
      (kept : after.Held ceiling bytes blocks heap) :
      (store kind after).Held ceiling bytes blocks heap := ⟨kept.held, sized, kept.small⟩
  cases edit <;> simp only [Object.edit, Option.some.injEq, reduceCtorEq] at fits
  case extend other values =>
    split_ifs at fits with same
    cases fits
    exact Effect.leaves_map _
      (Effect.leaves_mono (Store.extend_leaves sized _ it kept) back)
  case free =>
    subst fits
    exact Effect.leaves_map _ (Effect.leaves_mono (Store.free_leaves sized it kept)
      fun after heap both => back after heap both.1)

theorem edit_block_leaves (kind : κ) (it : Block (Kinds.Carrier kind)) (edit : Edit κ)
    (effect : Effect (Object κ) Reply) (fits : (block kind it).edit edit heap = some effect)
    (held : (block kind it).Held ceiling bytes blocks heap) :
    effect.Leaves (Held ceiling (bytes + (block kind it).forfeit edit)
      (blocks + occupied ((block kind it).forfeit edit))) := by
  have kept : it.Held ceiling bytes blocks heap := held.balanced
  have back {bytes blocks : Nat} (after : Block (Kinds.Carrier kind)) (heap : Heap)
      (kept : after.Held ceiling bytes blocks heap) :
      (block kind after).Held ceiling bytes blocks heap := ⟨kept, trivial⟩
  cases edit <;> simp only [Object.edit, Option.some.injEq, reduceCtorEq] at fits
  case reallocate old new =>
    subst fits
    exact Effect.leaves_map _ (Effect.leaves_mono (Block.reallocate_leaves it old new kept) back)
  case grow old new =>
    subst fits
    exact Effect.leaves_map _ (Effect.leaves_mono (Block.grow_leaves it old new kept) back)
  case release old =>
    subst fits
    exact Effect.leaves_map _ (Effect.leaves_mono (Block.release_leaves it old kept) back)
  case overwrite other values =>
    split_ifs at fits with same
    cases fits
    refine Effect.leaves_done _ _ _ (back _ _ ?_)
    unfold Block.Held
    rw [Block.bytes_overwrite]
    exact kept

theorem edit_leaves (object : Object κ) (edit : Edit κ)
    (effect : Effect (Object κ) Reply) (fits : object.edit edit heap = some effect)
    (held : object.Held ceiling bytes blocks heap) :
    effect.Leaves
      (Held ceiling (bytes + object.forfeit edit) (blocks + occupied (object.forfeit edit))) := by
  cases object with
  | chunk it => exact edit_chunk_leaves it edit effect fits held
  | pool it => exact edit_pool_leaves it edit effect fits held
  | store kind it => exact edit_store_leaves kind it edit effect fits held
  | block kind it => exact edit_block_leaves kind it edit effect fits held

theorem forfeit_none (object : Object κ) (edit : Edit κ) (heap : Heap)
    (unfit : object.edit edit heap = none) : object.forfeit edit = 0 := by
  cases object with
  | chunk it => rfl
  | pool it => rfl
  | store kind it => rfl
  | block kind it => cases edit <;> first | rfl | simp [Object.edit] at unfit

/-- What is given up is off the meter, but for a block on its own. -/
theorem discard_balanced (object : Object κ)
    (held : object.Held ceiling bytes blocks heap)
    (survived : ∀ fault, (object.discard heap).1 = .error fault → fault.isFatal = false) :
    (object.discard heap).2.Balanced ceiling (bytes + object.loose)
      (blocks + occupied object.loose) := by
  cases object with
  | chunk it =>
      exact Chunk.discard_balanced it ⟨held.balanced, held.small.1, held.small.2⟩ survived
  | pool it =>
      obtain ⟨freed, empty⟩ := Pool.free_leaves it ⟨held.balanced, held.small⟩ survived
      have balanced := freed.held
      unfold Block.Held at balanced
      rw [empty] at balanced
      exact balanced
  | store kind it =>
      obtain ⟨balanced, sized, small⟩ := held
      obtain ⟨freed, empty⟩ := Store.free_leaves sized it ⟨balanced, small⟩ survived
      have balanced := freed.held
      unfold Block.Held at balanced
      rw [empty] at balanced
      exact balanced
  | block kind it => exact held.balanced

end Object

theorem Blueprint.build_held (blueprint : Blueprint κ) (object : Object κ)
    (built : blueprint.build = .ok object) :
    object.bytesHeld = 0 ∧ object.blocksHeld = 0 ∧ object.Small := by
  have small : 0 < 2 ^ 63 := Nat.two_pow_pos 63
  cases blueprint with
  | chunk =>
      cases built
      exact ⟨rfl, rfl, small, small⟩
  | pool =>
      cases built
      exact ⟨rfl, rfl, small⟩
  | block kind =>
      cases built
      have empty : Block.bytes (#[] : Block (Kinds.Carrier kind)) = 0 := Block.bytes_empty
      exact ⟨empty, congrArg occupied empty, trivial⟩
  | store kind =>
      simp only [Blueprint.build, Store.create] at built
      split_ifs at built with roomless
      · cases built
      · cases built
        have empty : Block.bytes (#[] : Block (Kinds.Carrier kind)) = 0 := Block.bytes_empty
        exact ⟨empty, congrArg occupied empty, ⟨Nat.pos_of_ne_zero roomless, Kinds.limited kind⟩,
          empty ▸ small⟩

theorem Object.ofFamily?_held (family : Family) (object : Object κ)
    (found : Object.ofFamily? family = some object) :
    object.bytesHeld = 0 ∧ object.blocksHeld = 0 ∧ object.Small := by
  cases family with
  | chunk =>
      cases found
      exact Blueprint.build_held .chunk _ rfl
  | pool =>
      cases found
      exact Blueprint.build_held .pool _ rfl
  | store => cases found
  | block => cases found

end MeteredChunk
