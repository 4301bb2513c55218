import MeteredChunk.Proofs.Session.Balance
import MeteredChunk.Proofs.Session.Dialogue

/-!
Requests that take no more than there is. Whatever an operation does to an object, it
asks only for blocks to be resized that the object has by then. Weights tell the bytes
of the objects, so this can be followed through a dialogue without knowing sizes.
-/

namespace MeteredChunk

namespace Dialogue

variable {σ τ α β : Type} {ceiling held : Nat} {weight : σ → Nat} {outer : τ → Nat}

/-- If every request is granted, each old size is at most what is held by then, and the object in
the end weighs at most what is held then. -/
def Backed (ceiling : Nat) (weight : σ → Nat) : (held : Nat) → Dialogue σ α → Prop
  | held, close _ object => weight object ≤ held
  | held, ask request next =>
      request.old ≤ held ∧
        (next (.ok ()) ceiling).Backed ceiling weight (held - request.old + request.new)

/-- Bytes that the first dialogue does not use stay available for the second one. -/
theorem backed_follow {dialogue : Dialogue σ α} {next : Except Fault α → σ → Dialogue τ β}
    {extra more : Nat} (backed : dialogue.Backed ceiling weight held)
    (onward : ∀ answer object more, weight object + extra ≤ more →
      (next answer object).Backed ceiling outer more)
    (enough : held + extra ≤ more) : (dialogue.follow next).Backed ceiling outer more := by
  -- What is held besides is never asked for, so the sum only moves with the first dialogue.
  induction dialogue generalizing held more with
  | close answer object =>
      have left : weight object ≤ held := backed
      exact onward answer object more (by omega)
  | ask request more ih =>
      obtain ⟨first, rest⟩ := backed
      exact ⟨by omega, ih _ _ rest (by omega)⟩

theorem backed_andThen {dialogue : Dialogue σ α} {next : α → σ → Dialogue σ β} {more : Nat}
    (backed : dialogue.Backed ceiling weight held)
    (onward : ∀ answer object more, weight object ≤ more →
      (next answer object).Backed ceiling weight more)
    (enough : held ≤ more) : (dialogue.andThen next).Backed ceiling weight more := by
  refine backed_follow backed (fun answer object more left => ?_) (Nat.add_zero held ▸ enough)
  cases answer with
  | ok answer => exact onward answer object more left
  | error fault => exact left

theorem backed_within {dialogue : Dialogue σ α} {place : σ → τ} {more : Nat} (extra : Nat)
    (backed : dialogue.Backed ceiling weight held)
    (fits : ∀ object, outer (place object) ≤ weight object + extra)
    (enough : held + extra ≤ more) : (dialogue.within place).Backed ceiling outer more :=
  backed_follow backed (fun _ object _ left => (fits object).trans left) enough

theorem backed_map {dialogue : Dialogue σ α} {f : α → β} {more : Nat}
    (backed : dialogue.Backed ceiling weight held) (enough : held ≤ more) :
    (dialogue.map f).Backed ceiling weight more :=
  backed_follow backed (fun _ _ _ left => left) (Nat.add_zero held ▸ enough)

end Dialogue

open Dialogue (backed_follow backed_andThen backed_within backed_map)

variable {ceiling held : Nat}

namespace Block

variable {α : Type} [Element α]

theorem reallocating_backed (block : Block α) (old new : Nat) (enough : block.bytes ≤ held) :
    (block.reallocating old new).Backed ceiling Block.bytes held := by
  have lost : Block.bytes (#[] : Block α) ≤ held := bytes_empty.le.trans (Nat.zero_le held)
  unfold reallocating
  cases passes : block.checked old new with
  | error fault => exact lost
  | ok request =>
      obtain ⟨sync, -, rfl⟩ := checked_ok block old new request passes
      dsimp only
      split_ifs with same
      · exact enough
      · refine ⟨sync ▸ enough, ?_⟩
        dsimp only
        split_ifs with short
        · exact bytes_empty.le.trans (Nat.zero_le _)
        · have whole := Nat.div_mul_le_self new (elementSize α)
          change Block.bytes _ ≤ _
          rw [Block.bytes, size_resize]
          omega

theorem growing_backed (block : Block α) (old new : Nat) (enough : block.bytes ≤ held) :
    (block.growing old new).Backed ceiling Block.bytes held := by
  unfold growing
  split
  · exact bytes_empty.le.trans (Nat.zero_le held)
  · exact bytes_empty.le.trans (Nat.zero_le held)
  · exact reallocating_backed block _ _ enough

theorem releasing_backed (block : Block α) (old : Nat) (enough : block.bytes ≤ held) :
    (block.releasing old).Backed ceiling Block.bytes held := by
  unfold releasing
  split
  · exact bytes_empty.le.trans (Nat.zero_le held)
  · exact reallocating_backed block _ _ enough

end Block

namespace Store

variable {α : Type} [Element α]

def bytesHeld (store : Store α) : Nat := store.block.bytes

theorem putting_backed (value : α) (store : Store α) (enough : store.bytesHeld ≤ held) :
    (store.putting value).Backed ceiling bytesHeld held := by
  obtain ⟨block, count⟩ := store
  simp only [putting]
  split_ifs with inside
  · change Block.bytes (block.set count value inside) ≤ held
    rw [Block.bytes, Array.size_set]
    exact enough
  · exact enough

theorem pushing_backed (value : α) (store : Store α) (enough : store.bytesHeld ≤ held) :
    (store.pushing value).Backed ceiling bytesHeld held := by
  obtain ⟨block, count⟩ := store
  simp only [pushing]
  split_ifs with full
  · apply backed_andThen _ (fun _ longer _ left => putting_backed value longer left) le_rfl
    exact backed_within 0 (Block.growing_backed block _ _ enough) (fun _ => le_rfl) le_rfl
  · exact putting_backed value _ enough

theorem extending_backed (values : List α) (store : Store α) (enough : store.bytesHeld ≤ held) :
    (store.extending values).Backed ceiling bytesHeld held := by
  induction values generalizing store held with
  | nil => exact enough
  | cons value rest ih =>
      exact backed_andThen (pushing_backed value store enough) (fun _ longer _ left => ih longer left)
        le_rfl

theorem freeing_backed (store : Store α) (enough : store.bytesHeld ≤ held) :
    store.freeing.Backed ceiling bytesHeld held := by
  obtain ⟨block, count⟩ := store
  apply backed_andThen _ (fun _ _ _ left => left) le_rfl
  exact backed_within 0 (Block.releasing_backed block _ enough) (fun _ => le_rfl) le_rfl

end Store

namespace Pool

def bytesHeld (pool : Pool) : Nat := pool.values.bytesHeld

theorem adding_backed (value : Value) (pool : Pool) (enough : pool.bytesHeld ≤ held) :
    (pool.adding value).Backed ceiling bytesHeld held := by
  obtain ⟨values⟩ := pool
  apply backed_andThen _ (fun _ _ _ left => left) le_rfl
  exact backed_within 0 (Store.pushing_backed value values enough) (fun _ => le_rfl) le_rfl

theorem addingAll_backed (values : List Value) (pool : Pool) (enough : pool.bytesHeld ≤ held) :
    (pool.addingAll values).Backed ceiling bytesHeld held := by
  induction values generalizing pool held with
  | nil => exact enough
  | cons value rest ih =>
      exact backed_andThen (adding_backed value pool enough)
        (fun _ longer _ left => backed_map (ih longer left) le_rfl) le_rfl

theorem freeing_backed (pool : Pool) (enough : pool.bytesHeld ≤ held) :
    pool.freeing.Backed ceiling bytesHeld held := by
  obtain ⟨values⟩ := pool
  exact backed_within 0 (Store.freeing_backed values enough) (fun _ => le_rfl) le_rfl

end Pool

namespace Chunk

theorem code_backed {β : Type} {dialogue : Dialogue (Store CodeUnit) β} {constants : Pool}
    {code : Nat} (backed : dialogue.Backed ceiling Store.bytesHeld code)
    (enough : code + constants.bytesHeld ≤ held) :
    (dialogue.within (Chunk.mk · constants)).Backed ceiling bytesHeld held :=
  backed_within constants.bytesHeld backed (fun _ => le_rfl) enough

theorem constants_backed {β : Type} {dialogue : Dialogue Pool β} {code : Store CodeUnit}
    {constants : Nat} (backed : dialogue.Backed ceiling Pool.bytesHeld constants)
    (enough : code.bytesHeld + constants ≤ held) :
    (dialogue.within (Chunk.mk code)).Backed ceiling bytesHeld held :=
  backed_within code.bytesHeld backed (fun _ => (Nat.add_comm _ _).le) (Nat.add_comm _ _ ▸ enough)

theorem writing_backed (units : List CodeUnit) (chunk : Chunk) (enough : chunk.bytesHeld ≤ held) :
    (chunk.writing units).Backed ceiling bytesHeld held := by
  obtain ⟨code, constants⟩ := chunk
  exact code_backed (Store.extending_backed units code le_rfl) enough

theorem addingConstants_backed (values : List Value) (chunk : Chunk)
    (enough : chunk.bytesHeld ≤ held) :
    (chunk.addingConstants values).Backed ceiling bytesHeld held := by
  obtain ⟨code, constants⟩ := chunk
  exact constants_backed (Pool.addingAll_backed values constants le_rfl) enough

theorem freeing_backed (chunk : Chunk) (enough : chunk.bytesHeld ≤ held) :
    chunk.freeing.Backed ceiling bytesHeld held := by
  obtain ⟨code, constants⟩ := chunk
  apply backed_andThen (code_backed (Store.freeing_backed code le_rfl) enough) _ le_rfl
  intro _ between more left
  exact constants_backed (Pool.freeing_backed between.constants le_rfl) left

theorem discarding_backed (chunk : Chunk) (enough : chunk.bytesHeld ≤ held) :
    chunk.discarding.Backed ceiling (fun _ => 0) held := by
  -- The pool is released whatever came of the code, so `andThen` is not enough here.
  apply backed_follow (Store.freeing_backed chunk.code le_rfl) _ enough
  intro _ code more left
  apply backed_follow (Pool.freeing_backed chunk.constants le_rfl) _
    ((Nat.add_comm _ _).le.trans left)
  intro _ constants more left
  exact Nat.zero_le more

end Chunk

namespace Object

variable {κ : Type} [Kinds κ]

theorem editing_backed (object : Object κ) (edit : Edit κ) (dialogue : Dialogue (Object κ) Reply)
    (fits : object.editing edit = some dialogue) (enough : object.bytesHeld ≤ held) :
    dialogue.Backed ceiling bytesHeld held := by
  have dressed {σ α : Type} {plain : Dialogue σ α} {weight : σ → Nat} (f : α → Reply)
      (place : σ → Object κ) (same : ∀ object, (place object).bytesHeld = weight object)
      (backed : plain.Backed ceiling weight held) :
      ((plain.map f).within place).Backed ceiling bytesHeld held :=
    backed_within 0 (backed_map backed le_rfl) (fun object => (same object).le) le_rfl
  cases object <;> cases edit <;> simp only [editing, Option.some.injEq, reduceCtorEq] at fits
  case chunk.write it units =>
    exact fits ▸ dressed _ _ (fun _ => rfl) (Chunk.writing_backed units it enough)
  case chunk.add it values =>
    exact fits ▸ dressed _ _ (fun _ => rfl) (Chunk.addingConstants_backed values it enough)
  case chunk.free it => exact fits ▸ dressed _ _ (fun _ => rfl) (Chunk.freeing_backed it enough)
  case pool.add it values =>
    exact fits ▸ dressed _ _ (fun _ => rfl) (Pool.addingAll_backed values it enough)
  case pool.free it => exact fits ▸ dressed _ _ (fun _ => rfl) (Pool.freeing_backed it enough)
  case store.free kind it =>
    exact fits ▸ dressed _ _ (fun _ => rfl) (Store.freeing_backed it enough)
  case block.reallocate kind it old new =>
    exact fits ▸ dressed _ _ (fun _ => rfl) (Block.reallocating_backed it old new enough)
  case block.grow kind it old new =>
    exact fits ▸ dressed _ _ (fun _ => rfl) (Block.growing_backed it old new enough)
  case block.release kind it old =>
    exact fits ▸ dressed _ _ (fun _ => rfl) (Block.releasing_backed it old enough)
  case store.extend kind it other values =>
    split_ifs at fits with same
    exact Option.some.inj fits ▸
      dressed _ _ (fun _ => rfl) (Store.extending_backed _ it enough)
  case block.overwrite kind it other values =>
    split_ifs at fits with same
    cases fits
    exact (Block.bytes_overwrite it _).le.trans enough

theorem discarding_backed (object : Object κ) (enough : object.bytesHeld ≤ held) :
    object.discarding.Backed ceiling (fun _ => 0) held := by
  cases object with
  | chunk it => exact Chunk.discarding_backed it enough
  | pool it =>
      exact backed_within 0 (Pool.freeing_backed it enough) (fun _ => Nat.zero_le _) le_rfl
  | store kind it =>
      exact backed_within 0 (Store.freeing_backed it enough) (fun _ => Nat.zero_le _) le_rfl
  | block kind it => exact Nat.zero_le held

end Object

end MeteredChunk
