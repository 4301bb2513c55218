import MeteredChunk.Proofs.Dialogue.Basic
import Mathlib.Tactic.Ring

/-!
Blocks and stores keep the balance of their heap, and talk to it in dialogues.
-/

namespace MeteredChunk

/-! ## Balance

Blocks and stores keep the balance of their heap: what they hold afterwards is what
the meter reads of them. A block that is handed over for a request that fails the
checks is lost; the requests of a store always pass them.
-/

section Balance
variable {α : Type} [Element α] {ceiling bytes blocks : Nat} {heap : Heap}

namespace Block

theorem size_resize (block : Block α) (length : Nat) : (block.resize length).size = length := by
  simp only [resize, Array.size_append, Array.size_extract, Array.size_replicate,
    Array.take_eq_extract]
  omega

theorem bytes_empty : Block.bytes (#[] : Block α) = 0 := Nat.zero_mul _

theorem checked_ok (block : Block α) (old new : Nat) (request : Request)
    (passes : block.checked old new = .ok request) :
    block.bytes = old ∧ new % elementSize α = 0 ∧ request = ⟨old, new⟩ := by
  unfold checked at passes
  split_ifs at passes with sync whole
  simp only [Except.ok.injEq] at passes
  exact ⟨not_not.mp sync, not_not.mp whole, passes.symm⟩

def Held (ceiling bytes blocks : Nat) (block : Block α) (heap : Heap) : Prop :=
  heap.Balanced ceiling (bytes + block.bytes) (blocks + occupied block.bytes)

theorem held_empty (balanced : heap.Balanced ceiling bytes blocks) :
    Held ceiling bytes blocks (#[] : Block α) heap := by
  unfold Held
  rw [bytes_empty]
  exact balanced

theorem reallocate_held (block : Block α) (old new : Nat) (request : Request)
    (passes : block.checked old new = .ok request) (held : block.Held ceiling bytes blocks heap) :
    (block.reallocate old new heap).Leaves fun after heap =>
      after.Held ceiling bytes blocks heap ∧
        (after.bytes ≤ block.bytes ∨ Element.bytes α = 0 ∨ after.bytes < ceiling) ∧
        (after.bytes = 0 ∨ after.bytes = new) := by
  obtain ⟨sync, whole, rfl⟩ := checked_ok block old new request passes
  subst sync
  have lost : Block.bytes (#[] : Block α) ≤ block.bytes := by simp [bytes_empty]
  unfold reallocate
  simp only [passes]
  split_ifs with same
  · exact Effect.leaves_done _ _ _ ⟨held, .inl le_rfl, .inr same⟩
  · have ended := Heap.serve_ends ⟨block.bytes, new⟩ held
    split
    -- A refused block is gone with its elements; the heap reads no more of it than it was refused.
    · rename_i fault after served
      rw [served] at ended
      exact Effect.leaves_fail _ _ _ fun contained =>
        ⟨held_empty (ended.off fault rfl contained), .inl lost, .inl bytes_empty⟩
    · rename_i after served
      rw [served] at ended
      have granted := ended.through rfl
      have sized : (block.resize (new / elementSize α)).bytes = new := by
        unfold Block.bytes
        rw [size_resize]
        exact Nat.div_mul_cancel (Nat.dvd_of_mod_eq_zero whole)
      split_ifs with short
      · exact Effect.leaves_fail _ _ _ (fun contained => by cases contained)
      · refine Effect.leaves_done _ _ _ ⟨?_, ?_, .inr sized⟩
        · unfold Held
          rw [sized]
          exact granted
        · have limit : after.ceiling = ceiling := granted.ceiling_eq
          rw [sized]
          simp only [exceeds, Bool.and_eq_true, decide_eq_true_eq] at short
          omega

def Sized (α : Type) [Element α] : Prop := 0 < Element.bytes α ∧ 8 * Element.bytes α < Word.limit

theorem arrayBytes_ok (count : Nat) (fits : count * Element.bytes α < Word.limit) :
    arrayBytes α count = .ok (count * Element.bytes α) := by
  simp [arrayBytes, Word.fit?, fits]

theorem empty_fits (α : Type) [Element α] : 0 * Element.bytes α < Word.limit := by
  rw [Nat.zero_mul]
  exact Nat.two_pow_pos 64

theorem arrayBytes_zero (α : Type) [Element α] : arrayBytes α 0 = .ok 0 := by
  rw [arrayBytes_ok 0 (empty_fits α), Nat.zero_mul]

theorem bytes_sized (sized : Sized α) (block : Block α) :
    block.bytes = block.size * Element.bytes α := by
  have room := sized.1
  unfold Block.bytes elementSize
  rw [Nat.max_eq_left room]

theorem checked_whole (sized : Sized α) (block : Block α) (length : Nat) :
    block.checked block.bytes (length * Element.bytes α) =
      .ok ⟨block.bytes, length * Element.bytes α⟩ := by
  have whole : length * Element.bytes α % elementSize α = 0 := by
    unfold elementSize
    rw [Nat.max_eq_left sized.1]
    exact Nat.mul_mod_left _ _
  simp [checked, whole]

theorem grow_sized (sized : Sized α) (block : Block α) (length : Nat) (heap : Heap)
    (small : block.bytes < Word.limit) (fits : length * Element.bytes α < Word.limit) :
    block.grow block.size length heap =
      block.reallocate block.bytes (length * Element.bytes α) heap := by
  rw [bytes_sized sized] at small ⊢
  simp only [grow, arrayBytes_ok _ small, arrayBytes_ok _ fits]

theorem release_sized (sized : Sized α) (block : Block α) (heap : Heap)
    (small : block.bytes < Word.limit) :
    block.release block.size heap = block.reallocate block.bytes 0 heap := by
  rw [bytes_sized sized] at small ⊢
  simp only [release, arrayBytes_ok _ small]

end Block

namespace Store

structure Held (ceiling bytes blocks : Nat) (store : Store α) (heap : Heap) : Prop where
  held : store.block.Held ceiling bytes blocks heap
  small : store.block.bytes < 2 ^ 63

theorem nextCapacity_fits (sized : Block.Sized α) (block : Block α) (small : block.bytes < 2 ^ 63) :
    nextCapacity block.size * Element.bytes α < Word.limit := by
  rw [Block.bytes_sized sized] at small
  unfold nextCapacity
  split_ifs
  · exact sized.2
  · have clamped : Word.clamp (block.size * 2) * Element.bytes α ≤
        block.size * 2 * Element.bytes α := Nat.mul_le_mul_right _ (Nat.min_le_left _ _)
    have doubled : block.size * 2 * Element.bytes α = 2 * (block.size * Element.bytes α) := by
      ring
    unfold Word.limit
    omega

theorem reallocate_leaves (sized : Block.Sized α) (block : Block α)
    (count new : Nat) (request : Request)
    (passes : block.checked block.bytes new = .ok request)
    (held : Held ceiling bytes blocks ⟨block, count⟩ heap) :
    ((block.reallocate block.bytes new heap).within (Store.mk · count)).Leaves fun after heap =>
      after.Held ceiling bytes blocks heap ∧ (after.block.bytes = 0 ∨ after.block.bytes = new) := by
  have left := Block.reallocate_held block _ _ _ passes held.held
  refine Effect.leaves_within (Effect.leaves_mono left ?_)
  -- No heap has memory for half of the words, so a block that was granted can be doubled again.
  rintro block after ⟨kept, reached, known⟩
  refine ⟨⟨kept, ?_⟩, known⟩
  have small := held.small
  have room := sized.1
  have bounded : ceiling ≤ 2 ^ 63 := held.held.ceiling_eq ▸ heap.bounded
  dsimp only at small ⊢
  omega

theorem put_leaves (value : α) (store : Store α) (held : store.Held ceiling bytes blocks heap) :
    (put value heap store).Leaves (Held ceiling bytes blocks) := by
  obtain ⟨block, count⟩ := store
  simp only [put]
  split_ifs with inside
  · apply Effect.leaves_done
    have same : Block.bytes (block.set count value inside) = block.bytes := by
      simp [Block.bytes]
    refine ⟨?_, same ▸ held.small⟩
    unfold Block.Held
    rw [same]
    exact held.held
  · exact Effect.leaves_fail _ _ _ fun _ => held

theorem push_leaves (sized : Block.Sized α) (value : α)
    (store : Store α) (held : store.Held ceiling bytes blocks heap) :
    (push value heap store).Leaves (Held ceiling bytes blocks) := by
  obtain ⟨block, count⟩ := store
  have small : block.bytes < Word.limit := lt_trans held.small (by decide)
  simp only [push]
  split_ifs with full
  · rw [Block.grow_sized sized block _ heap small (nextCapacity_fits sized block held.small)]
    exact Effect.leaves_andThen
      (reallocate_leaves sized block count _ _ (Block.checked_whole sized block _) held)
      (fun _ _ kept => kept.1) fun _ grown _ kept => put_leaves value grown kept.1
  · exact put_leaves value _ held

theorem extend_leaves (sized : Block.Sized α) (values : List α)
    (store : Store α) (held : store.Held ceiling bytes blocks heap) :
    (store.extend heap values).Leaves (Held ceiling bytes blocks) := by
  induction values generalizing store heap with
  | nil => exact Effect.leaves_done _ _ _ held
  | cons value rest ih =>
      exact Effect.leaves_andThen (push_leaves sized value store held)
        (fun _ _ kept => kept) fun _ longer _ kept => ih longer kept

theorem free_leaves (sized : Block.Sized α) (store : Store α)
    (held : store.Held ceiling bytes blocks heap) :
    (store.free heap).Leaves fun freed heap =>
      freed.Held ceiling bytes blocks heap ∧ freed.block.bytes = 0 := by
  obtain ⟨block, count⟩ := store
  have small : block.bytes < Word.limit := lt_trans held.small (by decide)
  have passes : block.checked block.bytes 0 = .ok ⟨block.bytes, 0⟩ := by simp [Block.checked]
  have left := reallocate_leaves sized block count 0 _ passes held
  simp only [free]
  rw [Block.release_sized sized block heap small]
  refine Effect.leaves_andThen left (fun _ _ kept => ⟨kept.1, by omega⟩) ?_
  rintro - freed after ⟨kept, known⟩
  exact Effect.leaves_done _ _ _ ⟨⟨kept.held, kept.small⟩, by dsimp only; omega⟩

end Store

end Balance

/-! ## Dialogues

Blocks and stores as dialogues with their heap. A block makes one request at most,
and a store makes one for its block when it is full or freed.
-/

section Dialogues
variable {α : Type} [Element α]

namespace Block

def reallocating (block : Block α) (old new : Nat) : Dialogue (Block α) Unit :=
  match block.checked old new with
  | .error fault => .close (.error fault) #[]
  | .ok request =>
      if old = new then .close (.ok ()) block
      else .ask request fun outcome ceiling =>
        match outcome with
        | .error fault => .close (.error fault) #[]
        | .ok () =>
            if block.exceeds ceiling new then
              .close (.error (Heap.shortage new (Element.bytes α) (Element.align α))) #[]
            else .close (.ok ()) (block.resize (new / elementSize α))

def growing (block : Block α) (old new : Nat) : Dialogue (Block α) Unit :=
  match arrayBytes α old, arrayBytes α new with
  | .error fault, _ => .close (.error fault) #[]
  | _, .error fault => .close (.error fault) #[]
  | .ok old, .ok new => block.reallocating old new

def releasing (block : Block α) (old : Nat) : Dialogue (Block α) Unit :=
  match arrayBytes α old with
  | .error fault => .close (.error fault) #[]
  | .ok old => block.reallocating old 0

theorem hold_reallocating (block : Block α) (old new : Nat) (heap : Heap) :
    (block.reallocating old new).hold heap = block.reallocate old new heap := by
  unfold reallocating reallocate
  cases block.checked old new with
  | error fault => rfl
  | ok request =>
      simp only
      by_cases same : old = new
      · simp only [same, if_true]
        rfl
      · simp only [same, if_false, Dialogue.hold]
        obtain ⟨outcome, after⟩ := heap.serve request
        cases outcome with
        | error fault => rfl
        | ok done =>
            by_cases short : block.exceeds after.ceiling new = true
            · simp only [short, if_true]
              rfl
            · simp only [short]
              rfl

theorem hold_growing (block : Block α) (old new : Nat) (heap : Heap) :
    (block.growing old new).hold heap = block.grow old new heap := by
  unfold growing grow
  cases arrayBytes α old with
  | error fault => rfl
  | ok old =>
      cases arrayBytes α new with
      | error fault => rfl
      | ok new => exact hold_reallocating block old new heap

theorem hold_releasing (block : Block α) (old : Nat) (heap : Heap) :
    (block.releasing old).hold heap = block.release old heap := by
  unfold releasing release
  cases arrayBytes α old with
  | error fault => rfl
  | ok old => exact hold_reallocating block old 0 heap

theorem reallocating_candid (block : Block α) (old new : Nat) :
    (block.reallocating old new).Candid := by
  unfold reallocating
  cases passes : block.checked old new with
  | error fault => exact Dialogue.candid_close _ _
  | ok request =>
      obtain ⟨-, -, rfl⟩ := checked_ok block old new request passes
      simp only
      split
      · exact Dialogue.candid_close _ _
      · rename_i changes
        refine Dialogue.candid_ask changes (fun outcome ceiling => ?_)
          fun fault _ _ fatal => ⟨fault, rfl, fatal⟩
        cases outcome with
        | error fault => exact Dialogue.candid_close _ _
        | ok done =>
            simp only
            split
            · exact Dialogue.candid_close _ _
            · exact Dialogue.candid_close _ _

theorem growing_candid (block : Block α) (old new : Nat) : (block.growing old new).Candid := by
  unfold growing
  split
  · exact Dialogue.candid_close _ _
  · exact Dialogue.candid_close _ _
  · exact reallocating_candid block _ _

theorem releasing_candid (block : Block α) (old : Nat) : (block.releasing old).Candid := by
  unfold releasing
  split
  · exact Dialogue.candid_close _ _
  · exact reallocating_candid block _ _

end Block

namespace Store

def putting (value : α) : Store α → Dialogue (Store α) Unit
  | ⟨block, count⟩ =>
      if inside : count < block.size then
        .close (.ok ()) ⟨block.set count value inside, count + 1⟩
      else .close (.error (.writeBeyondStorage block.size count)) ⟨block, count⟩

def pushing (value : α) : Store α → Dialogue (Store α) Unit
  | ⟨block, count⟩ =>
      if count = block.size then
        ((block.growing block.size (nextCapacity block.size)).within (Store.mk · count)).andThen
          fun _ store => store.putting value
      else putting value ⟨block, count⟩

def extending (store : Store α) : List α → Dialogue (Store α) Unit
  | [] => .close (.ok ()) store
  | value :: rest => (store.pushing value).andThen fun _ store => store.extending rest

def freeing : Store α → Dialogue (Store α) Unit
  | ⟨block, count⟩ =>
      ((block.releasing block.size).within (Store.mk · count)).andThen
        fun _ store => .close (.ok ()) ⟨store.block, 0⟩

omit [Element α] in
theorem hold_putting (value : α) (store : Store α) (heap : Heap) :
    (store.putting value).hold heap = put value heap store := by
  obtain ⟨block, count⟩ := store
  simp only [putting, put]
  split
  · rfl
  · rfl

theorem hold_pushing (value : α) (store : Store α) (heap : Heap) :
    (store.pushing value).hold heap = push value heap store := by
  obtain ⟨block, count⟩ := store
  simp only [pushing, push]
  split
  · simp only [Dialogue.hold_andThen, Dialogue.hold_within, Block.hold_growing, hold_putting]
  · exact hold_putting value _ heap

theorem hold_extending (values : List α) (store : Store α) (heap : Heap) :
    (store.extending values).hold heap = store.extend heap values := by
  induction values generalizing store heap with
  | nil => rfl
  | cons value rest ih =>
      simp only [extending, extend, Dialogue.hold_andThen, hold_pushing, ih]

theorem hold_freeing (store : Store α) (heap : Heap) :
    store.freeing.hold heap = store.free heap := by
  obtain ⟨block, count⟩ := store
  simp only [freeing, free, Dialogue.hold_andThen, Dialogue.hold_within, Block.hold_releasing]
  rfl

omit [Element α] in
theorem putting_candid (value : α) (store : Store α) : (store.putting value).Candid := by
  obtain ⟨block, count⟩ := store
  simp only [putting]
  split
  · exact Dialogue.candid_close _ _
  · exact Dialogue.candid_close _ _

theorem pushing_candid (value : α) (store : Store α) : (store.pushing value).Candid := by
  obtain ⟨block, count⟩ := store
  simp only [pushing]
  split
  · exact Dialogue.candid_andThen (Dialogue.candid_within _ (Block.growing_candid block _ _))
      fun _ grown => putting_candid value grown
  · exact putting_candid value _

theorem extending_candid (values : List α) (store : Store α) : (store.extending values).Candid := by
  induction values generalizing store with
  | nil => exact Dialogue.candid_close _ _
  | cons value rest ih =>
      exact Dialogue.candid_andThen (pushing_candid value store) fun _ longer => ih longer

theorem freeing_candid (store : Store α) : store.freeing.Candid := by
  obtain ⟨block, count⟩ := store
  exact Dialogue.candid_andThen (Dialogue.candid_within _ (Block.releasing_candid block _))
    fun _ _ => Dialogue.candid_close _ _

end Store

end Dialogues

end MeteredChunk
