import MeteredChunk.Proofs.Chunk.Reading
import MeteredChunk.Proofs.Store.Balance

/-!
What a store holds after an element was added: what it held before, and the element.
Adding goes through where nobody watches and there is memory for the longer block.
-/

namespace MeteredChunk

variable {α : Type} [Element α] {heap : Heap}

theorem Effect.andThen_ok {σ β γ : Type} {effect : Effect σ β} {next : β → σ → Heap → Effect σ γ}
    {answer : γ} (through : (effect.andThen next).answer = .ok answer) :
    ∃ first, effect.answer = .ok first ∧
      effect.andThen next = next first effect.object effect.heap := by
  obtain ⟨outcome, object, heap⟩ := effect
  cases outcome with
  | ok first => exact ⟨first, rfl, rfl⟩
  | error fault => cases through

theorem Effect.map_ok {σ β γ : Type} {effect : Effect σ β} {f : β → γ} {answer : γ}
    (through : (effect.map f).answer = .ok answer) :
    ∃ first, effect.answer = .ok first ∧ f first = answer := by
  obtain ⟨outcome, object, heap⟩ := effect
  cases outcome with
  | ok first => exact ⟨first, rfl, Except.ok.inj through⟩
  | error fault => cases through

theorem Effect.andThen_through {σ β γ : Type} {effect : Effect σ β}
    {next : β → σ → Heap → Effect σ γ} {first : β} (through : effect.answer = .ok first) :
    effect.andThen next = next first effect.object effect.heap := by
  obtain ⟨outcome, object, heap⟩ := effect
  cases through
  rfl

theorem Heap.serve_unwatched (request : Request) (vacant : heap.slot = none) :
    ∃ after, heap.serve request = (.ok (), after) ∧ after.slot = none ∧
      after.ceiling = heap.ceiling := by
  unfold serve Heap.request
  cases request.kind? with
  | none => exact ⟨heap, rfl, vacant, rfl⟩
  | some kind =>
      have unwatched : (heap.account kind request).slot = none := vacant
      exact ⟨heap.account kind request, notify_vacant _ _ unwatched, unwatched, rfl⟩

namespace Block

theorem take_resize (block : Block α) (length : Nat) (longer : block.size ≤ length) :
    (block.resize length).toList.take block.size = block.toList := by
  have kept : block.toList.take length = block.toList := List.take_of_length_le longer
  simp [resize, kept]

theorem resize_self (block : Block α) : block.resize block.size = block := by
  simp [resize]

theorem arrayBytes_some (count bytes : Nat) (fits : arrayBytes α count = .ok bytes) :
    bytes = count * Element.bytes α := by
  unfold arrayBytes Word.fit? at fits
  split_ifs at fits
  exact (Except.ok.inj fits).symm

theorem reallocate_ok (sized : Sized α) (block : Block α) (length : Nat)
    (through : (block.reallocate block.bytes (length * Element.bytes α) heap).answer = .ok ()) :
    (block.reallocate block.bytes (length * Element.bytes α) heap).object =
      block.resize length := by
  have whole : length * Element.bytes α / elementSize α = length := by
    unfold elementSize
    rw [Nat.max_eq_left sized.1, Nat.mul_div_cancel _ sized.1]
  simp only [reallocate, checked_whole sized] at through ⊢
  split_ifs at through ⊢ with same
  · rw [bytes_sized sized] at same
    rw [← Nat.eq_of_mul_eq_mul_right sized.1 same]
    exact (resize_self block).symm
  · split at through
    · cases through
    · split_ifs at through ⊢ with short
      · cases through
      · rw [whole]
        rfl

theorem reallocate_unwatched (sized : Sized α) (block : Block α) (length : Nat)
    (vacant : heap.slot = none) (room : length * Element.bytes α < heap.ceiling) :
    (block.reallocate block.bytes (length * Element.bytes α) heap).answer = .ok () ∧
      (block.reallocate block.bytes (length * Element.bytes α) heap).heap.slot = none ∧
      (block.reallocate block.bytes (length * Element.bytes α) heap).heap.ceiling =
        heap.ceiling := by
  simp only [reallocate, checked_whole sized]
  split_ifs with same
  · exact ⟨rfl, vacant, rfl⟩
  · obtain ⟨after, served, unwatched, ceiling⟩ := Heap.serve_unwatched
      ⟨block.bytes, length * Element.bytes α⟩ vacant
    have enough : block.exceeds after.ceiling (length * Element.bytes α) = false := by
      simp only [exceeds, ceiling, Bool.and_eq_false_iff, decide_eq_false_iff_not]
      omega
    simp only [served, enough]
    exact ⟨rfl, unwatched, ceiling⟩

/-- Growing that goes through makes a block longer and leaves its elements. -/
theorem grow_ok (sized : Sized α) (block : Block α) (length : Nat)
    (through : (block.grow block.size length heap).answer = .ok ()) :
    (block.grow block.size length heap).object = block.resize length := by
  unfold grow at through ⊢
  cases old : arrayBytes α block.size with
  | error fault =>
      simp only [old] at through
      cases through
  | ok oldBytes =>
      cases new : arrayBytes α length with
      | error fault =>
          simp only [old, new] at through
          cases through
      | ok newBytes =>
          have held : oldBytes = block.bytes :=
            (arrayBytes_some _ _ old).trans (bytes_sized sized block).symm
          have wanted := arrayBytes_some _ _ new
          subst held wanted
          simp only [old, new] at through ⊢
          exact reallocate_ok sized block length through

end Block

namespace Store

omit [Element α] in
theorem toList_slots (store : Store α) :
    store.slots.toList = store.block.toList.take store.count := by
  simp [slots]

omit [Element α] in
theorem size_slots (store : Store α) (intact : store.Intact) :
    store.slots.toList.length = store.count := by
  unfold Intact capacity at intact
  rw [toList_slots, List.length_take, Array.length_toList]
  omega

omit [Element α] in
theorem items_intact (store : Store α) (intact : store.Intact) :
    store.items = .ok store.slots.toList := by
  unfold Intact at intact
  simp only [items, read, intact, if_true]
  rfl

omit [Element α] in
theorem get?_intact (store : Store α) (intact : store.Intact) (index : Nat) :
    store.get? index = .ok store.slots.toList[index]? := by
  unfold Intact at intact
  simp only [get?, intact, if_true, toList_slots, List.getElem?_take, Array.getElem?_toList]

omit [Element α] in
theorem put_ok (value : α) (store : Store α) (through : (put value heap store).answer = .ok ()) :
    store.count < store.block.size ∧ (put value heap store).object.Intact ∧
      (put value heap store).object.slots.toList = store.slots.toList ++ [value] := by
  obtain ⟨block, count⟩ := store
  simp only [put] at through ⊢
  split_ifs at through ⊢ with inside
  · have intact : count + 1 ≤ (block.set count value inside).size := by
      rw [Array.size_set]
      exact inside
    refine ⟨inside, intact, ?_⟩
    have length : count < block.toList.length := inside
    rw [toList_slots, toList_slots]
    simp only [Effect.done, Array.toList_set]
    rw [List.take_succ_eq_append_getElem (by simpa using length)]
    simp [List.take_set_of_le]
  · cases through

/-- Adding that goes through leaves a store whose storage is there. -/
theorem push_ok (sized : Block.Sized α) (value : α) (store : Store α)
    (through : (push value heap store).answer = .ok ()) :
    (push value heap store).object.Intact ∧
      (push value heap store).object.slots.toList = store.slots.toList ++ [value] := by
  obtain ⟨block, count⟩ := store
  simp only [push] at through ⊢
  split_ifs at through ⊢ with full
  -- A full store is one whose block has as many elements as it counts.
  · obtain ⟨⟨⟩, grown, same⟩ := Effect.andThen_ok through
    have object := Block.grow_ok sized block _ grown
    rw [same] at through ⊢
    obtain ⟨inside, intact, slots⟩ := put_ok value _ through
    refine ⟨intact, slots.trans ?_⟩
    simp only [Effect.within, object, Block.size_resize] at inside
    simp only [toList_slots, Effect.within, object, full]
    rw [Block.take_resize block _ (by omega), ← Array.length_toList, List.take_length]
  · exact (put_ok value _ through).2

theorem nextCapacity_between (count : Nat) (few : 8 + 2 * count < 2 ^ 63) :
    count < nextCapacity count ∧ nextCapacity count ≤ 8 + 2 * count := by
  unfold nextCapacity Word.clamp Word.limit
  split_ifs <;> omega

omit [Element α] in
theorem put_inside (value : α) (heap : Heap) (store : Store α)
    (inside : store.count < store.block.size) :
    (put value heap store).answer = .ok () ∧ (put value heap store).heap = heap := by
  obtain ⟨block, count⟩ := store
  have fits : count < block.size := inside
  simp only [put, fits, dite_true]
  exact ⟨rfl, rfl⟩

/-- Adding goes through where nobody watches, with room for twice as many elements. -/
theorem push_unwatched (sized : Block.Sized α) (value : α) (store : Store α)
    (intact : store.Intact) (vacant : heap.slot = none)
    (room : (8 + 2 * store.count) * Element.bytes α < heap.ceiling) :
    (push value heap store).answer = .ok () ∧ (push value heap store).heap.slot = none ∧
      (push value heap store).heap.ceiling = heap.ceiling := by
  obtain ⟨block, count⟩ := store
  simp only [push]
  split_ifs with full
  · subst full
    have bounded := heap.bounded
    have few : 8 + 2 * block.size < 2 ^ 63 := by
      have least := Nat.mul_le_mul_left (8 + 2 * block.size) sized.1
      simp only at room
      omega
    obtain ⟨longer, next⟩ := nextCapacity_between block.size few
    have wanted : nextCapacity block.size * Element.bytes α < heap.ceiling :=
      lt_of_le_of_lt (Nat.mul_le_mul_right _ next) room
    have fits : nextCapacity block.size * Element.bytes α < Word.limit := by
      unfold Word.limit
      omega
    have small : block.bytes < Word.limit := by
      rw [Block.bytes_sized sized]
      exact lt_of_le_of_lt (Nat.mul_le_mul_right _ longer.le) fits
    have grows := Block.grow_sized sized block _ heap small fits
    obtain ⟨through, unwatched, ceiling⟩ :=
      Block.reallocate_unwatched sized block _ vacant wanted
    rw [← grows] at through unwatched ceiling
    have grown := Block.grow_ok sized block _ through
    have inside : block.size < (block.grow block.size (nextCapacity block.size) heap).object.size := by
      rw [grown, Block.size_resize]
      exact longer
    have whole : ((block.grow block.size (nextCapacity block.size) heap).within
        (Store.mk · block.size)).answer = .ok () := through
    rw [Effect.andThen_through whole]
    obtain ⟨added, kept⟩ := put_inside value _ (Store.mk _ block.size) inside
    exact ⟨added, kept.symm ▸ unwatched, kept.symm ▸ ceiling⟩
  · obtain ⟨added, kept⟩ := put_inside value heap ⟨block, count⟩ (lt_of_le_of_ne intact full)
    exact ⟨added, kept.symm ▸ vacant, kept.symm ▸ rfl⟩

theorem extend_append (store : Store α) (heap : Heap) (first second : List α) :
    store.extend heap (first ++ second) =
      (store.extend heap first).andThen fun _ store heap => store.extend heap second := by
  induction first generalizing store heap with
  | nil => rfl
  | cons value rest ih =>
      simp only [List.cons_append, extend]
      cases pushed : (push value heap store).answer with
      | ok answer =>
          rw [Effect.andThen_through pushed, Effect.andThen_through pushed]
          exact ih _ _
      | error fault => simp only [Effect.andThen, pushed, Effect.fail]

theorem extend_ok (sized : Block.Sized α) (values : List α) (store : Store α)
    (intact : store.Intact) (through : (store.extend heap values).answer = .ok ()) :
    (store.extend heap values).object.Intact ∧
      (store.extend heap values).object.slots.toList = store.slots.toList ++ values := by
  induction values generalizing store heap with
  | nil => exact ⟨intact, (List.append_nil _).symm⟩
  | cons value rest ih =>
      simp only [extend] at through ⊢
      obtain ⟨⟨⟩, pushed, same⟩ := Effect.andThen_ok through
      obtain ⟨kept, slots⟩ := push_ok sized value store pushed
      rw [same] at through ⊢
      obtain ⟨whole, all⟩ := ih _ kept through
      refine ⟨whole, all.trans ?_⟩
      rw [slots, List.append_assoc, List.singleton_append]

theorem extend_unwatched (sized : Block.Sized α) (values : List α) (store : Store α)
    (intact : store.Intact) (vacant : heap.slot = none)
    (room : (8 + 2 * (store.count + values.length)) * Element.bytes α < heap.ceiling) :
    (store.extend heap values).answer = .ok () := by
  induction values generalizing store heap with
  | nil => rfl
  | cons value rest ih =>
      have fewer : (8 + 2 * store.count) * Element.bytes α < heap.ceiling :=
        lt_of_le_of_lt (Nat.mul_le_mul_right _ (by omega)) room
      obtain ⟨through, unwatched, ceiling⟩ :=
        push_unwatched sized value store intact vacant fewer
      obtain ⟨kept, slots⟩ := push_ok sized value store through
      have longer : (push value heap store).object.count = store.count + 1 := by
        rw [← size_slots _ kept, slots, List.length_append, size_slots store intact]
        rfl
      simp only [extend]
      rw [Effect.andThen_through through]
      apply ih _ kept unwatched
      rw [longer, ceiling]
      rw [List.length_cons] at room
      exact lt_of_le_of_lt (Nat.mul_le_mul_right _ (by omega)) room

end Store

end MeteredChunk
