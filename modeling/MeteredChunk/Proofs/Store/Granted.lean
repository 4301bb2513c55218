import MeteredChunk.Proofs.Store.Contents

/-!
Stores on a heap that refuses them nothing. Whatever hooks are there, an addition
and a release go through as long as no hook fails and the heap has the memory, and
it is known which requests they make.
-/

namespace MeteredChunk

variable {α : Type} [Element α] {heap : Heap}

structure Effect.Calm {σ β : Type} (heap : Heap) (effect : Effect σ β) : Prop where
  survived : effect.Survived
  unrefused : effect.heap.refusals = heap.refusals

instance {σ β : Type} (heap : Heap) (effect : Effect σ β) : Decidable (effect.Calm heap) :=
  decidable_of_iff (effect.Survived ∧ effect.heap.refusals = heap.refusals)
    ⟨fun ⟨survived, unrefused⟩ => ⟨survived, unrefused⟩,
      fun calm => ⟨calm.survived, calm.unrefused⟩⟩

namespace Dialogue

/-- In a calm dialogue the heap has no other say than its ceiling. -/
theorem hold_calm {σ β : Type} {dialogue : Dialogue σ β} (candid : dialogue.Candid)
    (calm : (dialogue.hold heap).Calm heap) :
    ((dialogue.hold heap).answer, (dialogue.hold heap).object) = dialogue.granted heap.ceiling ∧
      (dialogue.hold heap).heap = heap.serveAll (dialogue.wishes heap.ceiling) := by
  have all := issues_granted candid calm.survived calm.unrefused
  obtain ⟨ended, asked⟩ := hold_granted dialogue heap all
  refine ⟨ended, ?_⟩
  rw [← asked]
  exact hold_heap dialogue heap

theorem calm_vacant {σ β : Type} {effect : Effect σ β} {dialogue : Dialogue σ β} {answer : β}
    (vacant : heap.slot = none) (held : dialogue.hold heap = effect)
    (through : effect.answer = .ok answer) : effect.Calm heap := by
  constructor
  · intro fault broken
    cases through.symm.trans broken
  · rw [← held, hold_vacant dialogue vacant]
    exact (Heap.serveAll_vacant _ vacant).2

theorem calm_andThen {σ β γ : Type} {dialogue : Dialogue σ β} {next : β → σ → Dialogue σ γ}
    (calm : ((dialogue.andThen next).hold heap).Calm heap) :
    (dialogue.hold heap).Calm heap ∧
      ∀ answer, (dialogue.hold heap).answer = .ok answer →
        ((next answer (dialogue.hold heap).object).hold (dialogue.hold heap).heap).Calm
          (dialogue.hold heap).heap := by
  have early := (dialogue.hold_later heap).refusals_kept
  rw [hold_andThen] at calm
  obtain ⟨survived, unrefused⟩ := calm
  cases ended : (dialogue.hold heap).answer with
  | error fault =>
      simp only [Effect.andThen, ended] at survived unrefused
      refine ⟨⟨fun other broken => ?_, unrefused⟩, fun answer through => by cases through⟩
      cases ended.symm.trans broken
      exact survived fault rfl
  | ok first =>
      rw [Effect.andThen_through ended] at survived unrefused
      have late := ((next first (dialogue.hold heap).object).hold_later
        (dialogue.hold heap).heap).refusals_kept
      -- Refusals are only ever added, so none were added in between.
      have between : (dialogue.hold heap).heap.refusals = heap.refusals := by
        rw [unrefused] at late
        exact (early.eq_of_length_le late.length_le).symm
      refine ⟨⟨fun other broken => (by cases ended.symm.trans broken), between⟩, ?_⟩
      intro answer through
      cases through
      exact ⟨survived, unrefused.trans between.symm⟩

end Dialogue

namespace Block

theorem reallocating_granted (sized : Sized α) (block : Block α) (length ceiling : Nat)
    (changes : block.bytes ≠ length * Element.bytes α) :
    (block.reallocating block.bytes (length * Element.bytes α)).wishes ceiling =
        [⟨block.bytes, length * Element.bytes α⟩] ∧
      (block.reallocating block.bytes (length * Element.bytes α)).granted ceiling =
        if block.exceeds ceiling (length * Element.bytes α) then
          (.error (Heap.shortage (length * Element.bytes α) (Element.bytes α) (Element.align α)), #[])
        else (.ok (), block.resize length) := by
  have whole : length * Element.bytes α / elementSize α = length := by
    rw [elementSize, Nat.max_eq_left sized.1, Nat.mul_div_cancel _ sized.1]
  simp only [reallocating, checked_whole sized, changes, if_false, Dialogue.wishes,
    Dialogue.granted, whole]
  constructor
  · split <;> rfl
  · split <;> rfl

theorem growing_sized (sized : Sized α) (block : Block α) (length : Nat)
    (small : block.bytes < Word.limit) (fits : length * Element.bytes α < Word.limit) :
    block.growing block.size length =
      block.reallocating block.bytes (length * Element.bytes α) := by
  rw [bytes_sized sized] at small ⊢
  simp only [growing, arrayBytes_ok _ small, arrayBytes_ok _ fits]

theorem releasing_sized (sized : Sized α) (block : Block α) (small : block.bytes < Word.limit) :
    block.releasing block.size = block.reallocating block.bytes 0 := by
  rw [bytes_sized sized] at small ⊢
  simp only [releasing, arrayBytes_ok _ small]

end Block

namespace Store

theorem nextCapacity_small (sized : Block.Sized α) (block : Block α)
    (small : block.bytes < 2 ^ 63) :
    nextCapacity block.size = if block.size < 8 then 8 else block.size * 2 := by
  rw [Block.bytes_sized sized] at small
  have count := Nat.le_mul_of_pos_right block.size sized.1
  unfold nextCapacity Word.clamp Word.limit
  split
  · rfl
  · omega

def needs (store : Store α) : List Request :=
  if store.count = store.capacity then
    [⟨store.block.bytes, nextCapacity store.capacity * Element.bytes α⟩]
  else []

structure Added (store : Store α) (heap : Heap) (effect : Effect (Store α) Unit) : Prop where
  through : effect.answer = .ok ()
  small : effect.object.block.bytes < 2 ^ 63
  count_eq : effect.object.count = store.count + 1
  capacity_eq : effect.object.capacity =
    if store.count = store.capacity then nextCapacity store.capacity else store.capacity
  heap_eq : effect.heap = heap.serveAll store.needs

omit [Element α] in
theorem putting_granted (value : α) (store : Store α) (heap : Heap) (ceiling : Nat) :
    (store.putting value).granted ceiling =
        ((put value heap store).answer, (put value heap store).object) ∧
      (store.putting value).wishes ceiling = [] := by
  obtain ⟨block, count⟩ := store
  simp only [putting, put]
  split
  · exact ⟨rfl, rfl⟩
  · exact ⟨rfl, rfl⟩

omit [Element α] in
theorem put_through (value : α) (heap : Heap) (block : Block α) (count : Nat)
    (inside : count < block.size) :
    ∃ changed : Block α, changed.size = block.size ∧
      put value heap ⟨block, count⟩ = .done () ⟨changed, count + 1⟩ heap := by
  refine ⟨block.set count value inside, Array.size_set _, ?_⟩
  simp only [put, inside, dite_true]

/-- A full store that is granted a longer block, or ends the program. -/
theorem pushing_full (sized : Block.Sized α) (value : α) (block : Block α) (heap : Heap)
    (ceiling : Nat) (small : block.bytes < 2 ^ 63) :
    let wanted := nextCapacity block.size * Element.bytes α
    let dialogue := (⟨block, block.size⟩ : Store α).pushing value
    (∃ fault object, fault.isFatal = true ∧ dialogue.granted ceiling = (.error fault, object)) ∨
      (wanted < ceiling ∧ dialogue.wishes ceiling = [⟨block.bytes, wanted⟩] ∧
        ∃ longer : Block α, longer.size = nextCapacity block.size ∧
          dialogue.granted ceiling = (.ok (), ⟨longer, block.size + 1⟩)) := by
  intro wanted dialogue
  have fits : wanted < Word.limit := nextCapacity_fits sized block small
  have longer : block.size < nextCapacity block.size := by
    rw [nextCapacity_small sized block small]
    split <;> omega
  have more : block.bytes < wanted := by
    rw [Block.bytes_sized sized]
    exact Nat.mul_lt_mul_of_pos_right longer sized.1
  obtain ⟨asked, ended⟩ := Block.reallocating_granted sized block (nextCapacity block.size)
    ceiling more.ne
  have grows := Block.growing_sized sized block (nextCapacity block.size)
    (lt_trans small (by decide)) fits
  have same : dialogue =
      ((block.reallocating block.bytes wanted).within (Store.mk · block.size)).andThen
        fun _ store => store.putting value := by
    simp only [dialogue, wanted, pushing, if_true, grows]
  have within := Dialogue.granted_within (Store.mk · block.size)
    (block.reallocating block.bytes wanted) ceiling
  rw [ended] at within
  by_cases short : block.exceeds ceiling wanted = true
  · left
    rw [if_pos short] at within
    exact ⟨_, _, rfl, same ▸ Dialogue.granted_andThen_error _ within⟩
  · right
    rw [if_neg short] at within
    obtain ⟨whole, wishes⟩ := Dialogue.granted_andThen
      (fun _ store => Store.putting value store) within
    have inside : block.size < (block.resize (nextCapacity block.size)).size := by
      rw [Block.size_resize]
      exact longer
    obtain ⟨changed, size, put⟩ := put_through value heap _ block.size inside
    obtain ⟨putGranted, unasked⟩ :=
      putting_granted value ⟨block.resize (nextCapacity block.size), block.size⟩ heap ceiling
    refine ⟨?_, ?_, changed, ?_, ?_⟩
    · simp only [Block.exceeds, Bool.and_eq_true, decide_eq_true_eq] at short
      have room := sized.1
      omega
    · rw [same, wishes, Dialogue.wishes_within, asked, unasked]
      rfl
    · rw [size, Block.size_resize]
    · rw [same, whole, putGranted, put]
      rfl

/-- An addition goes through where nothing is refused. -/
theorem push_added (sized : Block.Sized α) (value : α) (store : Store α)
    (intact : store.Intact) (small : store.block.bytes < 2 ^ 63)
    (calm : (push value heap store).Calm heap) : store.Added heap (push value heap store) := by
  rw [← hold_pushing] at calm
  obtain ⟨ended, served⟩ := Dialogue.hold_calm (pushing_candid value store) calm
  have survived := calm.survived
  rw [hold_pushing] at ended served survived
  obtain ⟨block, count⟩ := store
  by_cases full : count = block.size
  · subst full
    rcases pushing_full sized value block heap heap.ceiling small with
      ⟨fault, object, fatal, broken⟩ | ⟨below, wishes, longer, size, granted⟩
    · rw [broken] at ended
      have contained := survived fault (congrArg Prod.fst ended)
      rw [fatal] at contained
      cases contained
    · rw [granted] at ended
      rw [wishes] at served
      obtain ⟨answer, object⟩ := Prod.mk.inj ended
      have bounded := heap.bounded
      refine ⟨answer, ?_, congrArg Store.count object, ?_, ?_⟩
      · rw [object, Block.bytes_sized sized, size]
        exact lt_of_lt_of_le below bounded
      · rw [object, capacity, size]
        exact (if_pos rfl).symm
      · rw [served, needs]
        exact congrArg heap.serveAll (if_pos rfl).symm
  · have inside : count < block.size := lt_of_le_of_ne intact full
    obtain ⟨changed, size, put⟩ := put_through value heap block count inside
    have same : push value heap ⟨block, count⟩ = .done () ⟨changed, count + 1⟩ heap := by
      simp only [push, full, if_false]
      exact put
    rw [same]
    refine ⟨rfl, ?_, rfl, ?_, ?_⟩
    · have kept : Block.bytes changed = block.bytes := by rw [Block.bytes, size, Block.bytes]
      exact kept ▸ small
    · exact size.trans (if_neg full).symm
    · have nothing : needs ⟨block, count⟩ = [] := if_neg full
      rw [nothing]
      rfl

/-- Additions one after the other go through where nothing is refused. -/
theorem extend_calm (sized : Block.Sized α) (values : List α) (store : Store α)
    (intact : store.Intact) (small : store.block.bytes < 2 ^ 63)
    (calm : (store.extend heap values).Calm heap) : (store.extend heap values).answer = .ok () := by
  induction values generalizing store heap with
  | nil => rfl
  | cons value rest ih =>
      rw [← hold_extending, extending] at calm
      obtain ⟨first, others⟩ := Dialogue.calm_andThen calm
      rw [hold_pushing] at first others
      have added := push_added sized value store intact small first
      have later := others () added.through
      rw [hold_extending] at later
      rw [extend, Effect.andThen_through added.through]
      exact ih _ (push_ok sized value store added.through).1 added.small later

def releases (store : Store α) : List Request :=
  if store.capacity = 0 then [] else [⟨store.block.bytes, 0⟩]

theorem freeing_granted (sized : Block.Sized α) (store : Store α) (ceiling : Nat)
    (small : store.block.bytes < 2 ^ 63) :
    store.freeing.granted ceiling = (.ok (), {}) ∧ store.freeing.wishes ceiling = store.releases := by
  obtain ⟨block, count⟩ := store
  have gives := Block.releasing_sized sized block (lt_trans small (by decide))
  have same : freeing ⟨block, count⟩ =
      ((block.reallocating block.bytes 0).within (Store.mk · count)).andThen
        fun _ store => .close (.ok ()) ⟨store.block, 0⟩ := by
    simp only [freeing, gives]
  have within := Dialogue.granted_within (Store.mk · count) (block.reallocating block.bytes 0) ceiling
  have sizes := Block.bytes_sized sized block
  rw [same, releases]
  by_cases empty : block.size = 0
  · have roomless : block.bytes = 0 := by rw [sizes, empty, Nat.zero_mul]
    have bare : block = #[] := Array.eq_empty_of_size_eq_zero empty
    have kept : block.reallocating block.bytes 0 = .close (.ok ()) block := by
      simp only [Block.reallocating, Block.checked, roomless, ne_eq, not_true_eq_false, if_false,
        Nat.zero_mod, if_true]
    rw [kept] at within ⊢
    obtain ⟨whole, wishes⟩ := Dialogue.granted_andThen
      (fun _ store => Dialogue.close (.ok ()) (Store.mk store.block 0)) within
    rw [whole, wishes, Dialogue.wishes_within, bare]
    exact ⟨rfl, rfl⟩
  · have changes : block.bytes ≠ 0 * Element.bytes α := by
      rw [sizes, Nat.zero_mul]
      exact Nat.mul_ne_zero empty sized.1.ne'
    obtain ⟨asked, ended⟩ := Block.reallocating_granted sized block 0 ceiling changes
    have enough : block.exceeds ceiling (0 * Element.bytes α) = false := by
      simp [Block.exceeds]
    have bare : block.resize 0 = #[] := Array.eq_empty_of_size_eq_zero (Block.size_resize block 0)
    rw [enough, bare, Nat.zero_mul] at ended
    rw [Nat.zero_mul] at asked
    rw [ended] at within
    obtain ⟨whole, wishes⟩ := Dialogue.granted_andThen
      (fun _ store => Dialogue.close (.ok ()) (Store.mk store.block 0)) within
    rw [whole, wishes, Dialogue.wishes_within, asked]
    exact ⟨rfl, (if_neg empty).symm⟩

/-- A release goes through where nothing is refused, and leaves a new store. -/
theorem free_calm (sized : Block.Sized α) (store : Store α) (small : store.block.bytes < 2 ^ 63)
    (calm : (store.free heap).Calm heap) :
    (store.free heap).answer = .ok () ∧ (store.free heap).object = {} ∧
      (store.free heap).heap = heap.serveAll store.releases := by
  rw [← hold_freeing] at calm ⊢
  obtain ⟨ended, served⟩ := Dialogue.hold_calm (freeing_candid store) calm
  obtain ⟨granted, wishes⟩ := freeing_granted sized store heap.ceiling small
  rw [granted] at ended
  rw [wishes] at served
  obtain ⟨answer, object⟩ := Prod.mk.inj ended
  exact ⟨answer, object, served⟩

end Store

end MeteredChunk
