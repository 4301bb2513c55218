import MeteredChunk.Proofs.Store.Growth

/-!
The states that a store can be in between operations. As long as no hook fails, its
block is the shortest one of the ladder that its elements fit in. A hook that fails
takes the block, and from then on nothing but a release does anything to the store.
-/

namespace MeteredChunk

variable {α : Type} [Element α] {heap : Heap}

namespace Block

/-- A block that asks for another length is granted it, or loses all in the call of a hook. -/
theorem reallocate_cases (sized : Sized α) (block : Block α) (length : Nat)
    (small : block.bytes < 2 ^ 63) (changes : block.bytes ≠ length * Element.bytes α)
    (survived : (block.reallocate block.bytes (length * Element.bytes α) heap).Survived) :
    let request : Request := ⟨block.bytes, length * Element.bytes α⟩
    let effect := block.reallocate block.bytes (length * Element.bytes α) heap
    ((∃ after, effect = .done () (block.resize length) after) ∧
        (block.resize length).bytes < 2 ^ 63) ∨
      ∃ fault after, heap.Fails request fault after ∧ effect = .fail fault #[] after := by
  intro request effect
  have whole : length * Element.bytes α / elementSize α = length := by
    rw [elementSize, Nat.max_eq_left sized.1, Nat.mul_div_cancel _ sized.1]
  have bytes : (block.resize length).bytes = length * Element.bytes α := by
    rw [bytes_sized sized, size_resize]
  simp only [effect, reallocate, checked_whole sized, if_neg changes, whole] at survived ⊢
  cases served : heap.serve request with
  | mk outcome after =>
      simp only [request] at served
      simp only [served] at survived ⊢
      cases outcome with
      | error fault =>
          right
          exact ⟨fault, after, Heap.serve_fails served (survived fault rfl), rfl⟩
      | ok done =>
          -- The hook is told first; an allocation that fails afterwards ends the program.
          by_cases short : block.exceeds after.ceiling (length * Element.bytes α) = true
          · simp only [short, if_true] at survived
            cases survived _ rfl
          · left
            simp only [short]
            constructor
            · exact ⟨after, rfl⟩
            · have room := sized.1
              have bounded := after.bounded
              simp only [exceeds, Bool.and_eq_true, decide_eq_true_eq] at short
              omega

end Block

namespace Store

/-- There are neither elements nor a block, or the block is the shortest one of the ladder that is
long enough. -/
def Healthy (store : Store α) : Prop :=
  (store.count = 0 ∧ store.capacity = 0) ∨
    (1 ≤ store.count ∧
      IsLeast {capacity | store.count ≤ capacity ∧ ∃ doublings, capacity = 8 * 2 ^ doublings}
        store.capacity)

def Stripped (store : Store α) : Prop := 1 ≤ store.count ∧ store.capacity = 0

def Struck (store : Store α) (heap : Heap) (request : Request) (effect : Effect (Store α) Unit) :
    Prop :=
  ∃ fault after, heap.Fails request fault after ∧ effect = .fail fault ⟨#[], store.count⟩ after

omit [Element α] in
theorem healthy_iff (store : Store α) :
    store.Healthy ↔ store.capacity = Rung.slots (Rung.lowest store.count) := by
  cases counted : store.count with
  | zero =>
      rw [Healthy, counted]
      constructor
      · rintro (⟨-, empty⟩ | ⟨more, -⟩)
        · exact empty
        · exact absurd more (Nat.not_succ_le_zero 0)
      · intro empty
        exact .inl ⟨rfl, empty⟩
  | succ fewer =>
      have least := Rung.slots_least (fewer + 1) fewer.succ_pos
      rw [Healthy, counted]
      constructor
      · rintro (⟨zero, -⟩ | ⟨-, leastToo⟩)
        · exact absurd zero fewer.succ_ne_zero
        · exact leastToo.unique least
      · intro same
        rw [same]
        exact .inr ⟨Nat.succ_le_of_lt fewer.succ_pos, least⟩

theorem climbed_healthy {store : Store α} (healthy : store.Healthy)
    (small : store.block.bytes < 2 ^ 63) : store.Climbed store.count :=
  ⟨rfl, (healthy_iff store).mp healthy, small⟩

theorem Climbed.healthy {store : Store α} {count : Nat} (climbed : store.Climbed count) :
    store.Healthy := by
  rw [healthy_iff, climbed.count_eq]
  exact climbed.capacity_eq

omit [Element α] in
theorem Healthy.not_stripped {store : Store α} (healthy : store.Healthy) : ¬store.Stripped := by
  intro stripped
  have enough := Rung.fits_lowest store.count
  rw [← (healthy_iff store).mp healthy, stripped.2] at enough
  exact absurd stripped.1 (Nat.not_le_of_lt (Nat.lt_succ_of_le enough))

/-- Without a block, a store has nothing to give back and asks nobody. -/
theorem free_bare (store : Store α) (heap : Heap) (bare : store.capacity = 0) :
    store.free heap = .done () {} heap := by
  obtain ⟨block, count⟩ := store
  cases Array.eq_empty_of_size_eq_zero bare
  have sizeless := Block.arrayBytes_zero α
  have passes : Block.checked (#[] : Block α) 0 0 = .ok ⟨0, 0⟩ := by
    simp [Block.checked, Block.bytes]
  simp only [free, Block.release, List.size_toArray, List.length_nil, sizeless, Block.reallocate,
    passes, if_true]
  rfl

section Steps
variable {store : Store α}

/-- An addition takes a healthy store to a healthy one, or strips it. -/
theorem push_cases (sized : Block.Sized α) (value : α) {count : Nat} (climbed : store.Climbed count)
    (survived : (push value heap store).Survived) :
    ((push value heap store).answer = .ok () ∧
        (push value heap store).object.Climbed (count + 1)) ∨
      ∃ request ∈ store.needs, store.Struck heap request (push value heap store) := by
  obtain ⟨block, counted⟩ := store
  have small := climbed.small
  have counts : counted = count := climbed.count_eq
  have next := nextCapacity_climbed sized climbed
  have capacity : block.size = Rung.slots (Rung.lowest count) := climbed.capacity_eq
  rw [Store.capacity] at next
  subst counts
  -- Only an addition to a full block asks for anything, and only that can be broken off.
  by_cases full : counted = block.size
  · have fits := nextCapacity_fits sized block small
    have longer : block.size < nextCapacity block.size := by
      rw [next, capacity]
      exact Rung.slots_lt_succ _
    have more : block.bytes < nextCapacity block.size * Element.bytes α := by
      rw [Block.bytes_sized sized]
      exact Nat.mul_lt_mul_of_pos_right longer sized.1
    have grows := Block.grow_sized sized block _ heap (lt_trans small (by decide)) fits
    simp only [push, if_pos full, grows] at survived ⊢
    have grown := Effect.survived_within _ (Effect.survived_andThen survived)
    rcases Block.reallocate_cases sized block _ small more.ne grown with
      ⟨⟨after, granted⟩, smallToo⟩ | ⟨fault, after, fails, broken⟩
    · left
      have inside : counted < (block.resize (nextCapacity block.size)).size := by
        rw [Block.size_resize, full]
        exact longer
      obtain ⟨changed, size, put⟩ := put_through value after _ counted inside
      rw [granted, Effect.andThen_through rfl]
      simp only [Effect.done, Effect.within] at put ⊢
      rw [put]
      refine ⟨rfl, rfl, ?_, ?_⟩
      · rw [Rung.lowest_succ, if_pos (full.trans capacity)]
        exact (size.trans (Block.size_resize block _)).trans next
      · exact lt_of_eq_of_lt (congrArg (· * Block.elementSize α) size) smallToo
    · right
      rw [broken]
      refine ⟨⟨block.bytes, nextCapacity block.size * Element.bytes α⟩, ?_, fault, after, fails, rfl⟩
      rw [needs, Store.capacity, if_pos full]
      exact List.mem_singleton_self _
  · left
    have fits := Rung.fits_lowest counted
    have inside : counted < block.size := lt_of_le_of_ne (capacity ▸ fits) full
    obtain ⟨changed, size, put⟩ := put_through value heap block counted inside
    simp only [push, if_neg full, put]
    refine ⟨rfl, rfl, ?_, ?_⟩
    · rw [Rung.lowest_succ, if_neg (capacity ▸ full)]
      exact size.trans capacity
    · exact lt_of_eq_of_lt (congrArg (· * Block.elementSize α) size) small

/-- A run of additions goes through, or strips the store at one of them. -/
theorem extend_cases (sized : Block.Sized α) (values : List α) {count : Nat}
    (climbed : store.Climbed count) (survived : (store.extend heap values).Survived) :
    ((store.extend heap values).answer = .ok () ∧
        (store.extend heap values).object.Climbed (count + values.length)) ∨
      ∃ added value rest, values = added ++ value :: rest ∧
        (store.extend heap added).answer = .ok () ∧
        (store.extend heap added).object.Climbed (count + added.length) ∧
        ∃ request ∈ (store.extend heap added).object.needs,
          (store.extend heap added).object.Struck (store.extend heap added).heap request
            (store.extend heap values) := by
  -- On the values: a store that is stripped keeps the rest from being looked at.
  induction values generalizing store heap count with
  | nil => exact .inl ⟨rfl, climbed⟩
  | cons value rest ih =>
      simp only [extend] at survived ⊢
      rcases push_cases sized value climbed (Effect.survived_andThen survived) with
        ⟨through, taller⟩ | ⟨request, needed, struck⟩
      · rw [Effect.andThen_through through] at survived ⊢
        have one (values : List α) : store.extend heap (value :: values) =
            (push value heap store).object.extend (push value heap store).heap values := by
          rw [extend, Effect.andThen_through through]
        rcases ih taller survived with ⟨ended, whole⟩ | ⟨added, other, more, same, ended, reached, struck⟩
        · left
          rw [List.length_cons, Nat.add_comm rest.length, ← Nat.add_assoc]
          exact ⟨ended, whole⟩
        · right
          refine ⟨value :: added, other, more, ?_, ?_, ?_, ?_⟩
          · rw [same, List.cons_append]
          · rw [one]
            exact ended
          · rw [one, List.length_cons, Nat.add_comm added.length, ← Nat.add_assoc]
            exact reached
          · rw [one]
            exact struck
      · right
        obtain ⟨fault, after, fails, broken⟩ := struck
        refine ⟨[], value, rest, rfl, rfl, climbed, request, needed, fault, after, fails, ?_⟩
        rw [broken]
        rfl

theorem free_served (sized : Block.Sized α) (store : Store α) (heap : Heap)
    (small : store.block.bytes < 2 ^ 63) (there : store.capacity ≠ 0) :
    store.free heap =
      match heap.serve ⟨store.block.bytes, 0⟩ with
      | (.ok (), after) => .done () {} after
      | (.error fault, after) => .fail fault ⟨#[], store.count⟩ after := by
  obtain ⟨block, count⟩ := store
  have gives := Block.release_sized sized block heap (lt_trans small (by decide))
  have passes := Block.checked_whole sized block 0
  have changes : block.bytes ≠ 0 := by
    rw [Block.bytes_sized sized]
    exact Nat.mul_ne_zero there sized.1.ne'
  have empty : block.resize 0 = #[] := Array.eq_empty_of_size_eq_zero (Block.size_resize block 0)
  rw [Nat.zero_mul] at passes
  simp only [free, gives, Block.reallocate, passes, if_neg changes]
  obtain ⟨outcome, after⟩ := heap.serve ⟨block.bytes, 0⟩
  cases outcome with
  | error fault => rfl
  | ok done =>
      have enough : block.exceeds after.ceiling 0 = false := by simp [Block.exceeds]
      simp only [enough, Nat.zero_div, empty]
      rfl

/-- A release leaves a new store, or strips it. -/
theorem free_cases (sized : Block.Sized α) (small : store.block.bytes < 2 ^ 63)
    (survived : (store.free heap).Survived) :
    ((store.free heap).answer = .ok () ∧ (store.free heap).object = {}) ∨
      ∃ request ∈ store.releases, store.Struck heap request (store.free heap) := by
  by_cases bare : store.capacity = 0
  · rw [free_bare store heap bare]
    exact .inl ⟨rfl, rfl⟩
  · rw [free_served sized store heap small bare] at survived ⊢
    cases served : heap.serve ⟨store.block.bytes, 0⟩ with
    | mk outcome after =>
        rw [served] at survived
        cases outcome with
        | ok done => exact .inl ⟨rfl, rfl⟩
        | error fault =>
            right
            refine ⟨⟨store.block.bytes, 0⟩, ?_, fault, after, ?_, rfl⟩
            · rw [releases, if_neg bare]
              exact List.mem_singleton_self _
            · exact Heap.serve_fails served (survived fault rfl)

end Steps

inductive Reading (α : Type) where
  | at (index : Nat)
  | items
  | same (other : Store α)
  | sameAs (other : Store α)
  | inspect

def Reading.read : Reading α → Store α → Except Fault Unit
  | .at index, store => (store.get? index).map fun _ => ()
  | .items, store => store.items.map fun _ => ()
  | .same other, store => (store.same other).map fun _ => ()
  | .sameAs other, store => (other.same store).map fun _ => ()
  | .inspect, store => store.inspect.map fun _ => ()

inductive Deed (α : Type) where
  | push (value : α)
  | extend (values : List α)
  | read (reading : Reading α)
  | free

namespace Deed

def perform (heap : Heap) (store : Store α) : Deed α → Effect (Store α) Unit
  | .push value => store.push value heap
  | .extend values => store.extend heap values
  | .read reading => ⟨reading.read store, store, heap⟩
  | .free => store.free heap

def Strikes (heap : Heap) (store : Store α) : Deed α → Prop
  | .push value => ∃ request ∈ store.needs, store.Struck heap request (store.push value heap)
  | .extend values => ∃ added value rest, values = added ++ value :: rest ∧
      let reached := store.extend heap added
      reached.answer = .ok () ∧ reached.object.count = store.count + added.length ∧
        ∃ request ∈ reached.object.needs,
          reached.object.Struck reached.heap request (store.extend heap values)
  | .read _ => False
  | .free => ∃ request ∈ store.releases, store.Struck heap request (store.free heap)

end Deed

/-- What deeds can make of a new store. Each deed meets some heap, whatever hooks are on it. -/
inductive Reached : Store α → Prop
  | created {store : Store α} : create α = .ok store → Reached store
  | after {store : Store α} (deed : Deed α) (heap : Heap) : Reached store →
      (deed.perform heap store).Survived → Reached (deed.perform heap store).object

structure Shaped (store : Store α) : Prop where
  shape : store.Healthy ∨ store.Stripped
  passes : store.Healthy → ∀ length ∈ [nextCapacity store.capacity, 0],
    ∃ old new, arrayBytes α store.capacity = .ok old ∧ arrayBytes α length = .ok new ∧
      store.block.checked old new = .ok ⟨old, new⟩
  strips : store.Healthy → ∀ (deed : Deed α) heap, (deed.perform heap store).Survived →
    (deed.perform heap store).object.Stripped → deed.Strikes heap store
  stuck : store.Stripped → ∀ (deed : Deed α) heap, deed ≠ .free → deed ≠ .extend [] →
    ∃ fault, fault.isFatal = false ∧ deed.perform heap store = .fail fault store heap
  freed : store.Stripped → ∀ heap, store.free heap = .done () {} heap

section Stripped
variable {store : Store α}

omit [Element α] in
theorem Stripped.short (stripped : store.Stripped) : ¬store.count ≤ store.capacity := by
  rw [stripped.2]
  exact Nat.not_le_of_lt stripped.1

omit [Element α] in
theorem read_stripped (stripped : store.Stripped) :
    store.read = .error (.readBeyondStorage store.count 0) := by
  rw [Store.read, if_neg stripped.short, stripped.2]

omit [Element α] in
theorem items_fault (store : Store α) (fault : Fault) (broken : store.items = .error fault) :
    fault.isFatal = false := by
  unfold items Store.read at broken
  split_ifs at broken
  · cases broken
  · cases broken
    rfl

theorem reading_stripped (reading : Reading α) (stripped : store.Stripped) :
    ∃ fault, fault.isFatal = false ∧ reading.read store = .error fault := by
  have items : store.items = .error (.readBeyondStorage store.count 0) := by
    rw [Store.items, read_stripped stripped]
    rfl
  cases reading with
  | «at» index =>
      refine ⟨.readBeyondStorage store.count store.capacity, rfl, ?_⟩
      rw [Reading.read, get?, if_neg stripped.short]
      rfl
  | items =>
      refine ⟨_, items_fault store _ items, ?_⟩
      rw [Reading.read, items]
      rfl
  | same other =>
      refine ⟨_, items_fault store _ items, ?_⟩
      rw [Reading.read, Store.same, items]
      rfl
  | sameAs other =>
      -- The other store is read first, and its own fault comes before this one's.
      rw [Reading.read, Store.same, items]
      cases read : other.items with
      | error fault => exact ⟨fault, items_fault other fault read, rfl⟩
      | ok them => exact ⟨_, items_fault store _ items, rfl⟩
  | inspect =>
      refine ⟨_, items_fault store _ items, ?_⟩
      rw [Reading.read, Store.inspect, items]
      rfl

theorem push_stripped (value : α) (heap : Heap) (stripped : store.Stripped) :
    push value heap store = .fail (.writeBeyondStorage 0 store.count) store heap := by
  obtain ⟨block, count⟩ := store
  have empty : block.size = 0 := stripped.2
  have positive : 1 ≤ count := stripped.1
  simp only [push, put, empty]
  rw [if_neg (by omega), dif_neg (by omega)]

theorem perform_stripped (deed : Deed α) (heap : Heap) (stripped : store.Stripped)
    (kept : deed ≠ .free) (more : deed ≠ .extend []) :
    ∃ fault, fault.isFatal = false ∧ deed.perform heap store = .fail fault store heap := by
  cases deed with
  | push value =>
      exact ⟨.writeBeyondStorage 0 store.count, rfl, push_stripped value heap stripped⟩
  | extend values =>
      cases values with
      | nil => exact absurd rfl more
      | cons value rest =>
          refine ⟨.writeBeyondStorage 0 store.count, rfl, ?_⟩
          rw [Deed.perform, extend, push_stripped value heap stripped]
          rfl
  | read reading =>
      obtain ⟨fault, contained, broken⟩ := reading_stripped reading stripped
      refine ⟨fault, contained, ?_⟩
      rw [Deed.perform, broken]
      rfl
  | free => exact absurd rfl kept

end Stripped

structure Tidy (store : Store α) : Prop where
  shape : store.Healthy ∨ store.Stripped
  small : store.block.bytes < 2 ^ 63

theorem Climbed.tidy {store : Store α} {count : Nat} (climbed : store.Climbed count) : store.Tidy :=
  ⟨.inl climbed.healthy, climbed.small⟩

theorem Struck.tidy {store : Store α} {request : Request} {effect : Effect (Store α) Unit}
    (struck : store.Struck heap request effect) : effect.object.Tidy := by
  obtain ⟨fault, after, -, same⟩ := struck
  rw [same]
  constructor
  · rcases Nat.eq_zero_or_pos store.count with zero | positive
    · exact .inl (.inl ⟨zero, rfl⟩)
    · exact .inr ⟨positive, rfl⟩
  · exact lt_of_eq_of_lt Block.bytes_empty (Nat.two_pow_pos 63)

/-- A healthy store stays one, or it is struck. -/
theorem perform_healthy (sized : Block.Sized α) {store : Store α} (healthy : store.Healthy)
    (small : store.block.bytes < 2 ^ 63) (deed : Deed α)
    (survived : (deed.perform heap store).Survived) :
    (∃ count, (deed.perform heap store).object.Climbed count) ∨
      (deed.Strikes heap store ∧ (deed.perform heap store).object.Tidy) := by
  have climbed := climbed_healthy healthy small
  cases deed with
  | push value =>
      rcases push_cases sized value climbed survived with ⟨-, taller⟩ | ⟨request, needed, struck⟩
      · exact .inl ⟨_, taller⟩
      · exact .inr ⟨⟨request, needed, struck⟩, struck.tidy⟩
  | extend values =>
      rcases extend_cases sized values climbed survived with
        ⟨-, taller⟩ | ⟨added, value, rest, same, ended, reached, request, needed, struck⟩
      · exact .inl ⟨_, taller⟩
      · exact .inr ⟨⟨added, value, rest, same, ended, reached.count_eq, request, needed, struck⟩,
          struck.tidy⟩
  | read reading => exact .inl ⟨_, climbed⟩
  | free =>
      rcases free_cases sized small survived with ⟨-, bare⟩ | ⟨request, gave, struck⟩
      · left
        refine ⟨0, ?_⟩
        rw [Deed.perform, bare]
        exact climbed_new
      · exact .inr ⟨⟨request, gave, struck⟩, struck.tidy⟩

theorem perform_tidy (sized : Block.Sized α) {store : Store α} (tidy : store.Tidy) (deed : Deed α)
    (survived : (deed.perform heap store).Survived) : (deed.perform heap store).object.Tidy := by
  rcases tidy.shape with healthy | stripped
  · rcases perform_healthy sized healthy tidy.small deed survived with ⟨count, climbed⟩ | ⟨-, left⟩
    · exact climbed.tidy
    · exact left
  · by_cases freed : deed = .free
    · rw [freed, Deed.perform, free_bare store heap stripped.2]
      exact climbed_new.tidy
    · by_cases nothing : deed = .extend []
      · rw [nothing]
        exact tidy
      · obtain ⟨fault, -, same⟩ := perform_stripped deed heap stripped freed nothing
        rw [same]
        exact tidy

theorem Reached.tidy (sized : Block.Sized α) {store : Store α} (reached : store.Reached) :
    store.Tidy := by
  induction reached with
  | created made =>
      rw [create, if_neg sized.1.ne'] at made
      cases made
      exact climbed_new.tidy
  | after deed heap before survived ih => exact perform_tidy sized ih deed survived

/-- Whatever deeds are done to a store and whatever hooks do, it is either healthy or stripped of
its block. Only a hook that fails strips it, and only freeing restores it. -/
theorem reached_shaped (sized : Block.Sized α) {store : Store α} (reached : store.Reached) :
    store.Shaped := by
  have tidy := reached.tidy sized
  refine ⟨tidy.shape, ?_, ?_, ?_, ?_⟩
  · intro healthy length asked
    have bytes := Block.bytes_sized sized store.block
    have small : store.capacity * Element.bytes α < Word.limit :=
      bytes ▸ lt_trans tidy.small (by decide)
    have fits : length * Element.bytes α < Word.limit := by
      rcases List.mem_pair.mp asked with rfl | rfl
      · exact nextCapacity_fits sized store.block tidy.small
      · rw [Nat.zero_mul]
        exact Nat.two_pow_pos 64
    refine ⟨_, _, Block.arrayBytes_ok _ small, Block.arrayBytes_ok _ fits, ?_⟩
    rw [capacity, ← bytes]
    exact Block.checked_whole sized store.block length
  · intro healthy deed heap survived stripped
    rcases perform_healthy sized healthy tidy.small deed survived with ⟨count, climbed⟩ | ⟨struck, -⟩
    · exact absurd stripped climbed.healthy.not_stripped
    · exact struck
  · intro stripped deed heap kept more
    exact perform_stripped deed heap stripped kept more
  · intro stripped heap
    exact free_bare store heap stripped.2

/-- A hook that fails in its second call strips a store of eight bytes when a ninth is added. -/
theorem reached_shaped_refused :
    let heap := ({} : Heap).enlist (.refuse 1)
    let nine : Deed UInt8 := .extend (List.replicate 9 7)
    let store := (nine.perform heap {}).object
    store.count = 8 ∧ store.capacity = 0 ∧ store.Shaped := by
  intro heap nine store
  have reached : store.Reached := .after nine heap (.created rfl) (by decide +kernel)
  refine ⟨by decide +kernel, by decide +kernel, ?_⟩
  exact reached_shaped ⟨by decide, by decide⟩ reached

end Store

end MeteredChunk
