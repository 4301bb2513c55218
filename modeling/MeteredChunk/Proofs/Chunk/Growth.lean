import MeteredChunk.Proofs.Chunk.Balance
import MeteredChunk.Proofs.Store.Growth

/-!
The law of growth for everything that keeps a store: a store on its own, the code of
a chunk, and a pool. Additions may come one by one, with anything happening to the
heap in between.
-/

namespace MeteredChunk

/-- An object that keeps a store, adds elements to it, and frees it along with what else it holds.
-/
structure Keeper (σ α : Type) [Element α] where
  store : σ → Store α
  add : α → Heap → σ → Effect σ Unit
  free : Heap → σ → Effect σ Unit
  /-- What is asked for to free the rest, after the store. -/
  others : σ → List Request
  OthersSmall : σ → Prop
  add_within : ∀ value heap object,
    (add value heap object).within store = (store object).push value heap
  free_calm : Block.Sized α → ∀ heap object, (store object).block.bytes < 2 ^ 63 → OthersSmall object →
    (free heap object).Calm heap →
      (free heap object).answer = .ok () ∧ store (free heap object).object = {} ∧
        (free heap object).heap = heap.serveAll ((store object).releases ++ others object)

namespace Keeper

def array (α : Type) [Element α] : Keeper (Store α) α where
  store := id
  add := Store.push
  free := Store.free
  others _ := []
  OthersSmall _ := True
  add_within _ _ _ := rfl
  free_calm sized _ store small _ calm := by
    rw [List.append_nil]
    exact Store.free_calm sized store small calm

def pool : Keeper Pool Value where
  store := Pool.values
  add value heap pool := (pool.add value heap).map fun _ => ()
  free := Pool.free
  others _ := []
  OthersSmall _ := True
  add_within value heap pool := by
    obtain ⟨values⟩ := pool
    simp only [Pool.add, Effect.andThen, Effect.within, Effect.map]
    cases pushed : (values.push value heap).answer with
    | ok done => simp only [Effect.done, Except.map, ← pushed]
    | error fault => simp only [Effect.fail, Except.map, ← pushed]
  free_calm sized _ pool small _ calm := by
    obtain ⟨values⟩ := pool
    rw [List.append_nil]
    exact Store.free_calm sized values small ⟨calm.survived, calm.unrefused⟩

def code : Keeper Chunk CodeUnit where
  store := Chunk.code
  add unit heap chunk := chunk.writeByte unit.byte unit.line heap
  free := Chunk.free
  others chunk := chunk.constants.values.releases
  OthersSmall chunk := chunk.constants.values.block.bytes < 2 ^ 63
  add_within _ _ _ := rfl
  free_calm _ heap chunk smallCode smallConstants calm := by
    obtain ⟨granted, wishes⟩ := chunk.freeing_granted heap.ceiling smallCode smallConstants
    rw [← Chunk.hold_freeing] at calm ⊢
    obtain ⟨ended, served⟩ := Dialogue.hold_calm (Chunk.freeing_candid chunk) calm
    rw [granted] at ended
    rw [wishes] at served
    obtain ⟨answer, object⟩ := Prod.mk.inj ended
    exact ⟨answer, congrArg Chunk.code object, served⟩

variable {σ α : Type} [Element α]

structure Addition (keeper : Keeper σ α) where
  meanwhile : Heap → Heap
  aside : σ → σ
  kept : ∀ object, keeper.store (aside object) = keeper.store object
  value : α

def run (keeper : Keeper σ α) (object : σ) (heap : Heap) :
    List keeper.Addition → List (Heap × Effect σ Unit)
  | [] => []
  | addition :: rest =>
      let met := addition.meanwhile heap
      let effect := keeper.add addition.value met (addition.aside object)
      (met, effect) :: keeper.run effect.object effect.heap rest

structure Grown (keeper : Keeper σ α) (before : Nat) (met : Heap) (effect : Effect σ Unit) :
    Prop where
  through : effect.answer = .ok ()
  count_eq : (keeper.store effect.object).count = before + 1
  capacity_least :
    IsLeast {capacity | before + 1 ≤ capacity ∧ ∃ doublings, capacity = 8 * 2 ^ doublings}
      (keeper.store effect.object).capacity
  heap_eq : effect.heap = met.serveAll (Rung.requested (Element.bytes α) before)
  requests_eq :
    let doublings := ((keeper.store effect.object).capacity / 8).log2
    let requests := (List.range (before + 1)).flatMap (Rung.requested (Element.bytes α))
    requests = (List.range (doublings + 1)).map (Rung.request (Element.bytes α)) ∧
      requests.map Request.kind? = some .allocate :: List.replicate doublings (some .grow)
  copied_eq :
    let copied :=
      (((List.range (before + 1)).flatMap (Rung.requested (Element.bytes α))).map Rung.copied).sum
    copied = ((keeper.store effect.object).capacity - 8) * Element.bytes α ∧
      copied < 2 * (before + 1) * Element.bytes α
  freed : ∀ heap, keeper.OthersSmall effect.object → (keeper.free heap effect.object).Calm heap →
    let freed := keeper.free heap effect.object
    freed.answer = .ok () ∧ keeper.store freed.object = {} ∧
      freed.heap = heap.serveAll
        (⟨(keeper.store effect.object).capacity * Element.bytes α, 0⟩ ::
          keeper.others effect.object)

theorem add_climbed (keeper : Keeper σ α) (sized : Block.Sized α) (addition : keeper.Addition)
    {object : σ} {met : Heap} {before : Nat} (climbed : (keeper.store object).Climbed before)
    (calm : (keeper.add addition.value met (addition.aside object)).Calm met) :
    let effect := keeper.add addition.value met (addition.aside object)
    effect.answer = .ok () ∧ (keeper.store effect.object).Climbed (before + 1) ∧
      effect.heap = met.serveAll (Rung.requested (Element.bytes α) before) := by
  intro effect
  have same := keeper.add_within addition.value met (addition.aside object)
  rw [addition.kept] at same
  have pushed : ((keeper.store object).push addition.value met).Calm met :=
    same ▸ ⟨calm.survived, calm.unrefused⟩
  have ended := Store.push_climbed sized addition.value climbed pushed
  rw [← same] at ended
  exact ended

/-- Where the store has climbed, all that was asked for on the way is known. -/
theorem grown_climbed (keeper : Keeper σ α) (sized : Block.Sized α) {met : Heap}
    {effect : Effect σ Unit} {before : Nat} (through : effect.answer = .ok ())
    (climbed : (keeper.store effect.object).Climbed (before + 1))
    (served : effect.heap = met.serveAll (Rung.requested (Element.bytes α) before)) :
    keeper.Grown before met effect := by
  have capacity := climbed.capacity_eq
  have climb := Rung.climb_requested (Element.bytes α) (before + 1)
  have few := Rung.slots_lt (before + 1) before.succ_pos
  obtain ⟨doublings, rung⟩ : ∃ doublings, Rung.lowest (before + 1) = doublings + 1 := ⟨_, rfl⟩
  have eighth := Rung.log2_slots doublings
  refine ⟨through, climbed.count_eq, ?_, served, ?_, ?_, ?_⟩
  · rw [capacity]
    exact Rung.slots_least (before + 1) before.succ_pos
  · rw [capacity, climb, rung, eighth]
    exact ⟨rfl, Rung.kinds_climb _ doublings sized.1⟩
  · rw [capacity, climb, rung, Rung.copied_climb _ doublings sized.1]
    rw [rung] at few
    exact ⟨rfl, Nat.mul_lt_mul_of_pos_right (by omega) sized.1⟩
  · intro heap othersSmall calm
    have freed := keeper.free_calm sized heap effect.object climbed.small othersSmall calm
    rw [Store.releases_climbed sized climbed before.succ_pos, ← capacity] at freed
    exact freed

theorem run_climbed (keeper : Keeper σ α) (sized : Block.Sized α)
    (additions : List keeper.Addition) {object : σ} {heap : Heap} {before : Nat}
    (climbed : (keeper.store object).Climbed before)
    (calm : ∀ made ∈ keeper.run object heap additions, made.2.Calm made.1) :
    ∀ index made, (keeper.run object heap additions)[index]? = some made →
      keeper.Grown (before + index) made.1 made.2 := by
  -- On the additions to come; the number of those before tells all that there is to know of them.
  induction additions generalizing object heap before with
  | nil => intro index made found; cases found
  | cons addition rest ih =>
      obtain ⟨first, later⟩ := List.forall_mem_cons.mp calm
      obtain ⟨through, after, served⟩ := keeper.add_climbed sized addition climbed first
      intro index made found
      cases index with
      | zero =>
          cases found
          exact keeper.grown_climbed sized through after served
      | succ index =>
          rw [← Nat.add_assoc, Nat.add_right_comm]
          exact ih after later index made found

theorem length_run (keeper : Keeper σ α) (additions : List keeper.Addition) (object : σ)
    (heap : Heap) : (keeper.run object heap additions).length = additions.length := by
  induction additions generalizing object heap with
  | nil => rfl
  | cons addition rest ih => exact congrArg Nat.succ (ih _ _)

/-- Where no hook fails and the sizes are words, a store that began empty has the least capacity of
the ladder after every addition. Its requests are the steps of the ladder up to there, and freeing
it is one more. -/
theorem run_grows (keeper : Keeper σ α) (object : σ) (heap : Heap)
    (additions : List keeper.Addition) (room : 0 < Element.bytes α)
    (empty : keeper.store object = {})
    (fits : Rung.slots (Rung.lowest additions.length) * Element.bytes α < Word.limit)
    (calm : ∀ made ∈ keeper.run object heap additions, made.2.Calm made.1) :
    (keeper.store object).capacity = 0 ∧
      (keeper.run object heap additions).length = additions.length ∧
      ∀ index made, (keeper.run object heap additions)[index]? = some made →
        keeper.Grown index made.1 made.2 := by
  refine ⟨congrArg Store.capacity empty, keeper.length_run additions object heap, ?_⟩
  cases additions with
  | nil => intro index made found; cases found
  | cons addition rest =>
      have least := Rung.fits_lowest (addition :: rest).length
      obtain ⟨capacity, doublings, rung⟩ := (Rung.slots_least _ (Nat.succ_pos rest.length)).1
      have eight : 8 ≤ Rung.slots (Rung.lowest (addition :: rest).length) := by
        rw [List.length_cons, rung]
        exact Nat.le_mul_of_pos_right 8 (Nat.two_pow_pos doublings)
      have sized : Block.Sized α :=
        ⟨room, lt_of_le_of_lt (Nat.mul_le_mul_right _ eight) fits⟩
      intro index made found
      have grown := keeper.run_climbed sized _ (empty ▸ Store.climbed_new) calm index made found
      rw [Nat.zero_add] at grown
      exact grown

def nine (keeper : Keeper σ α) (value : α) : List keeper.Addition :=
  ⟨id, id, fun _ => rfl, value⟩ :: ⟨(·.enlist (.reenter 32)), id, fun _ => rfl, value⟩ ::
    (List.replicate 6 ⟨id, id, fun _ => rfl, value⟩ ++
      [⟨fun heap => heap.resetCounters.vacate, id, fun _ => rfl, value⟩])

theorem run_grows_nine :
    (∃ made, ((array UInt32).run {} {} (nine _ 7))[8]? = some made ∧
      (array UInt32).Grown 8 made.1 made.2) ∧
    (∃ made, (code.run {} {} (nine code ⟨0, 1⟩))[8]? = some made ∧ code.Grown 8 made.1 made.2) ∧
    ∃ made, (pool.run {} {} (nine pool ⟨0⟩))[8]? = some made ∧ pool.Grown 8 made.1 made.2 := by
  have words := run_grows (array UInt32) {} {} (nine _ 7) (by decide) rfl
    (by decide +kernel) (by decide +kernel)
  have units := run_grows code {} {} (nine code ⟨0, 1⟩) (by decide) rfl (by decide +kernel)
    (by decide +kernel)
  have values := run_grows pool {} {} (nine pool ⟨0⟩) (by decide) rfl (by decide +kernel)
    (by decide +kernel)
  exact ⟨⟨_, rfl, words.2.2 8 _ rfl⟩, ⟨_, rfl, units.2.2 8 _ rfl⟩, ⟨_, rfl, values.2.2 8 _ rfl⟩⟩

end Keeper

end MeteredChunk
