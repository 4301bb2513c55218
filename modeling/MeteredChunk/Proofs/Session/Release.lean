import MeteredChunk.Proofs.Heap.Delivery
import MeteredChunk.Proofs.Session.Conservation
import MeteredChunk.Proofs.Store.Stripped

/-!
Releasing chunks under hooks that stand by.
-/

namespace MeteredChunk

/-! ## Bystanders

Hooks that stand by. In a call they write, leave the slot vacant or fail, but they
ask for nothing, put no hook in and leave the meter alone. Such a hook fails at most
once, since then it is gone, and a request counts for the same whether it fails or not.
-/

/-- Makes no request, puts no hook in, and does not zero the meter. -/
def Act.Standing : Act Plan → Prop
  | .write _ => True
  | .vacate => True
  | .fail fault => fault.isFatal = false
  | _ => False

namespace Plan

def Bystander : Plan → Prop := Obeys fun _ acts => ∀ act ∈ acts, act.Standing

theorem refuse_bystander (turn : Nat) : (refuse turn).Bystander := by
  have fails (call : Nat) : ∀ act ∈ (if call = turn then [.fail (.refused turn)] else []),
      Act.Standing act := by
    intro act member
    obtain ⟨-, rfl⟩ : call = turn ∧ act = .fail (.refused turn) := by simpa using member
    rfl
  apply noting_obeys
  · intro notice weighed
    exact List.forall_mem_singleton.mpr rfl
  · intro call notice delta weighed
    exact List.forall_mem_cons.mpr ⟨trivial, fails call⟩
  · intro call next member
    simp at member

end Plan

namespace Heap

/-- A call of a hook that stands by leaves the slot as vacant as it was during it. -/
theorem perform_standing (tell : Telling) (hook : Hook) (acts : List (Act Plan))
    (standing : ∀ act ∈ acts, act.Standing) (heap : Heap) (vacant : heap.slot = none) :
    let outcome := perform tell hook [] acts heap
    outcome.2.counters = heap.counters ∧ outcome.2.slot = none ∧ outcome.Contained := by
  -- The slot is vacant during the call, and no act that is left puts a hook there.
  induction acts generalizing heap with
  | nil => exact ⟨rfl, vacant, fun _ broken => by cases broken⟩
  | cons act rest ih =>
      obtain ⟨first, others⟩ := List.forall_mem_cons.mp standing
      cases act with
      | write entry => exact ih others _ vacant
      | vacate => exact ih others _ rfl
      | fail fault =>
          refine ⟨rfl, vacant, ?_⟩
          intro other broken
          cases broken
          exact first
      | resize number size => cases first
      | enlist next => cases first
      | reset => cases first

theorem counters_putBack (heap : Heap) (hook : Hook) :
    (heap.putBack hook).counters = heap.counters := by
  unfold putBack
  split <;> rfl

theorem notify_standing (room : Nat) (heap : Heap) (notice : Notice)
    (watched : heap.Watched Plan.Bystander) :
    let outcome := notify (room + 1) heap notice
    outcome.2.counters = heap.counters ∧ outcome.Contained ∧
      ∀ fault, outcome.1 = .error fault → outcome.2.slot = none := by
  unfold notify
  cases slot : heap.slot with
  | none => exact ⟨rfl, fun _ broken => (by cases broken), fun _ broken => by cases broken⟩
  | some hook =>
      obtain ⟨standing, -⟩ := watched hook slot
      have called := perform_standing (notify room) hook _ (standing hook.calls notice) heap.vacate rfl
      dsimp only at called ⊢
      split
      · rename_i after ended
        rw [ended] at called
        refine ⟨?_, fun _ broken => (by cases broken), fun _ broken => by cases broken⟩
        exact (counters_putBack _ _).trans called.1
      · rename_i fault after ended
        rw [ended] at called
        exact ⟨called.1, called.2.2, fun _ _ => called.2.1⟩

/-- With a hook that stands by, the meter only counts the request, and if the hook fails it is
gone. -/
theorem serve_standing (heap : Heap) (request : Request) (deep : 0 < heap.stack)
    (watched : heap.Watched Plan.Bystander) :
    let outcome := heap.serve request
    outcome.2.counters = (heap.count request).counters ∧ outcome.Contained ∧
      ∀ fault, outcome.1 = .error fault → outcome.2.slot = none := by
  simp only [serve, Heap.request, count]
  cases request.kind? with
  | none => exact ⟨rfl, fun _ broken => (by cases broken), fun _ broken => by cases broken⟩
  | some kind =>
      -- One level of calls is enough, since a hook that stands by asks for nothing itself.
      obtain ⟨room, deeper⟩ := Nat.exists_eq_add_one_of_ne_zero deep.ne'
      rw [deeper]
      exact notify_standing room (heap.account kind request) _ watched

structure Relieved (bytes blocks : Nat) (before after : Heap) : Prop where
  live_eq : after.counters.live + bytes = before.counters.live
  frees_eq : after.counters.frees = before.counters.frees + blocks

theorem Relieved.refl (heap : Heap) : Relieved 0 0 heap heap := ⟨rfl, rfl⟩

theorem Relieved.trans {bytes blocks more moreBlocks : Nat} {before between after : Heap}
    (early : Relieved bytes blocks before between) (late : Relieved more moreBlocks between after) :
    Relieved (bytes + more) (blocks + moreBlocks) before after := by
  have live := early.live_eq
  have frees := early.frees_eq
  constructor
  · rw [← live, ← late.live_eq, Nat.add_right_comm, Nat.add_comm bytes, ← Nat.add_assoc,
      Nat.add_right_comm]
  · rw [late.frees_eq, frees, Nat.add_assoc]

/-- The hook in the slot can be called and stands by, and the live bytes are a word. -/
structure Attended (heap : Heap) : Prop where
  deep : 0 < heap.stack
  watched : heap.Watched Plan.Bystander
  word : heap.counters.live < Word.limit

theorem Attended.later {heap after : Heap} (attended : heap.Attended) (later : heap.Later after)
    (watched : after.Watched Plan.Bystander) : after.Attended :=
  ⟨later.stack_eq ▸ attended.deep, watched, later.word_kept attended.word⟩

theorem Attended.serve {heap : Heap} (attended : heap.Attended) (request : Request) :
    (heap.serve request).2.Attended :=
  attended.later (heap.serve_later request) (heap.serve_watched request attended.watched)

/-- The release of a block that the meter reads. -/
theorem Attended.relieved {heap : Heap} (attended : heap.Attended) (bytes : Nat)
    (positive : 0 < bytes) (covered : bytes ≤ heap.counters.live) :
    Relieved bytes 1 heap (heap.serve ⟨bytes, 0⟩).2 := by
  have kind := Request.kind?_release bytes positive
  have word := attended.word
  have counters := (heap.serve_standing ⟨bytes, 0⟩ attended.deep attended.watched).1
  simp only [count, kind, account, remember, Counters.account, Counters.tally, Word.clamp] at counters
  constructor
  · rw [counters]
    dsimp only
    omega
  · rw [counters]

end Heap

/-! ## Releases

Releases under hooks that stand by. A hook can break one off, and then it is gone. What
the meter falls by is what the object lost, in each attempt, and a second attempt gives
back the rest.
-/

section Releases

open Heap (Relieved Attended)

variable {heap : Heap}

namespace Store

variable {α : Type} [Element α]

structure Released (store : Store α) (heap : Heap) (effect : Effect (Store α) Unit) : Prop where
  relieved : Relieved store.block.bytes (occupied store.block.bytes) heap effect.heap
  attended : effect.heap.Attended
  bare : effect.object.block = #[]
  through : effect.answer = .ok () → effect.object = {}
  broken : ∀ fault, effect.answer = .error fault → fault.isFatal = false ∧ effect.heap.slot = none
  calm : heap.slot = none → effect.answer = .ok () ∧ effect.heap.slot = none

theorem free_released (sized : Block.Sized α) (store : Store α) (attended : heap.Attended)
    (small : store.block.bytes < 2 ^ 63) (covered : store.block.bytes ≤ heap.counters.live) :
    store.Released heap (store.free heap) := by
  have sizes := Block.bytes_sized sized store.block
  by_cases bare : store.capacity = 0
  · have empty : store.block.bytes = 0 := by rw [sizes, ← capacity, bare, Nat.zero_mul]
    rw [free_bare store heap bare]
    refine ⟨?_, attended, rfl, fun _ => rfl, fun _ broken => (by cases broken),
      fun vacant => ⟨rfl, vacant⟩⟩
    rw [empty]
    exact .refl heap
  · have positive : 0 < store.block.bytes := by
      rw [sizes]
      exact Nat.mul_pos (Nat.pos_of_ne_zero bare) sized.1
    have relieved := attended.relieved store.block.bytes positive covered
    have standing := heap.serve_standing ⟨store.block.bytes, 0⟩ attended.deep attended.watched
    have kept := attended.serve ⟨store.block.bytes, 0⟩
    have one : occupied store.block.bytes = 1 := if_neg positive.ne'
    have vacant : heap.slot = none → (heap.serve ⟨store.block.bytes, 0⟩).1 = .ok () ∧
        (heap.serve ⟨store.block.bytes, 0⟩).2.slot = none := by
      intro vacant
      rw [heap.serve_vacant _ vacant]
      exact ⟨rfl, (heap.slot_count _).trans vacant⟩
    dsimp only at standing
    rw [free_served sized store heap small bare]
    generalize heap.serve ⟨store.block.bytes, 0⟩ = outcome at *
    obtain ⟨answer, after⟩ := outcome
    cases answer with
    | ok done =>
        refine ⟨one.symm ▸ relieved, kept, rfl, fun _ => rfl, fun _ broken => (by cases broken),
          fun empty => ⟨rfl, (vacant empty).2⟩⟩
    | error fault =>
        refine ⟨one.symm ▸ relieved, kept, rfl, fun through => (by cases through), ?_, ?_⟩
        · intro other broken
          cases broken
          exact ⟨standing.2.1 fault rfl, standing.2.2 fault rfl⟩
        · intro empty
          cases (vacant empty).1

end Store

namespace Chunk

structure Small (chunk : Chunk) : Prop where
  code : chunk.code.block.bytes < 2 ^ 63
  constants : chunk.constants.values.block.bytes < 2 ^ 63

structure Attempted (chunk : Chunk) (heap : Heap) (effect : Effect Chunk Unit) : Prop where
  relieved : ∃ bytes blocks, Relieved bytes blocks heap effect.heap ∧
    bytes + effect.object.bytesHeld = chunk.bytesHeld ∧
    blocks + effect.object.blocksHeld = chunk.blocksHeld
  attended : effect.heap.Attended
  small : effect.object.Small
  through : effect.answer = .ok () → effect.object = {}
  broken : ∀ fault, effect.answer = .error fault → fault.isFatal = false ∧ effect.heap.slot = none
  /-- The code is released first, and the pool is not begun with where the code fails. -/
  order : ∀ fault, effect.answer = .error fault →
    ((chunk.code.free heap).answer = .error fault ∧ effect.object.constants = chunk.constants) ∨
      ((chunk.code.free heap).answer = .ok () ∧ effect.object.code = {})
  calm : heap.slot = none → effect.answer = .ok ()

theorem free_broken (chunk : Chunk) {fault : Fault}
    (broken : (chunk.code.free heap).answer = .error fault) :
    chunk.free heap =
      .fail fault ⟨(chunk.code.free heap).object, chunk.constants⟩ (chunk.code.free heap).heap := by
  simp only [free, Effect.andThen, Effect.within, broken]

theorem free_through (chunk : Chunk) (through : (chunk.code.free heap).answer = .ok ()) :
    chunk.free heap = (chunk.constants.free (chunk.code.free heap).heap).within
      (Chunk.mk (chunk.code.free heap).object) := by
  simp only [free, Effect.andThen, Effect.within, through]

theorem parts_released (chunk : Chunk) (attended : heap.Attended) (small : chunk.Small)
    (covered : chunk.bytesHeld ≤ heap.counters.live) :
    let code := chunk.code.free heap
    let constants := chunk.constants.values
    chunk.code.Released heap code ∧ constants.Released code.heap (constants.free code.heap) := by
  have enough : chunk.code.block.bytes ≤ heap.counters.live :=
    le_trans (Nat.le_add_right _ _) covered
  have first := Store.free_released sized_codeUnit chunk.code attended small.code enough
  have fallen := first.relieved.live_eq
  have rest : chunk.constants.values.block.bytes ≤ (chunk.code.free heap).heap.counters.live := by
    unfold bytesHeld at covered
    omega
  exact ⟨first, Store.free_released sized_value _ first.attended small.constants rest⟩

theorem free_attempted (chunk : Chunk) (attended : heap.Attended) (small : chunk.Small)
    (covered : chunk.bytesHeld ≤ heap.counters.live) : chunk.Attempted heap (chunk.free heap) := by
  obtain ⟨first, second⟩ := chunk.parts_released attended small covered
  have empty : occupied 0 = 0 := rfl
  have bytes : (chunk.code.free heap).object.block.bytes = 0 := first.bare ▸ Block.bytes_empty
  -- Whether the pool is begun with is up to the code, and to nothing else.
  cases answered : (chunk.code.free heap).answer with
  | error fault =>
      obtain ⟨contained, gone⟩ := first.broken fault answered
      rw [free_broken chunk answered]
      refine ⟨⟨_, _, first.relieved, ?_, ?_⟩, first.attended, ⟨?_, small.constants⟩,
        fun through => (by cases through), ?_, ?_, ?_⟩
      · simp only [bytesHeld, Effect.fail, bytes, Nat.zero_add]
      · simp only [blocksHeld, Effect.fail, bytes, empty, Nat.zero_add]
      · exact lt_of_eq_of_lt bytes (Nat.two_pow_pos 63)
      · rintro other same
        cases same
        exact ⟨contained, gone⟩
      · rintro other same
        cases same
        exact .inl ⟨answered, rfl⟩
      · intro vacant
        cases answered.symm.trans (first.calm vacant).1
  | ok done =>
      have bytesToo :
          (chunk.constants.values.free (chunk.code.free heap).heap).object.block.bytes = 0 :=
        second.bare ▸ Block.bytes_empty
      have new := first.through answered
      rw [free_through chunk answered]
      refine ⟨⟨_, _, first.relieved.trans second.relieved, ?_, ?_⟩, second.attended, ⟨?_, ?_⟩, ?_,
        second.broken, ?_, ?_⟩
      · simp only [bytesHeld, Effect.within, bytes, Pool.free, bytesToo, Nat.add_zero]
      · simp only [blocksHeld, Effect.within, bytes, Pool.free, bytesToo, empty, Nat.add_zero]
      · exact lt_of_eq_of_lt bytes (Nat.two_pow_pos 63)
      · exact lt_of_eq_of_lt bytesToo (Nat.two_pow_pos 63)
      · intro through
        have newToo := second.through through
        simp only [Effect.within, Pool.free, new, newToo]
      · intro fault broken
        exact .inr ⟨answered, new⟩
      · intro vacant
        exact (second.calm (first.calm vacant).2).1

namespace Attempted

variable {chunk : Chunk} {effect : Effect Chunk Unit}

theorem whole (attempted : chunk.Attempted heap effect) (through : effect.answer = .ok ()) :
    effect.object = {} ∧ Relieved chunk.bytesHeld chunk.blocksHeld heap effect.heap := by
  obtain ⟨bytes, blocks, relieved, allBytes, allBlocks⟩ := attempted.relieved
  have new := attempted.through through
  rw [new] at allBytes allBlocks
  exact ⟨new, allBytes ▸ allBlocks ▸ relieved⟩

/-- After an attempt, whatever came of it, one without a hook gives back what is left. -/
theorem again (attempted : chunk.Attempted heap effect) {between : Heap}
    (onward : effect.heap.Later between) (vacant : between.slot = none)
    (covered : effect.object.bytesHeld ≤ between.counters.live) :
    let retried := effect.object.free between
    retried.answer = .ok () ∧ retried.object = {} ∧
      Relieved effect.object.bytesHeld effect.object.blocksHeld between retried.heap := by
  have attended := attempted.attended.later onward (Heap.watched_vacant vacant)
  have retried := effect.object.free_attempted attended attempted.small covered
  have through := retried.calm vacant
  exact ⟨through, retried.whole through⟩

end Attempted

theorem free_new (heap : Heap) : ({} : Chunk).free heap = .done () {} heap := by
  have code : ({} : Chunk).code.free heap = .done () {} heap := Store.free_bare {} heap rfl
  have constants : ({} : Chunk).constants.free heap = .done () {} heap := by
    rw [Pool.free, Store.free_bare _ heap rfl]
    rfl
  rw [free_through {} (congrArg Effect.answer code), code, Effect.done, constants]
  rfl

/-- Giving a chunk up releases all of it, since a hook that breaks one release off is gone in the
other. -/
theorem discard_attempted (chunk : Chunk) (attended : heap.Attended) (small : chunk.Small)
    (covered : chunk.bytesHeld ≤ heap.counters.live) :
    (∀ fault, (chunk.discard heap).1 = .error fault → fault.isFatal = false) ∧
      Relieved chunk.bytesHeld chunk.blocksHeld heap (chunk.discard heap).2 := by
  obtain ⟨first, second⟩ := chunk.parts_released attended small covered
  refine ⟨?_, first.relieved.trans second.relieved⟩
  intro fault broken
  simp only [discard] at broken
  cases answered : (chunk.code.free heap).answer with
  | ok done =>
      rw [answered] at broken
      exact (second.broken fault broken).1
  | error earlier =>
      obtain ⟨contained, gone⟩ := first.broken earlier answered
      have through : (chunk.constants.free (chunk.code.free heap).heap).answer = .ok () :=
        (second.calm gone).1
      rw [answered, through] at broken
      cases broken
      exact contained

end Chunk

namespace Session

variable {κ : Type} [Kinds κ]

/-- Releasing a chunk under a hook that stands by, where the meter covers what the chunk holds, as
it does if it was never zeroed and never out of range. A release that succeeds leaves a new chunk
and takes all of it off the meter. After one that fails, a second one without a hook releases the
rest. Giving the chunk up releases all of it at once. -/
theorem run_releases (session : Session κ) (fresh : session.Fresh) (deep : 0 < session.heap.stack)
    (operations : List (Operation κ)) (survived : session.Survives operations) (place : Place)
    (chunk : Chunk) (there : (session.run operations).2.object? place = some (.chunk chunk))
    (watched : (session.run operations).2.heap.Watched Plan.Bystander)
    (covered : (session.run operations).2.heap.Exact ∨
      chunk.bytesHeld ≤ (session.run operations).2.heap.counters.live) :
    let heap := (session.run operations).2.heap
    let freed := chunk.free heap
    let dropped := chunk.discard heap
    (freed.answer = .ok () → freed.object = {} ∧
        Relieved chunk.bytesHeld chunk.blocksHeld heap freed.heap) ∧
      (∀ fault, freed.answer = .error fault → fault.isFatal = false ∧
        ((chunk.code.free heap).answer = .error fault ∧ freed.object.constants = chunk.constants ∨
          (chunk.code.free heap).answer = .ok () ∧ freed.object.code = {}) ∧
        freed.heap.slot = none ∧
        ∃ bytes blocks, Relieved bytes blocks heap freed.heap ∧
          bytes ≤ chunk.bytesHeld ∧ blocks ≤ chunk.blocksHeld ∧
          ∀ between, freed.heap.Later between → between.slot = none →
            chunk.bytesHeld - bytes ≤ between.counters.live →
            let again := freed.object.free between
            again.answer = .ok () ∧ again.object = {} ∧
              Relieved (chunk.bytesHeld - bytes) (chunk.blocksHeld - blocks) between again.heap) ∧
      (∀ fault, dropped.1 = .error fault → fault.isFatal = false) ∧
      Relieved chunk.bytesHeld chunk.blocksHeld heap dropped.2 ∧
      ∀ later, ({} : Chunk).free later = .done () {} later := by
  intro heap freed dropped
  have sound := run_sound operations (fresh_sound fresh) survived
  have found : (session.run operations).2.current? place = some (.chunk chunk) := by
    rw [current?, there]
    rfl
  have held := held_current sound place (.chunk chunk) found
  have small : chunk.Small := ⟨held.small.1, held.small.2⟩
  have later := session.run_later operations
  have attended : heap.Attended := by
    refine ⟨later.stack_eq ▸ deep, watched, later.word_kept ?_⟩
    rw [fresh.zero]
    exact Nat.two_pow_pos 64
  have reads : chunk.bytesHeld ≤ heap.counters.live := by
    rcases covered with exact | enough
    · have live : heap.counters.live = _ + chunk.bytesHeld + heap.refusedBytes :=
        held.balanced.live_eq exact
      omega
    · exact enough
  have attempted : chunk.Attempted heap freed := chunk.free_attempted attended small reads
  obtain ⟨bytes, blocks, relieved, allBytes, allBlocks⟩ := attempted.relieved
  have given := chunk.discard_attempted attended small reads
  refine ⟨attempted.whole, ?_, given.1, given.2, Chunk.free_new⟩
  intro fault broken
  obtain ⟨contained, gone⟩ := attempted.broken fault broken
  refine ⟨contained, attempted.order fault broken, gone, bytes, blocks, relieved, ?_, ?_, ?_⟩
  · exact allBytes ▸ Nat.le_add_right bytes _
  · exact allBlocks ▸ Nat.le_add_right blocks _
  · intro between onward vacant enough
    have rest : chunk.bytesHeld - bytes = freed.object.bytesHeld :=
      Nat.sub_eq_of_eq_add' allBytes.symm
    have restBlocks : chunk.blocksHeld - blocks = freed.object.blocksHeld :=
      Nat.sub_eq_of_eq_add' allBlocks.symm
    rw [rest] at enough
    rw [rest, restBlocks]
    exact attempted.again onward vacant enough

def obstructed : List Operation :=
  [.edit ⟨.chunk, "main"⟩ (.write [⟨1, 1⟩]), .edit ⟨.chunk, "main"⟩ (.add [⟨0⟩]),
    .installHook (.refuse 0)]

theorem run_releases_obstructed :
    ∃ chunk : Chunk, (({} : Session).run obstructed).2.object? ⟨.chunk, "main"⟩ = some (.chunk chunk) ∧
      let heap := (({} : Session).run obstructed).2.heap
      let freed := chunk.free heap
      let again := freed.object.free freed.heap
      freed.answer = .error (.refused 0) ∧ again.answer = .ok () ∧ again.object = {} ∧
        Relieved 128 2 heap again.heap := by
  have live : 128 ≤ (({} : Session).run obstructed).2.heap.counters.live := by decide +kernel
  obtain ⟨chunk, there, bytes, blocks, broken⟩ : ∃ chunk : Chunk,
      (({} : Session).run obstructed).2.object? ⟨.chunk, "main"⟩ = some (.chunk chunk) ∧
        chunk.bytesHeld = 128 ∧ chunk.blocksHeld = 2 ∧
        (chunk.free (({} : Session).run obstructed).2.heap).answer = .error (.refused 0) :=
    ⟨_, rfl, by decide +kernel, by decide +kernel, by decide +kernel⟩
  have released := run_releases ({} : Session) ⟨rfl, rfl, rfl⟩ (by decide) obstructed
    (by decide +kernel) ⟨.chunk, "main"⟩ chunk there
    (Heap.watched_some rfl (Plan.refuse_bystander 0)) (.inl (by decide +kernel))
  obtain ⟨-, -, gone, emptied, one, relieved, less, lessToo, retry⟩ := released.2.1 _ broken
  have fallen := relieved.live_eq
  obtain ⟨through, new, rest⟩ := retry _ (.refl _) gone (by omega)
  have whole := relieved.trans rest
  rw [Nat.add_sub_cancel' less, Nat.add_sub_cancel' lessToo, bytes, blocks] at whole
  exact ⟨chunk, there, broken, through, new, whole⟩

def eclipsed : List Operation × List Operation :=
  ([.edit ⟨.pool, "other"⟩ (.add [⟨0⟩]), .resetCounters],
    [.edit ⟨.chunk, "main"⟩ (.write [⟨1, 1⟩]), .edit ⟨.pool, "other"⟩ .free])

/-- A meter that was not zeroed since a chunk was counted can still read less than the chunk holds:
storage that was counted before a zeroing is released after it. -/
theorem release_eclipsed :
    let zeroed := (({} : Session).run eclipsed.1).2
    let last := (zeroed.run eclipsed.2).2
    zeroed.object? ⟨.chunk, "main"⟩ = none ∧ .resetCounters ∉ eclipsed.2 ∧
      ∃ chunk : Chunk, last.object? ⟨.chunk, "main"⟩ = some (.chunk chunk) ∧
        last.heap.slot = none ∧ chunk.bytesHeld = 64 ∧
        (chunk.free last.heap).answer = .ok () ∧
        (chunk.free last.heap).heap.counters.live = last.heap.counters.live ∧
        ¬Relieved chunk.bytesHeld chunk.blocksHeld last.heap (chunk.free last.heap).heap := by
  intro zeroed last
  refine ⟨rfl, ?_, _, rfl, rfl, by decide +kernel, by decide +kernel, by decide +kernel, ?_⟩
  · simp [eclipsed]
  · intro relieved
    have fallen := relieved.live_eq
    revert fallen
    decide +kernel

end Session

end Releases

end MeteredChunk
