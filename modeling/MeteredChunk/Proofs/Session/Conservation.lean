import MeteredChunk.Proofs.Session.Balance
import MeteredChunk.Proofs.Session.Dialogue
import Mathlib.Data.List.Nodup

/-!
Over every run the meter of the heap reads what the objects own and what was gone
on the way: the sizes that refused requests asked for, and the blocks that went
without the heap being told. A meter that is set back on the way reads less, never more.
-/

namespace MeteredChunk.Session

variable {κ : Type} [Kinds κ]

def weigh (weight : Object κ → Nat) (session : Session κ) : Nat :=
  (session.objects.map fun entry => weight entry.2).sum

def bytesHeld (session : Session κ) : Nat := session.weigh Object.bytesHeld

def blocksHeld (session : Session κ) : Nat := session.weigh Object.blocksHeld

def looseAt (session : Session κ) (place : Place) : Nat :=
  ((session.object? place).map Object.loose).getD 0

/-- The size of the block that goes in an operation without the heap being told, zero if none does.
-/
def stray (session : Session κ) : Operation κ → Nat
  | .create name blueprint =>
      match blueprint.build with
      | .ok _ => session.looseAt ⟨blueprint.family, name⟩
      | .error _ => 0
  | .edit place edit => ((session.current? place).map (Object.forfeit edit)).getD 0
  | .discard place => session.looseAt place
  | _ => 0

def strays (session : Session κ) : List (Operation κ) → List Nat
  | [] => []
  | operation :: rest => session.stray operation :: (session.step operation).2.strays rest

structure Sound (ceiling gone goneBlocks : Nat) (session : Session κ) : Prop where
  balanced : session.heap.Balanced ceiling (gone + session.bytesHeld)
    (goneBlocks + session.blocksHeld)
  distinct : (session.objects.map Prod.fst).Nodup
  small : ∀ entry ∈ session.objects, entry.2.Small

variable {ceiling gone goneBlocks : Nat} {session : Session κ}

theorem weigh_put (weight : Object κ → Nat) (session : Session κ) (place : Place) (object : Object κ) :
    (session.put place object).weigh weight = weight object + (session.remove place).weigh weight := by
  simp [weigh, put]

theorem weigh_remove (weight : Object κ → Nat) (place : Place) (objects : List (Place × Object κ))
    (distinct : (objects.map Prod.fst).Nodup) (heap : Heap) (shelf : List Hook) :
    weigh weight ⟨heap, objects, shelf⟩ = weigh weight (remove ⟨heap, objects, shelf⟩ place) +
      ((object? ⟨heap, objects, shelf⟩ place).map weight).getD 0 := by
  induction objects with
  | nil => rfl
  | cons entry rest ih =>
      obtain ⟨fresh, tail⟩ := List.nodup_cons.mp distinct
      have recursive := ih tail
      simp only [weigh, remove, object?] at recursive ⊢
      -- The object is this one, and no other has its place, or it is among the rest.
      by_cases here : entry.1 = place
      · have absent : rest.filter (fun entry => entry.1 ≠ place) = rest := by
          apply List.filter_eq_self.mpr
          intro other member
          have apart : other.1 ≠ place := fun same =>
            fresh (here ▸ same ▸ List.mem_map_of_mem member)
          simpa using apart
        simp only [ne_eq, decide_not] at absent
        simp [here, absent, Nat.add_comm]
      · simp [here, recursive, Nat.add_assoc]

theorem current_cases (place : Place) (object : Object κ)
    (found : session.current? place = some object) :
    session.object? place = some object ∨
      session.object? place = none ∧ Object.ofFamily? place.family = some object := by
  unfold current? at found
  cases there : session.object? place <;> simp_all

theorem weigh_current (weight : Object κ → Nat)
    (vanishes : ∀ family object, Object.ofFamily? family = some object → weight object = 0)
    (distinct : (session.objects.map Prod.fst).Nodup) (place : Place) (object : Object κ)
    (found : session.current? place = some object) :
    session.weigh weight = (session.remove place).weigh weight + weight object := by
  have whole := weigh_remove weight place session.objects distinct session.heap session.shelf
  rcases current_cases place object found with there | ⟨there, empty⟩
  · simpa [there] using whole
  · rw [vanishes _ _ empty]
    simpa [there] using whole

theorem small_object (small : ∀ entry ∈ session.objects, entry.2.Small) (place : Place)
    (object : Object κ) (found : session.object? place = some object) : object.Small := by
  obtain ⟨entry, first, rfl⟩ := Option.map_eq_some_iff.mp found
  exact small entry (List.mem_of_find?_eq_some first)

/-- What the place holds, next to all that the heap reads besides. -/
theorem held_current (sound : session.Sound ceiling gone goneBlocks) (place : Place)
    (object : Object κ) (found : session.current? place = some object) :
    object.Held ceiling (gone + (session.remove place).bytesHeld)
      (goneBlocks + (session.remove place).blocksHeld) session.heap := by
  have bytes := weigh_current Object.bytesHeld
    (fun family object empty => (Object.ofFamily?_held family object empty).1)
    sound.distinct place object found
  have blocks := weigh_current Object.blocksHeld
    (fun family object empty => (Object.ofFamily?_held family object empty).2.1)
    sound.distinct place object found
  constructor
  · have balanced := sound.balanced
    unfold bytesHeld blocksHeld at balanced ⊢
    rw [bytes, blocks, ← Nat.add_assoc, ← Nat.add_assoc] at balanced
    exact balanced
  · rcases current_cases place object found with there | ⟨-, empty⟩
    · exact small_object sound.small place object there
    · exact (Object.ofFamily?_held _ object empty).2.2

theorem distinct_remove (distinct : (session.objects.map Prod.fst).Nodup) (place : Place) :
    ((session.remove place).objects.map Prod.fst).Nodup :=
  List.Nodup.sublist (List.Sublist.map Prod.fst List.filter_sublist) distinct

theorem distinct_put (distinct : (session.objects.map Prod.fst).Nodup) (place : Place)
    (object : Object κ) : ((session.put place object).objects.map Prod.fst).Nodup := by
  refine List.nodup_cons.mpr ⟨?_, distinct_remove distinct place⟩
  simp [remove]

theorem small_remove (small : ∀ entry ∈ session.objects, entry.2.Small) (place : Place) :
    ∀ entry ∈ (session.remove place).objects, entry.2.Small :=
  fun entry member => small entry (List.mem_of_mem_filter member)

theorem small_put (small : ∀ entry ∈ session.objects, entry.2.Small) (place : Place)
    (object : Object κ) (fits : object.Small) :
    ∀ entry ∈ (session.put place object).objects, entry.2.Small := by
  intro entry member
  rcases List.mem_cons.mp member with same | rest
  · exact same ▸ fits
  · exact small_remove small place entry rest

theorem sound_put (sound : session.Sound ceiling gone goneBlocks) (place : Place) (object : Object κ)
    (heap : Heap) {gone' goneBlocks' : Nat}
    (held : object.Held ceiling (gone' + (session.remove place).bytesHeld)
      (goneBlocks' + (session.remove place).blocksHeld) heap) :
    Sound ceiling gone' goneBlocks' { session.put place object with heap := heap } := by
  refine ⟨?_, distinct_put sound.distinct place object,
    small_put sound.small place object held.small⟩
  have balanced := held.balanced
  have bytes := weigh_put Object.bytesHeld session place object
  have blocks := weigh_put Object.blocksHeld session place object
  rw [Nat.add_assoc, Nat.add_assoc, Nat.add_comm (bytesHeld _), Nat.add_comm (blocksHeld _)]
    at balanced
  unfold bytesHeld blocksHeld at balanced ⊢
  rw [← bytes, ← blocks] at balanced
  exact balanced

theorem giveUp_some (session : Session κ) (object : Object κ) (reply : Reply) :
    session.giveUp (some object) reply =
      (match (object.discard session.heap).1 with
        | .ok () => reply
        | .error fault => .fault fault,
        { session with heap := (object.discard session.heap).2 }) := by
  simp only [giveUp]
  generalize object.discard session.heap = outcome
  obtain ⟨answer, heap⟩ := outcome
  cases answer <;> rfl

/-- An object that is in no place any more is off the meter, but for a block on its own. -/
theorem giveUp_sound (old : Option (Object κ)) (reply : Reply)
    (distinct : (session.objects.map Prod.fst).Nodup)
    (small : ∀ entry ∈ session.objects, entry.2.Small)
    (smallOld : ∀ object, old = some object → object.Small)
    (balanced : session.heap.Balanced ceiling
      (gone + session.bytesHeld + (old.map Object.bytesHeld).getD 0)
      (goneBlocks + session.blocksHeld + (old.map Object.blocksHeld).getD 0))
    (survived : (session.giveUp old reply).1.isFatal = false) :
    Sound ceiling (gone + (old.map Object.loose).getD 0)
      (goneBlocks + occupied ((old.map Object.loose).getD 0)) (session.giveUp old reply).2 := by
  cases old with
  | none => exact ⟨balanced, distinct, small⟩
  | some object =>
      rw [giveUp_some] at survived ⊢
      have contained (fault : Fault) (broken : (object.discard session.heap).1 = .error fault) :
          fault.isFatal = false := by
        rw [broken] at survived
        exact survived
      have off := Object.discard_balanced object ⟨balanced, smallOld object rfl⟩ contained
      rw [Nat.add_right_comm, Nat.add_right_comm goneBlocks] at off
      exact ⟨off, distinct, small⟩

theorem weigh_object (weight : Object κ → Nat) (distinct : (session.objects.map Prod.fst).Nodup)
    (place : Place) :
    session.weigh weight =
      (session.remove place).weigh weight + ((session.object? place).map weight).getD 0 :=
  weigh_remove weight place session.objects distinct session.heap session.shelf

theorem discard_sound (sound : session.Sound ceiling gone goneBlocks)
    (place : Place) (survived : (session.discard place).1.isFatal = false) :
    Sound ceiling (gone + session.looseAt place) (goneBlocks + occupied (session.looseAt place))
      (session.discard place).2 := by
  have balanced := sound.balanced
  unfold bytesHeld blocksHeld at balanced
  rw [weigh_object _ sound.distinct place, weigh_object _ sound.distinct place,
    ← Nat.add_assoc, ← Nat.add_assoc] at balanced
  exact giveUp_sound (session.object? place) _ (distinct_remove sound.distinct place)
    (small_remove sound.small place) (small_object sound.small place) balanced survived

theorem create_sound (sound : session.Sound ceiling gone goneBlocks)
    (name : String) (blueprint : Blueprint κ)
    (survived : (session.create name blueprint).1.isFatal = false) :
    Sound ceiling (gone + session.stray (.create name blueprint))
      (goneBlocks + occupied (session.stray (.create name blueprint)))
      (session.create name blueprint).2 := by
  cases built : blueprint.build with
  | error fault =>
      simp only [create, stray, built]
      exact sound
  | ok object =>
      simp only [create, stray, built] at survived ⊢
      obtain ⟨bytes, blocks, fits⟩ := blueprint.build_held object built
      have balanced := sound.balanced
      have put (weight : Object κ → Nat) (empty : weight object = 0) :
          session.weigh weight =
            (session.put ⟨blueprint.family, name⟩ object).weigh weight +
              ((session.object? ⟨blueprint.family, name⟩).map weight).getD 0 := by
        rw [weigh_put, empty, Nat.zero_add]
        exact weigh_object weight sound.distinct _
      unfold bytesHeld blocksHeld at balanced
      rw [put _ bytes, put _ blocks, ← Nat.add_assoc, ← Nat.add_assoc] at balanced
      exact giveUp_sound _ _ (distinct_put sound.distinct _ object)
        (small_put sound.small _ object fits) (small_object sound.small _) balanced survived

theorem visit_sound (sound : session.Sound ceiling gone goneBlocks) (place : Place) :
    Sound ceiling gone goneBlocks (session.visit place).2 := by
  unfold visit
  split
  · rename_i object found
    exact sound_put sound place object session.heap (held_current sound place object found)
  · exact sound

theorem edit_sound (sound : session.Sound ceiling gone goneBlocks)
    (place : Place) (edit : Edit κ) (survived : (session.edit place edit).1.isFatal = false) :
    Sound ceiling (gone + session.stray (.edit place edit))
      (goneBlocks + occupied (session.stray (.edit place edit))) (session.edit place edit).2 := by
  cases found : session.current? place with
  | none =>
      simp only [Session.edit, stray, found]
      exact sound
  | some object =>
      cases fits : object.edit edit session.heap with
      | none =>
          simp only [Session.edit, stray, found, Option.bind_some, fits, Option.map_some,
            Option.getD_some, Object.forfeit_none object edit session.heap fits]
          exact sound
      | some effect =>
          simp only [Session.edit, stray, found, Option.bind_some, fits, Option.map_some,
            Option.getD_some] at survived ⊢
          have contained : effect.Survived := by
            intro fault broken
            rw [broken] at survived
            exact survived
          have left := Object.edit_leaves object edit effect fits
            (held_current sound place object found) contained
          apply sound_put sound
          rw [Nat.add_right_comm, Nat.add_right_comm goneBlocks]
          exact left

theorem step_sound (sound : session.Sound ceiling gone goneBlocks)
    (operation : Operation κ) (survived : (session.step operation).1.isFatal = false) :
    Sound ceiling (gone + session.stray operation)
      (goneBlocks + occupied (session.stray operation)) (session.step operation).2 := by
  cases operation with
  | create name blueprint => exact create_sound sound name blueprint survived
  | visit place => exact visit_sound sound place
  | edit place edit => exact edit_sound sound place edit survived
  | discard place => exact discard_sound sound place survived
  | installHook plan =>
      exact ⟨Heap.enlist_balanced plan sound.balanced, sound.distinct, sound.small⟩
  | takeHook =>
      simp only [step]
      split
      · exact ⟨Heap.vacate_balanced sound.balanced, sound.distinct, sound.small⟩
      · exact sound
  | restoreHook =>
      simp only [step]
      split
      · exact sound
      · exact ⟨Heap.install_balanced _ sound.balanced, sound.distinct, sound.small⟩
  | resetCounters =>
      exact ⟨Heap.resetCounters_balanced sound.balanced, sound.distinct, sound.small⟩

theorem run_sound (operations : List (Operation κ))
    (sound : session.Sound ceiling gone goneBlocks) (survived : session.Survives operations) :
    Sound ceiling (gone + (session.strays operations).sum)
      (goneBlocks + ((session.strays operations).map occupied).sum)
      (session.run operations).2 := by
  -- On the operations, each from what those before it left and lost.
  induction operations generalizing session gone goneBlocks with
  | nil => exact sound
  | cons operation rest ih =>
      obtain ⟨first, later⟩ := (survives_cons session operation rest).mp survived
      have stepped := ih (step_sound sound operation first) later
      simpa only [strays, run, List.sum_cons, List.map_cons, Nat.add_assoc] using stepped

structure Fresh (session : Session κ) : Prop where
  zero : session.heap.counters = {}
  silent : session.heap.history = #[]
  bare : session.objects = []

theorem fresh_sound (fresh : session.Fresh) : session.Sound session.heap.ceiling 0 0 := by
  obtain ⟨zero, silent, bare⟩ := fresh
  have unrefused : session.heap.refusals = [] := by simp [Heap.refusals, silent]
  refine ⟨⟨rfl, ?_, fun _ => ?_, fun _ => ?_, fun _ => ?_⟩, ?_, ?_⟩
  · rw [zero]
    exact Nat.zero_le _
  · simp [zero, Heap.total, silent]
  · simp [zero, bytesHeld, weigh, bare, Heap.refusedBytes, unrefused]
  · simp [zero, blocksHeld, weigh, bare, Heap.refusedBlocks, unrefused]
  · simp [bare]
  · simp [bare]

/-- The bytes on the meter that no object owns: those of refused requests, and those of blocks that
went without a release. -/
def lostBytes (session : Session κ) (operations : List (Operation κ)) : Nat :=
  (session.run operations).2.heap.refusedBytes + (session.strays operations).sum

def lostBlocks (session : Session κ) (operations : List (Operation κ)) : Nat :=
  (session.run operations).2.heap.refusedBlocks + ((session.strays operations).map occupied).sum

theorem lost_none (operations : List (Operation κ))
    (granted : (session.run operations).2.heap.refusals = [])
    (told : ∀ bytes ∈ session.strays operations, bytes = 0) :
    session.lostBytes operations = 0 ∧ session.lostBlocks operations = 0 := by
  have untold : (session.strays operations).sum = 0 :=
    List.sum_eq_zero_iff_forall_eq_nat.mpr told
  have unblocked : ((session.strays operations).map occupied).sum = 0 := by
    apply List.sum_eq_zero_iff_forall_eq_nat.mpr
    intro blocks member
    obtain ⟨bytes, stray, rfl⟩ := List.mem_map.mp member
    rw [told bytes stray]
    rfl
  simp [lostBytes, lostBlocks, Heap.refusedBytes, Heap.refusedBlocks, granted, untold, unblocked]

/-- After every run from a session without objects and with a zero meter, whatever hooks do, the live
bytes are those that objects own and those that were lost to refused requests and to blocks dropped
without a release, and the live blocks likewise. The meter must not be zeroed or leave its range. -/
theorem run_conserves (session : Session κ) (fresh : session.Fresh) (operations : List (Operation κ))
    (survived : session.Survives operations) (exact : (session.run operations).2.heap.Exact) :
    let last := (session.run operations).2
    last.heap.counters.live = last.bytesHeld + session.lostBytes operations ∧
      last.heap.counters.liveBlocks = last.blocksHeld + session.lostBlocks operations ∧
      (last.heap.refusals = [] → (∀ bytes ∈ session.strays operations, bytes = 0) →
        last.heap.counters.live = last.bytesHeld ∧
          last.heap.counters.liveBlocks = last.blocksHeld) := by
  have balanced := (run_sound operations (fresh_sound fresh) survived).balanced
  have readBytes := balanced.live_eq exact
  have readBlocks := balanced.blocks_eq exact
  intro last
  have live : last.heap.counters.live = last.bytesHeld + session.lostBytes operations := by
    simp only [lostBytes, last]
    omega
  have blocks : last.heap.counters.liveBlocks =
      last.blocksHeld + session.lostBlocks operations := by
    simp only [lostBlocks, Counters.liveBlocks, last]
    omega
  refine ⟨live, blocks, fun granted told => ?_⟩
  obtain ⟨noBytes, noBlocks⟩ := lost_none operations granted told
  omega

def mishaps : List Operation :=
  [.create "main" .chunk, .installHook (.reenter 32), .edit ⟨.chunk, "main"⟩ (.write [⟨0, 1⟩]),
    .installHook (.refuse 0), .create "raw" (.block .u16),
    .edit ⟨.block, "raw"⟩ (.reallocate 0 16), .edit ⟨.block, "raw"⟩ (.reallocate 0 6),
    .edit ⟨.block, "raw"⟩ (.reallocate 7 8)]

theorem run_conserves_mishaps :
    let last := (({} : Session).run mishaps).2
    ({} : Session).lostBytes mishaps = 22 ∧ ({} : Session).lostBlocks mishaps = 2 ∧
      last.heap.counters.live = last.bytesHeld + 22 ∧
      last.heap.counters.liveBlocks = last.blocksHeld + 2 := by
  have lostBytes : ({} : Session).lostBytes mishaps = 22 := by decide +kernel
  have lostBlocks : ({} : Session).lostBlocks mishaps = 2 := by decide +kernel
  have conserved := run_conserves ({} : Session) ⟨rfl, rfl, rfl⟩ mishaps
    (by decide +kernel) (by decide +kernel)
  rw [lostBytes, lostBlocks] at conserved
  exact ⟨lostBytes, lostBlocks, conserved.1, conserved.2.1⟩

/-- However often the meter is zeroed, between operations or by hooks, the live bytes are at most
what objects own and what was lost since the run began. So they are zero once all storage is
released and nothing was lost. -/
theorem run_covers (session : Session κ) (fresh : session.Fresh) (operations : List (Operation κ))
    (survived : session.Survives operations) :
    let last := (session.run operations).2
    last.heap.counters.live ≤ last.bytesHeld + session.lostBytes operations ∧
      (last.bytesHeld = 0 → last.heap.refusals = [] →
        (∀ bytes ∈ session.strays operations, bytes = 0) → last.heap.counters.live = 0) := by
  have balanced := (run_sound operations (fresh_sound fresh) survived).balanced
  have read := balanced.live_le
  intro last
  have covered : last.heap.counters.live ≤ last.bytesHeld + session.lostBytes operations := by
    simp only [lostBytes, last]
    omega
  refine ⟨covered, fun released granted told => ?_⟩
  obtain ⟨noBytes, -⟩ := lost_none operations granted told
  omega

def setbacks : List Operation :=
  [.edit ⟨.chunk, "main"⟩ (.write [⟨0, 1⟩]), .installHook .reset,
    .edit ⟨.pool, "main"⟩ (.add [⟨0⟩]), .installHook (.refuse 0),
    .edit ⟨.chunk, "main"⟩ (.write (List.replicate 8 ⟨0, 1⟩))]

def closures : List Operation :=
  [.edit ⟨.chunk, "main"⟩ (.write [⟨0, 1⟩]), .resetCounters, .edit ⟨.pool, "main"⟩ (.add [⟨0⟩]),
    .edit ⟨.chunk, "main"⟩ .free, .edit ⟨.pool, "main"⟩ .free]

theorem run_covers_setbacks :
    let last := (({} : Session).run setbacks).2
    last.bytesHeld = 64 ∧ ({} : Session).lostBytes setbacks = 128 ∧
      last.heap.counters.live ≤ 64 + 128 ∧
      (({} : Session).run closures).2.heap.counters.live = 0 := by
  intro last
  have held : last.bytesHeld = 64 := by decide +kernel
  have lost : ({} : Session).lostBytes setbacks = 128 := by decide +kernel
  have covered := (run_covers ({} : Session) ⟨rfl, rfl, rfl⟩ setbacks (by decide +kernel)).1
  have closed := (run_covers ({} : Session) ⟨rfl, rfl, rfl⟩ closures (by decide +kernel)).2
    (by decide +kernel) (by decide +kernel) (by decide +kernel)
  rw [lost] at covered
  exact ⟨held, lost, held ▸ covered, closed⟩

end MeteredChunk.Session
