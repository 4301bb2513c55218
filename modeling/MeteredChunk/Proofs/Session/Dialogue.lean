import MeteredChunk.Proofs.Chunk.Balance
import MeteredChunk.Session.Basic

/-!
Runs of a session, its operations as dialogues with the heap, and the hooks that a run
can meet.
-/

namespace MeteredChunk

/-! ## Runs

Runs of a session: operations one after the other, with the reply to each. A run
survives if none of its operations ended the program.
-/

def Reply.isFatal : Reply → Bool
  | .fault cause => cause.isFatal
  | _ => false

namespace Session

variable {κ : Type} [Kinds κ]

def run (session : Session κ) : List (Operation κ) → List Reply × Session κ
  | [] => ([], session)
  | operation :: rest =>
      let stepped := session.step operation
      let ran := stepped.2.run rest
      (stepped.1 :: ran.1, ran.2)

theorem run_append (session : Session κ) (early late : List (Operation κ)) :
    (session.run (early ++ late)).2 = ((session.run early).2.run late).2 := by
  induction early generalizing session with
  | nil => rfl
  | cons operation rest ih => exact ih (session.step operation).2

def Survives (session : Session κ) (operations : List (Operation κ)) : Prop :=
  ∀ reply ∈ (session.run operations).1, reply.isFatal = false

instance (session : Session κ) (operations : List (Operation κ)) :
    Decidable (session.Survives operations) :=
  inferInstanceAs (Decidable (∀ reply ∈ (session.run operations).1, reply.isFatal = false))

theorem survives_cons (session : Session κ) (operation : Operation κ) (rest : List (Operation κ)) :
    session.Survives (operation :: rest) ↔
      (session.step operation).1.isFatal = false ∧ (session.step operation).2.Survives rest := by
  simp [Survives, run]

end Session

/-! ## Dialogues

The operations of a session as dialogues with its heap. What an operation asks for
and what it makes of the answers is told by the objects of the session alone; the
hooks, in the slot and off it, are no part of that.
-/

section Dialogues
variable {κ : Type} [Kinds κ]

namespace Object

def editing : Object κ → Edit κ → Option (Dialogue (Object κ) Reply)
  | chunk it, .write units => some (((it.writing units).map fun _ => .done).within chunk)
  | chunk it, .add values => some (((it.addingConstants values).map .numbers).within chunk)
  | chunk it, .free => some ((it.freeing.map fun _ => .done).within chunk)
  | pool it, .add values => some (((it.addingAll values).map .numbers).within pool)
  | pool it, .free => some ((it.freeing.map fun _ => .done).within pool)
  | store kind it, .extend other values =>
      if same : other = kind then
        some (((it.extending (same ▸ values)).map fun _ => .done).within (store kind))
      else none
  | store kind it, .free => some ((it.freeing.map fun _ => .done).within (store kind))
  | block kind it, .reallocate old new =>
      some (((it.reallocating old new).map fun _ => .done).within (block kind))
  | block kind it, .grow old new =>
      some (((it.growing old new).map fun _ => .done).within (block kind))
  | block kind it, .release old =>
      some (((it.releasing old).map fun _ => .done).within (block kind))
  | block kind it, .overwrite other values =>
      if same : other = kind then
        some (.close (.ok .done) (block kind (it.overwrite (same ▸ values))))
      else none
  | _, _ => none

def discarding : Object κ → Dialogue Unit Unit
  | chunk it => it.discarding
  | pool it => it.freeing.within fun _ => ()
  | store _ it => it.freeing.within fun _ => ()
  | block _ _ => .close (.ok ()) ()

theorem hold_editing (object : Object κ) (edit : Edit κ) (heap : Heap) :
    (object.editing edit).map (·.hold heap) = object.edit edit heap := by
  cases object <;> cases edit <;>
    simp only [editing, Object.edit, Option.map_some, Option.map_none, Dialogue.hold_within,
      Dialogue.hold_map, Chunk.hold_writing, Chunk.hold_addingConstants, Chunk.hold_freeing,
      Pool.hold_addingAll, Pool.hold_freeing, Store.hold_freeing, Block.hold_reallocating,
      Block.hold_growing, Block.hold_releasing]
  case store.extend kind it other values =>
    split_ifs with same
    · simp only [Option.map_some, Dialogue.hold_within, Dialogue.hold_map, Store.hold_extending]
    · rfl
  case block.overwrite kind it other values =>
    split_ifs with same
    · rfl
    · rfl

theorem hold_discarding (object : Object κ) (heap : Heap) :
    object.discard heap =
      ((object.discarding.hold heap).answer, (object.discarding.hold heap).heap) := by
  cases object with
  | chunk it => exact Chunk.hold_discarding it heap
  | pool it => simp only [discarding, discard, Dialogue.hold_within, Pool.hold_freeing, Effect.within]
  | store kind it =>
      simp only [discarding, discard, Dialogue.hold_within, Store.hold_freeing, Effect.within]
  | block kind it => rfl

theorem editing_candid (object : Object κ) (edit : Edit κ) (dialogue : Dialogue (Object κ) Reply)
    (fits : object.editing edit = some dialogue) : dialogue.Candid := by
  have dressed {σ α : Type} {plain : Dialogue σ α} (f : α → Reply) (place : σ → Object κ)
      (candid : plain.Candid) : ((plain.map f).within place).Candid :=
    Dialogue.candid_within _ (Dialogue.candid_map _ candid)
  cases object <;> cases edit <;> simp only [editing, Option.some.injEq, reduceCtorEq] at fits
  case chunk.write it units => exact fits ▸ dressed _ _ (Chunk.writing_candid units it)
  case chunk.add it values => exact fits ▸ dressed _ _ (Chunk.addingConstants_candid values it)
  case chunk.free it => exact fits ▸ dressed _ _ (Chunk.freeing_candid it)
  case pool.add it values => exact fits ▸ dressed _ _ (Pool.addingAll_candid values it)
  case pool.free it => exact fits ▸ dressed _ _ (Pool.freeing_candid it)
  case store.free kind it => exact fits ▸ dressed _ _ (Store.freeing_candid it)
  case block.reallocate kind it old new =>
    exact fits ▸ dressed _ _ (Block.reallocating_candid it old new)
  case block.grow kind it old new => exact fits ▸ dressed _ _ (Block.growing_candid it old new)
  case block.release kind it old => exact fits ▸ dressed _ _ (Block.releasing_candid it old)
  case store.extend kind it other values =>
    split_ifs at fits with same
    exact Option.some.inj fits ▸ dressed _ _ (Store.extending_candid _ it)
  case block.overwrite kind it other values =>
    split_ifs at fits with same
    exact Option.some.inj fits ▸ Dialogue.candid_close _ _

theorem discarding_candid (object : Object κ) : object.discarding.Candid := by
  cases object with
  | chunk it => exact Chunk.discarding_candid it
  | pool it => exact Dialogue.candid_within _ (Pool.freeing_candid it)
  | store kind it => exact Dialogue.candid_within _ (Store.freeing_candid it)
  | block kind it => exact Dialogue.candid_close _ _

end Object

def Operation.isHook : Operation κ → Bool
  | .installHook _ | .takeHook | .restoreHook => true
  | _ => false

namespace Session

abbrev Objects (κ : Type) [Kinds κ] := List (Place × Object κ)

def giving {σ : Type} (old : Option (Object κ)) (reply : Reply) (left : σ) : Dialogue σ Reply :=
  match old with
  | none => .close (.ok reply) left
  | some object => object.discarding.follow fun answer _ => .close (answer.map fun _ => reply) left

def consult (session : Session κ) : Operation κ → Dialogue (Objects κ) Reply
  | .create name blueprint =>
      let place : Place := ⟨blueprint.family, name⟩
      match blueprint.build with
      | .error fault => .close (.error fault) session.objects
      | .ok object => giving (session.object? place) .done (session.put place object).objects
  | .visit place =>
      match session.current? place with
      | some object => .close (.ok .done) (session.put place object).objects
      | none => .close (.ok .missing) session.objects
  | .edit place edit =>
      match (session.current? place).bind (·.editing edit) with
      | some dialogue => dialogue.within fun object => (session.put place object).objects
      | none => .close (.ok .missing) session.objects
  | .discard place =>
      let old := session.object? place
      giving old (.found old.isSome) (session.remove place).objects
  | _ => .close (.ok .done) session.objects

def replied : Except Fault Reply → Reply
  | .ok reply => reply
  | .error fault => .fault fault

theorem consult_objects {one other : Session κ} (same : one.objects = other.objects)
    (operation : Operation κ) : one.consult operation = other.consult operation := by
  cases operation <;>
    simp only [consult, object?, current?, put, remove, same]

theorem giveUp_giving (session : Session κ) (old : Option (Object κ)) (reply : Reply) :
    let effect := (giving old reply session.objects).hold session.heap
    session.giveUp old reply =
      (replied effect.answer, ⟨effect.heap, effect.object, session.shelf⟩) := by
  cases old with
  | none => rfl
  | some object =>
      have left := object.hold_discarding session.heap
      simp only [giveUp, giving, Dialogue.hold_follow]
      rw [left]
      cases (object.discarding.hold session.heap).answer with
      | ok done => rfl
      | error fault => rfl

/-- An operation on the objects is its dialogue. -/
theorem step_consult (session : Session κ) (operation : Operation κ)
    (plain : operation.isHook = false) (kept : operation ≠ .resetCounters) :
    let effect := (session.consult operation).hold session.heap
    session.step operation =
      (replied effect.answer, ⟨effect.heap, effect.object, session.shelf⟩) := by
  cases operation with
  | create name blueprint =>
      simp only [step, create, consult]
      cases blueprint.build with
      | error fault => rfl
      | ok object => exact giveUp_giving (session.put _ object) _ _
  | visit place =>
      simp only [step, visit, consult]
      cases session.current? place with
      | some object => rfl
      | none => rfl
  | edit place edit =>
      have held : (session.current? place).bind (·.edit edit session.heap) =
          ((session.current? place).bind (·.editing edit)).map (·.hold session.heap) := by
        rw [Option.map_bind]
        congr 1
        funext object
        exact (object.hold_editing edit session.heap).symm
      simp only [step, Session.edit, consult]
      rw [held]
      cases (session.current? place).bind (·.editing edit) with
      | none => rfl
      | some dialogue =>
          simp only [Option.map_some, Dialogue.hold_within]
          cases answered : (dialogue.hold session.heap).answer with
          | ok reply => simp only [Effect.within, answered, replied, put, remove]
          | error fault => simp only [Effect.within, answered, replied, put, remove]
  | discard place => exact giveUp_giving (session.remove place) _ _
  | installHook plan => cases plain
  | takeHook => cases plain
  | restoreHook => cases plain
  | resetCounters => exact absurd rfl kept

theorem step_survived (session : Session κ) (operation : Operation κ)
    (plain : operation.isHook = false) (kept : operation ≠ .resetCounters)
    (survived : (session.step operation).1.isFatal = false) :
    ((session.consult operation).hold session.heap).Survived := by
  intro fault broken
  rw [session.step_consult operation plain kept, broken] at survived
  exact survived

theorem giving_candid {σ : Type} (old : Option (Object κ)) (reply : Reply) (left : σ) :
    (giving old reply left).Candid := by
  cases old with
  | none => exact Dialogue.candid_close _ _
  | some object =>
      exact Dialogue.candid_follow object.discarding_candid (fun _ _ => Dialogue.candid_close _ _)
        fun fault _ _ fatal => ⟨fault, rfl, fatal⟩

theorem consult_candid (session : Session κ) (operation : Operation κ) :
    (session.consult operation).Candid := by
  cases operation with
  | create name blueprint =>
      simp only [consult]
      split
      · exact Dialogue.candid_close _ _
      · exact giving_candid _ _ _
  | visit place =>
      simp only [consult]
      split
      · exact Dialogue.candid_close _ _
      · exact Dialogue.candid_close _ _
  | edit place edit =>
      simp only [consult]
      split
      · rename_i dialogue found
        obtain ⟨object, -, fits⟩ := Option.bind_eq_some_iff.mp found
        exact Dialogue.candid_within _ (object.editing_candid edit dialogue fits)
      · exact Dialogue.candid_close _ _
  | discard place => exact giving_candid _ _ _
  | installHook plan => exact Dialogue.candid_close _ _
  | takeHook => exact Dialogue.candid_close _ _
  | restoreHook => exact Dialogue.candid_close _ _
  | resetCounters => exact Dialogue.candid_close _ _

end Session

end Dialogues

end MeteredChunk

namespace MeteredChunk.Session

/-! ## Hooks

The hooks that a run can meet: the one in the slot, those that were taken out of it,
and those that are still to come. Operations about hooks touch nothing else.
-/

variable {κ : Type} [Kinds κ]

structure Kept (good : Plan → Prop) (session : Session κ) : Prop where
  watched : session.heap.Watched good
  shelved : ∀ hook ∈ session.shelf, good hook.plan

/-- Every hook that the run can meet, be it in the slot, on the shelf or still to come, has a good
plan. -/
structure Hooked (good : Plan → Prop) (session : Session κ) (operations : List (Operation κ)) :
    Prop where
  kept : session.Kept good
  coming : ∀ plan, .installHook plan ∈ operations → good plan

theorem kept_new (good : Plan → Prop) : ({} : Session κ).Kept good :=
  ⟨Heap.watched_vacant rfl, fun _ member => by cases member⟩

/-- What holds of the heap and of the hooks on the shelf holds after an operation, if moving hooks,
setting the meter back and serving requests keep it up. -/
theorem step_keeps (good : Heap → List Hook → Prop) (operation : Operation κ)
    (enlists : ∀ heap shelf plan, operation = .installHook plan → good heap shelf →
      good (heap.enlist plan) shelf)
    (takes : ∀ heap shelf hook, heap.slot = some hook → good heap shelf →
      good heap.vacate (hook :: shelf))
    (restores : ∀ heap shelf hook, good heap (hook :: shelf) → good (heap.install hook) shelf)
    (resets : ∀ heap shelf, good heap shelf → good heap.resetCounters shelf)
    (holds : ∀ heap shelf (dialogue : Dialogue (Objects κ) Reply), good heap shelf →
      good (dialogue.hold heap).heap shelf)
    (session : Session κ) (before : good session.heap session.shelf) :
    good (session.step operation).2.heap (session.step operation).2.shelf := by
  by_cases hook : operation.isHook = true
  · cases operation with
    | installHook plan => exact enlists _ _ plan rfl before
    | takeHook =>
        simp only [step]
        split
        · rename_i hook there
          exact takes _ _ hook there before
        · exact before
    | restoreHook =>
        simp only [step]
        split
        · exact before
        · rename_i hook shelf there
          rw [there] at before
          exact restores _ _ hook before
    | _ => cases hook
  · by_cases reset : operation = .resetCounters
    · subst reset
      exact resets _ _ before
    · rw [step_consult session operation (Bool.eq_false_iff.mpr hook) reset]
      exact holds _ _ _ before

/-- What lasts through all that is done to a heap lasts through every run. -/
theorem step_lasting {holds : Heap → Prop} (lasting : Heap.Lasting holds) (session : Session κ)
    (operation : Operation κ) (before : holds session.heap) :
    holds (session.step operation).2.heap := by
  apply step_keeps (fun heap _ => holds heap) operation
  · exact fun heap _ plan _ => lasting.enlists plan
  · exact fun heap _ _ _ => lasting.vacates
  · exact fun heap _ hook => lasting.installs hook
  · exact fun heap _ => lasting.resets
  · exact fun heap _ dialogue => dialogue.hold_keeps lasting.serve heap
  · exact before

theorem run_lasting {holds : Heap → Prop} (lasting : Heap.Lasting holds) (session : Session κ)
    (operations : List (Operation κ)) (before : holds session.heap) :
    holds (session.run operations).2.heap := by
  induction operations generalizing session with
  | nil => exact before
  | cons operation rest ih => exact ih _ (step_lasting lasting session operation before)

theorem step_later (session : Session κ) (operation : Operation κ) :
    session.heap.Later (session.step operation).2.heap :=
  step_lasting (Heap.later_lasting session.heap) session operation (.refl _)

theorem run_later (session : Session κ) (operations : List (Operation κ)) :
    session.heap.Later (session.run operations).2.heap :=
  run_lasting (Heap.later_lasting session.heap) session operations (.refl _)

theorem step_hook (session : Session κ) (operation : Operation κ)
    (hook : operation.isHook = true) :
    (session.step operation).2.objects = session.objects ∧
      (session.step operation).2.heap.counters = session.heap.counters := by
  cases operation with
  | installHook plan => exact ⟨rfl, rfl⟩
  | takeHook =>
      simp only [step]
      split
      · exact ⟨rfl, rfl⟩
      · exact ⟨rfl, rfl⟩
  | restoreHook =>
      simp only [step]
      split
      · exact ⟨rfl, rfl⟩
      · exact ⟨rfl, rfl⟩
  | _ => cases hook

/-- Hooks that go by a rule are only followed by such, whatever the operation. -/
theorem step_kept {rule : Notice → List (Act Plan) → Prop} {session : Session κ}
    (kept : session.Kept (Plan.Obeys rule)) (operation : Operation κ)
    (obeys : ∀ plan, operation = .installHook plan → plan.Obeys rule) :
    (session.step operation).2.Kept (Plan.Obeys rule) := by
  have after := step_keeps (fun heap shelf => Kept (Plan.Obeys rule) ⟨heap, session.objects, shelf⟩)
    operation
    (fun heap shelf plan same before => ⟨Heap.watched_some rfl (obeys plan same), before.shelved⟩)
    (fun heap shelf hook there before => ⟨Heap.watched_vacant rfl,
      List.forall_mem_cons.mpr ⟨before.watched hook there, before.shelved⟩⟩)
    (fun heap shelf hook before =>
      have both := List.forall_mem_cons.mp before.shelved
      ⟨Heap.watched_some rfl both.1, both.2⟩)
    (fun heap shelf before => ⟨before.watched, before.shelved⟩)
    (fun heap shelf dialogue before =>
      ⟨(dialogue.hold_watched heap before.watched).1, before.shelved⟩)
    session kept
  exact ⟨after.watched, after.shelved⟩

theorem hooked_coming {good : Plan → Prop} {session : Session κ} {operations : List (Operation κ)}
    (hooked : session.Hooked good operations) :
    ∀ operation ∈ operations, ∀ plan, operation = .installHook plan → good plan :=
  fun _ member plan same => hooked.coming plan (same ▸ member)

end MeteredChunk.Session
