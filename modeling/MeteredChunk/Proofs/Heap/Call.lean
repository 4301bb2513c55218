import MeteredChunk.Heap.Basic

/-!
What hooks do in a call, as one induction. A relation of a heap to what comes of it
holds of a whole call if every act of the call keeps it up, whichever way the call
ends. Another induction is on how calls are nested. Both together say that a property
lasts through a request if it lasts through each thing that can be done to a heap.
-/

namespace MeteredChunk

namespace Act

def holding (held : List Nat) : Act Plan → List Nat
  | .resize number size => size :: held.eraseIdx number
  | _ => held

def Each (good : List Nat → Act Plan → Prop) : List Nat → List (Act Plan) → Prop
  | _, [] => True
  | held, act :: rest => good held act ∧ Each good (act.holding held) rest

theorem each_forall {good : Act Plan → Prop} {acts : List (Act Plan)}
    (all : ∀ act ∈ acts, good act) (held : List Nat) : Each (fun _ => good) held acts := by
  induction acts generalizing held with
  | nil => trivial
  | cons act rest ih =>
      obtain ⟨first, others⟩ := List.forall_mem_cons.mp all
      exact ⟨first, ih others _⟩

theorem each_and {good : List Nat → Act Plan → Prop} {also : Act Plan → Prop}
    {acts : List (Act Plan)} {held : List Nat} (each : Each good held acts)
    (all : ∀ act ∈ acts, also act) :
    Each (fun held act => good held act ∧ also act) held acts := by
  induction acts generalizing held with
  | nil => trivial
  | cons act rest ih =>
      obtain ⟨first, others⟩ := List.forall_mem_cons.mp all
      exact ⟨⟨each.1, first⟩, ih each.2 others⟩

end Act

namespace Heap

/-- A relation of a heap to an outcome that each act of a call by the hook keeps, as long as the
acts are good ones. Scratch blocks of the sizes that are lent can be given back. -/
structure Carries (tell : Telling) (hook : Hook) (good : List Nat → Act Plan → Prop)
    (lent : Nat → Prop) (related : Heap → Outcome → Prop) : Prop where
  stays : ∀ heap answer, related heap (answer, heap)
  follows : ∀ {heap between outcome}, related heap (.ok (), between) → related between outcome →
    related heap outcome
  unwinds : ∀ {heap between fault held}, related heap (.error fault, between) →
    related between (unwind tell fault held between) →
      related heap (unwind tell fault held between)
  overtaken : ∀ {heap after} {fault later : Fault}, related heap (.error later, after) →
    related heap (.error (fault.followedBy later), after)
  exhausts : ∀ {heap after} {size : Nat}, related heap (.ok (), after) →
    related heap (.error (shortage size 1 1), after)
  writes : ∀ heap held entry, good held (.write entry) →
    related heap (.ok (), heap.write hook entry)
  enlists : ∀ heap held next, good held (.enlist next) →
    related heap (.ok (), (heap.enlist next).write hook (.replaced heap.slot.isSome))
  vacates : ∀ heap held, good held .vacate → related heap (.ok (), heap.vacate)
  resets : ∀ heap held, good held .reset → related heap (.ok (), heap.resetCounters)
  asks : ∀ heap held number size, (∀ size ∈ held, lent size) → good held (.resize number size) →
    lent size ∧ related heap (heap.request tell ⟨held.getD number 0, size⟩)
  returns : ∀ heap size, lent size → related heap (heap.request tell ⟨size, 0⟩)

namespace Carries

variable {tell : Telling} {hook : Hook} {good : List Nat → Act Plan → Prop} {lent : Nat → Prop}
  {related : Heap → Outcome → Prop} (carries : Carries tell hook good lent related)
include carries

theorem resize (heap : Heap) (old new : Nat)
    (asked : related heap (heap.request tell ⟨old, new⟩)) :
    related heap (heap.resize tell old new) := by
  simp only [Heap.resize, Outcome.andThen]
  split
  · rename_i after same
    rw [same] at asked
    split
    · exact carries.exhausts asked
    · exact asked
  · rename_i fault after same
    rw [same] at asked
    exact asked

theorem unwind (fault : Fault) (held : List Nat) (lends : ∀ size ∈ held, lent size)
    (heap : Heap) : related heap (unwind tell fault held heap) := by
  induction held generalizing heap with
  | nil => exact carries.stays heap _
  | cons size rest ih =>
      obtain ⟨first, others⟩ := List.forall_mem_cons.mp lends
      have resized := carries.resize heap size 0 (carries.returns heap size first)
      unfold Heap.unwind
      split
      · exact carries.stays heap _
      · split
        · rename_i after same
          rw [same] at resized
          exact carries.follows resized (ih others after)
        · rename_i later after same
          rw [same] at resized
          exact carries.overtaken resized

theorem giveBack (held : List Nat) (lends : ∀ size ∈ held, lent size) (heap : Heap) :
    related heap (giveBack tell held heap) := by
  induction held generalizing heap with
  | nil => exact carries.stays heap _
  | cons size rest ih =>
      obtain ⟨first, others⟩ := List.forall_mem_cons.mp lends
      have resized := carries.resize heap size 0 (carries.returns heap size first)
      unfold Heap.giveBack
      split
      · rename_i after same
        rw [same] at resized
        exact carries.follows resized (ih others after)
      · rename_i fault after same
        rw [same] at resized
        exact carries.unwinds resized (carries.unwind fault rest others after)

/-- By induction on the acts that are still to come, for any blocks held by then. -/
theorem perform (acts : List (Act Plan)) (held : List Nat) (each : Act.Each good held acts)
    (lends : ∀ size ∈ held, lent size) (heap : Heap) :
    related heap (perform tell hook held acts heap) := by
  induction acts generalizing heap held with
  | nil => exact carries.giveBack held lends heap
  | cons act rest ih =>
      obtain ⟨fits, others⟩ := each
      cases act with
      | write entry =>
          exact carries.follows (carries.writes heap held entry fits) (ih held others lends _)
      | enlist next =>
          exact carries.follows (carries.enlists heap held next fits) (ih held others lends _)
      | vacate => exact carries.follows (carries.vacates heap held fits) (ih held others lends _)
      | reset => exact carries.follows (carries.resets heap held fits) (ih held others lends _)
      | fail fault => exact carries.unwind fault held lends heap
      | resize number size =>
          obtain ⟨first, asked⟩ := carries.asks heap held number size lends fits
          have resized := carries.resize heap (held.getD number 0) size asked
          have remaining : ∀ size ∈ held.eraseIdx number, lent size :=
            fun size member => lends size (List.mem_of_mem_eraseIdx member)
          unfold Heap.perform
          dsimp only
          split
          · rename_i after same
            rw [same] at resized
            exact carries.follows resized
              (ih _ others (List.forall_mem_cons.mpr ⟨first, remaining⟩) after)
          · rename_i fault after same
            rw [same] at resized
            exact carries.unwinds resized (carries.unwind fault _ remaining after)

end Carries

structure Settles (related : Heap → Notice → Outcome → Prop) : Prop where
  vacant : ∀ {heap} notice, heap.slot = none → related heap notice (.ok (), heap)
  overflows : ∀ {heap hook} notice, heap.slot = some hook →
    related heap notice (.error .stackOverflow, heap)
  returns : ∀ {tell heap notice hook after}, (∀ heap notice, related heap notice (tell heap notice)) →
    heap.slot = some hook →
    perform tell hook [] (hook.plan.acts hook.calls notice) heap.vacate = (.ok (), after) →
      related heap notice (.ok (), after.putBack { hook with calls := hook.calls + 1 })
  breaks : ∀ {tell heap notice hook fault after},
    (∀ heap notice, related heap notice (tell heap notice)) → heap.slot = some hook →
    perform tell hook [] (hook.plan.acts hook.calls notice) heap.vacate = (.error fault, after) →
      related heap notice (.error fault, after.remember (.refused notice))

theorem Settles.notify {related : Heap → Notice → Outcome → Prop} (settles : Settles related)
    (room : Nat) (heap : Heap) (notice : Notice) :
    related heap notice (notify room heap notice) := by
  induction room generalizing heap notice with
  | zero =>
      unfold Heap.notify
      cases slot : heap.slot with
      | none => exact settles.vacant notice slot
      | some hook => exact settles.overflows notice slot
  | succ room ih =>
      unfold Heap.notify
      cases slot : heap.slot with
      | none => exact settles.vacant notice slot
      | some hook =>
          dsimp only
          split
          · rename_i after ended
            exact settles.returns ih slot ended
          · rename_i fault after ended
            exact settles.breaks ih slot ended

/-- A property that is kept by everything that is done to a heap: counting a request, each act of a
hook, and the end of its call. -/
structure Lasting (holds : Heap → Prop) : Prop where
  accounts : ∀ {heap : Heap} {request : Request} {kind : RequestKind}, request.kind? = some kind →
    holds heap → holds (heap.account kind request)
  writes : ∀ {heap : Heap} hook entry, holds heap → holds (heap.write hook entry)
  refuses : ∀ {heap : Heap} notice, holds heap → holds (heap.remember (.refused notice))
  installs : ∀ {heap : Heap} hook, holds heap → holds (heap.install hook)
  enlists : ∀ {heap : Heap} plan, holds heap → holds (heap.enlist plan)
  vacates : ∀ {heap : Heap}, holds heap → holds heap.vacate
  resets : ∀ {heap : Heap}, holds heap → holds heap.resetCounters

namespace Lasting

variable {holds : Heap → Prop} (lasting : Lasting holds)
include lasting

theorem putBack {heap : Heap} (hook : Hook) (before : holds heap) : holds (heap.putBack hook) := by
  unfold Heap.putBack
  split
  · exact lasting.installs hook before
  · exact before

section Calls
variable {tell : Telling}
  (keeps : ∀ (heap : Heap) (notice : Notice), holds heap → holds (tell heap notice).2)
include keeps

theorem request (heap : Heap) (request : Request) (before : holds heap) :
    holds (heap.request tell request).2 := by
  unfold Heap.request
  cases asked : request.kind? with
  | none => exact before
  | some kind => exact keeps _ _ (lasting.accounts asked before)

theorem carries (hook : Hook) :
    Carries tell hook (fun _ _ => True) (fun _ => True)
      fun heap outcome => holds heap → holds outcome.2 where
  stays _ _ := id
  follows first second := second ∘ first
  unwinds first second := second ∘ first
  overtaken := id
  exhausts := id
  writes _ _ entry _ := lasting.writes hook entry
  enlists _ _ next _ before := lasting.writes hook _ (lasting.enlists next before)
  vacates _ _ _ := lasting.vacates
  resets _ _ _ := lasting.resets
  asks heap _ _ _ _ _ := ⟨trivial, lasting.request keeps heap _⟩
  returns heap _ _ := lasting.request keeps heap _

theorem perform (hook : Hook) (acts : List (Act Plan)) (held : List Nat) (heap : Heap)
    (before : holds heap) : holds (perform tell hook held acts heap).2 :=
  (lasting.carries keeps hook).perform acts held (Act.each_forall (fun _ _ => trivial) held)
    (fun _ _ => trivial) heap before

end Calls

theorem settles : Settles fun heap _ outcome => holds heap → holds outcome.2 where
  vacant _ _ := id
  overflows _ _ := id
  returns {tell heap notice hook after} keeps _ ended before := by
    have called := lasting.perform keeps hook (hook.plan.acts hook.calls notice) [] heap.vacate
      (lasting.vacates before)
    rw [ended] at called
    exact lasting.putBack _ called
  breaks {tell heap notice hook fault after} keeps _ ended before := by
    have called := lasting.perform keeps hook (hook.plan.acts hook.calls notice) [] heap.vacate
      (lasting.vacates before)
    rw [ended] at called
    exact lasting.refuses notice called

theorem serve (heap : Heap) (request : Request) : holds heap → holds (heap.serve request).2 :=
  lasting.request (fun heap notice => lasting.settles.notify heap.stack heap notice) heap request

end Lasting

end Heap

end MeteredChunk
