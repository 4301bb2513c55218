import MeteredChunk.Proofs.Heap.Call
import MeteredChunk.Proofs.Heap.Balance

/-!
What hooks go by, and how one heap comes to be another.
-/

namespace MeteredChunk

/-! ## Plans

Plans that go by a rule, in each of their calls and in all plans that they put in
their place. A heap whose hook goes by a rule is only left to hooks that do as well.

Since the change of live bytes is worked out with signed words, its definition is
better left closed: the lemmas here say what a call does by it.
-/

namespace Plan

/-- The rule holds of the acts of every call, for the plan and for all plans that it puts in. -/
inductive Obeys (rule : Notice → List (Act Plan) → Prop) : Plan → Prop
  | intro {plan : Plan} (calls : ∀ call notice, rule notice (plan.acts call notice))
      (successors : ∀ call notice next, .enlist next ∈ plan.acts call notice → Obeys rule next) :
      Obeys rule plan

theorem Obeys.enlisted {rule : Notice → List (Act Plan) → Prop} {plan : Plan}
    (obeys : plan.Obeys rule) (call : Nat) (notice : Notice) :
    ∀ act ∈ plan.acts call notice, ∀ next, act = .enlist next → next.Obeys rule := by
  obtain ⟨-, successors⟩ := obeys
  exact fun act member next same => successors call notice next (same ▸ member)

theorem acts_mk (calls : Nat → Notice → List (Act Plan)) : (Plan.mk calls).acts = calls := rfl

theorem acts_weighing (acts : Nat → Notice → Int → List (Act Plan)) (call : Nat)
    (notice : Notice) :
    (weighing acts).acts call notice =
      notice.request.delta?.elim [.fail .differenceOverflow] (acts call notice) := by
  rw [weighing, acts_mk]
  generalize notice.request.delta? = weighed
  cases weighed with
  | none => rfl
  | some delta => rfl

theorem acts_noting (acts : Nat → List (Act Plan)) (call : Nat) (notice : Notice) :
    (notice.request.delta? = none ∧
        (noting acts).acts call notice = [.fail .differenceOverflow]) ∨
      ∃ delta, notice.request.delta? = some delta ∧
        (noting acts).acts call notice = .write (.seen notice delta) :: acts call := by
  rw [noting, acts_weighing]
  generalize notice.request.delta? = weighed
  cases weighed with
  | none => exact .inl ⟨rfl, rfl⟩
  | some delta => exact .inr ⟨delta, rfl, rfl⟩

variable {rule : Notice → List (Act Plan) → Prop}

theorem noting_obeys {acts : Nat → List (Act Plan)}
    (fails : ∀ notice, notice.request.delta? = none → rule notice [.fail .differenceOverflow])
    (calls : ∀ call notice delta, notice.request.delta? = some delta →
      rule notice (.write (.seen notice delta) :: acts call))
    (successors : ∀ call next, .enlist next ∈ acts call → next.Obeys rule) :
    (noting acts).Obeys rule := by
  constructor
  · intro call notice
    rcases acts_noting acts call notice with ⟨weighed, same⟩ | ⟨delta, weighed, same⟩
    · exact same ▸ fails notice weighed
    · exact same ▸ calls call notice delta weighed
  · intro call notice next member
    rcases acts_noting acts call notice with ⟨-, same⟩ | ⟨delta, -, same⟩
    · rw [same] at member
      cases List.mem_singleton.mp member
    · rw [same] at member
      rcases List.mem_cons.mp member with first | later
      · cases first
      · exact successors call next later

end Plan

namespace Heap

section Watching
variable {good : Plan → Prop} {heap : Heap}

def Watched (good : Plan → Prop) (heap : Heap) : Prop :=
  ∀ hook, heap.slot = some hook → good hook.plan

theorem watched_vacant (vacant : heap.slot = none) : heap.Watched good :=
  fun hook there => by cases vacant.symm.trans there

theorem watched_some {hook : Hook} (there : heap.slot = some hook) (fits : good hook.plan) :
    heap.Watched good :=
  fun _ same => Option.some.inj (there.symm.trans same) ▸ fits

theorem watched_putBack {hook : Hook} (watched : heap.Watched good) (fits : good hook.plan) :
    (heap.putBack hook).Watched good := by
  unfold putBack
  split
  · exact watched_some rfl fits
  · exact watched

end Watching

section Calls
variable {rule : Notice → List (Act Plan) → Prop} {tell : Telling}
  (keeps : ∀ (heap : Heap) (notice : Notice), heap.Watched (Plan.Obeys rule) →
    (tell heap notice).2.Watched (Plan.Obeys rule))
include keeps

theorem request_watched (heap : Heap) (request : Request) (watched : heap.Watched (Plan.Obeys rule)) :
    (heap.request tell request).2.Watched (Plan.Obeys rule) := by
  unfold Heap.request
  cases request.kind? with
  | none => exact watched
  | some kind => exact keeps _ _ watched

theorem watched_carries (hook : Hook) :
    Carries tell hook (fun _ act => ∀ next, act = .enlist next → next.Obeys rule) (fun _ => True)
      fun heap outcome => heap.Watched (Plan.Obeys rule) → outcome.2.Watched (Plan.Obeys rule) where
  stays _ _ := id
  follows first second := second ∘ first
  unwinds first second := second ∘ first
  overtaken := id
  exhausts := id
  writes _ _ _ _ := id
  enlists _ _ next fits _ := watched_some rfl (fits next rfl)
  vacates _ _ _ _ := watched_vacant rfl
  resets _ _ _ := id
  asks heap _ _ _ _ _ := ⟨trivial, request_watched keeps heap _⟩
  returns heap _ _ := request_watched keeps heap _

theorem called_watched (heap : Heap) (notice : Notice) {hook : Hook} (obeys : hook.plan.Obeys rule) :
    (perform tell hook [] (hook.plan.acts hook.calls notice) heap.vacate).2.Watched
      (Plan.Obeys rule) :=
  (watched_carries keeps hook).perform _ [] (Act.each_forall (obeys.enlisted _ _) [])
    (fun _ _ => trivial) heap.vacate (watched_vacant rfl)

end Calls

variable {rule : Notice → List (Act Plan) → Prop}

theorem watched_settles : Settles fun heap _ outcome =>
    heap.Watched (Plan.Obeys rule) → outcome.2.Watched (Plan.Obeys rule) where
  vacant _ _ := id
  overflows _ _ := id
  returns {tell heap notice hook after} keeps there ended watched := by
    have called := called_watched keeps heap notice (watched hook there)
    rw [ended] at called
    exact watched_putBack called (watched hook there)
  breaks {tell heap notice hook fault after} keeps there ended watched := by
    have called := called_watched keeps heap notice (watched hook there)
    rw [ended] at called
    exact called

theorem serve_watched (heap : Heap) (request : Request) (watched : heap.Watched (Plan.Obeys rule)) :
    (heap.serve request).2.Watched (Plan.Obeys rule) :=
  request_watched (watched_settles.notify heap.stack) heap request watched

end Heap

end MeteredChunk

namespace MeteredChunk.Heap

/-! ## Passages

How a heap comes to be another one. Whatever hooks do in a call, history is only
added to, hooks are only numbered on, the limits of the heap stay, and the live bytes
stay a word. A request that breaks off without ending the program is in the history as
refused.
-/

structure Later (before after : Heap) : Prop where
  ceiling_eq : after.ceiling = before.ceiling
  stack_eq : after.stack = before.stack
  hooks_le : before.hooks ≤ after.hooks
  history_kept : before.history.toList <+: after.history.toList
  word_kept : before.counters.live < Word.limit → after.counters.live < Word.limit

namespace Later

theorem refl (heap : Heap) : heap.Later heap := ⟨rfl, rfl, le_rfl, List.prefix_rfl, id⟩

theorem trans {first second third : Heap} (one : first.Later second) (two : second.Later third) :
    first.Later third :=
  ⟨two.ceiling_eq.trans one.ceiling_eq, two.stack_eq.trans one.stack_eq,
    one.hooks_le.trans two.hooks_le, one.history_kept.trans two.history_kept,
    two.word_kept ∘ one.word_kept⟩

theorem remember (heap : Heap) (happening : Happening) : heap.Later (heap.remember happening) := by
  refine ⟨rfl, rfl, le_rfl, ?_, id⟩
  rw [history_remember]
  exact List.prefix_append _ _

theorem vacate (heap : Heap) : heap.Later heap.vacate := ⟨rfl, rfl, le_rfl, List.prefix_rfl, id⟩

theorem install (heap : Heap) (hook : Hook) : heap.Later (heap.install hook) :=
  ⟨rfl, rfl, le_rfl, List.prefix_rfl, id⟩

theorem enlist (heap : Heap) (plan : Plan) : heap.Later (heap.enlist plan) :=
  ⟨rfl, rfl, Nat.le_succ _, List.prefix_rfl, id⟩

theorem putBack (heap : Heap) (hook : Hook) : heap.Later (heap.putBack hook) := by
  unfold Heap.putBack
  split
  · exact install heap hook
  · exact refl heap

theorem counters (heap : Heap) (counters : Counters) (word : counters.live < Word.limit) :
    heap.Later { heap with counters } :=
  ⟨rfl, rfl, le_rfl, List.prefix_rfl, fun _ => word⟩

theorem resetCounters (heap : Heap) : heap.Later heap.resetCounters :=
  (counters heap {} (Nat.two_pow_pos 64)).trans (remember _ _)

theorem account (heap : Heap) (kind : RequestKind) (request : Request) :
    heap.Later (heap.account kind request) := by
  have word : (heap.counters.account kind request).live < Word.limit := by
    rw [Counters.live_account, Word.clamp, Word.limit]
    omega
  exact (counters heap _ word).trans (remember _ _)

theorem refusals_kept {before after : Heap} (later : before.Later after) :
    before.refusals <+: after.refusals :=
  later.history_kept.filterMap _

end Later

theorem later_lasting (start : Heap) : Lasting start.Later where
  accounts {_ request kind} _ before := before.trans (.account _ kind request)
  writes _ _ before := before.trans (.remember _ _)
  refuses _ before := before.trans (.remember _ _)
  installs hook before := before.trans (.install _ hook)
  enlists plan before := before.trans (.enlist _ plan)
  vacates before := before.trans (.vacate _)
  resets before := before.trans (.resetCounters _)

theorem serve_later (heap : Heap) (request : Request) : heap.Later (heap.serve request).2 :=
  (later_lasting heap).serve heap request (.refl heap)

theorem called_later {tell : Telling}
    (onward : ∀ (heap : Heap) (notice : Notice), heap.Later (tell heap notice).2) (heap : Heap)
    (notice : Notice) (hook : Hook) :
    heap.Later (perform tell hook [] (hook.plan.acts hook.calls notice) heap.vacate).2 :=
  (later_lasting heap).perform (fun between notice before => before.trans (onward between notice))
    hook _ [] heap.vacate (.vacate heap)

structure Passes (heap : Heap) (outcome : Outcome) : Prop where
  later : heap.Later outcome.2
  refused : ∀ fault, outcome.1 = .error fault → fault.isFatal = false →
    heap.refusals.length < outcome.2.refusals.length

theorem passes_settles : Settles fun heap _ outcome => heap.Passes outcome where
  vacant _ _ := ⟨.refl _, fun _ broken => by cases broken⟩
  overflows _ _ := by
    refine ⟨.refl _, fun fault broken contained => ?_⟩
    cases broken
    cases contained
  returns {tell heap notice hook after} passes _ ended := by
    have called := called_later (fun heap notice => (passes heap notice).later) heap notice hook
    rw [ended] at called
    exact ⟨called.trans (Later.putBack after _), fun _ broken => by cases broken⟩
  breaks {tell heap notice hook fault after} passes _ ended := by
    have called := called_later (fun heap notice => (passes heap notice).later) heap notice hook
    rw [ended] at called
    refine ⟨called.trans (Later.remember after _), fun _ _ _ => ?_⟩
    simp only [refusals_remember, Happening.refusal?, Option.toList_some, List.length_append,
      List.length_singleton]
    exact Nat.lt_succ_of_le called.refusals_kept.length_le

theorem serve_refused (heap : Heap) (request : Request) (fault : Fault)
    (broken : (heap.serve request).1 = .error fault) (contained : fault.isFatal = false) :
    heap.refusals.length < (heap.serve request).2.refusals.length := by
  unfold serve Heap.request at broken ⊢
  cases asked : request.kind? with
  | none =>
      simp only [asked] at broken
      cases broken
  | some kind =>
      simp only [asked] at broken ⊢
      have refused := (passes_settles.notify heap.stack _ _).refused fault broken contained
      rw [refusals_account] at refused
      exact refused

structure Fails (heap : Heap) (request : Request) (fault : Fault) (after : Heap) : Prop where
  served : heap.serve request = (.error fault, after)
  contained : fault.isFatal = false
  hooked : heap.slot.isSome = true
  noted : ∃ (notice : Notice) (earlier : Heap), notice.request = request ∧
    after = earlier.remember (.refused notice)

theorem fails_settles : Settles fun heap notice outcome =>
    ∀ fault, outcome.1 = .error fault → fault.isFatal = false →
      heap.slot.isSome = true ∧ ∃ earlier : Heap, outcome.2 = earlier.remember (.refused notice) where
  vacant _ _ _ broken := by cases broken
  overflows _ _ fault broken contained := by
    cases broken
    cases contained
  returns _ _ _ _ broken := by cases broken
  breaks _ there _ _ _ _ := ⟨Option.isSome_of_eq_some there, _, rfl⟩

/-- Nothing but a hook makes a request fail without ending the program. -/
theorem serve_fails {heap after : Heap} {request : Request} {fault : Fault}
    (served : heap.serve request = (.error fault, after)) (contained : fault.isFatal = false) :
    heap.Fails request fault after := by
  have told := served
  unfold serve Heap.request at told
  cases asked : request.kind? with
  | none =>
      rw [asked] at told
      cases told
  | some kind =>
      simp only [asked] at told
      obtain ⟨hooked, earlier, same⟩ := fails_settles.notify heap.stack (heap.account kind request)
        ⟨kind, request, _⟩ fault (congrArg Prod.fst told) contained
      have ended : after = earlier.remember (.refused _) := (congrArg Prod.snd told).symm.trans same
      exact ⟨served, contained, hooked, _, earlier, rfl, ended⟩

end MeteredChunk.Heap
