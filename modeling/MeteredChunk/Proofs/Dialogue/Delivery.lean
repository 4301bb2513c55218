import MeteredChunk.Proofs.Heap.Delivery
import MeteredChunk.Proofs.Dialogue.Basic

/-!
Requests told to hooks that log every call, over whole dialogues.
-/

namespace MeteredChunk

/-! ## Hooks that give way

Hooks that give way. A call that puts another hook in and asks for nothing leaves that
hook in the slot, since nobody is told of anything until the call is over.
-/

namespace Act

def Staying : Act Plan → Prop
  | .enlist _ => False
  | _ => True

def Ceding : Act Plan → Prop
  | .resize _ _ => False
  | .vacate => False
  | _ => True

end Act

namespace Plan

/-- A call that puts another hook in makes no request. -/
def Ceding : Plan → Prop :=
  Obeys fun _ acts => (∀ act ∈ acts, act.Staying) ∨ ∀ act ∈ acts, act.Ceding

theorem noting_ceding {acts : Nat → List (Act Plan)}
    (calls : ∀ call, (∀ act ∈ acts call, act.Staying) ∨ ∀ act ∈ acts call, act.Ceding)
    (successors : ∀ call next, .enlist next ∈ acts call → next.Ceding) :
    (noting acts).Ceding := by
  refine noting_obeys (fun _ _ => .inl ?_) (fun call _ _ _ => ?_) successors
  · exact List.forall_mem_singleton.mpr trivial
  · exact (calls call).imp (fun all => List.forall_mem_cons.mpr ⟨trivial, all⟩)
      fun all => List.forall_mem_cons.mpr ⟨trivial, all⟩

theorem record_ceding : record.Ceding :=
  noting_ceding (fun _ => .inl fun _ member => by cases member) fun _ _ member => by cases member

theorem swap_ceding (turn : Nat) {next : Plan} (ceding : next.Ceding) :
    (swap turn next).Ceding := by
  apply noting_ceding
  · intro call
    split
    · exact .inr (List.forall_mem_singleton.mpr trivial)
    · exact .inl fun _ member => by cases member
  · intro call successor member
    obtain ⟨-, rfl⟩ : call = turn ∧ successor = next := by simpa using member
    exact ceding

end Plan

namespace Heap

structure Inherits (before after : Heap) : Prop where
  hooks_le : before.hooks ≤ after.hooks
  watcher_eq : after.watcher = heir before.watcher before.hooks after.hooks

namespace Inherits

theorem refl (heap : Heap) : heap.Inherits heap := ⟨le_rfl, (heir_self _ _).symm⟩

theorem trans {before between after : Heap} (early : before.Inherits between)
    (late : between.Inherits after) : before.Inherits after := by
  refine ⟨early.hooks_le.trans late.hooks_le, ?_⟩
  rw [late.watcher_eq, early.watcher_eq, heir_heir _ early.hooks_le late.hooks_le]

end Inherits

variable {tell : Telling}

theorem ceding_carries (tell : Telling) (hook : Hook) :
    Carries tell hook (fun _ => Act.Ceding) (fun _ => False)
      fun heap outcome => heap.Inherits outcome.2 where
  stays heap _ := .refl heap
  follows := .trans
  unwinds := .trans
  overtaken := id
  exhausts := id
  writes _ _ _ _ := ⟨le_rfl, (heir_self _ _).symm⟩
  enlists heap _ _ _ := ⟨Nat.le_succ _, (heir_newer (Nat.lt_succ_self heap.hooks)).symm⟩
  vacates _ _ fits := fits.elim
  resets _ _ _ := ⟨le_rfl, (heir_self _ _).symm⟩
  asks _ _ _ _ _ fits := fits.elim
  returns _ _ lent := lent.elim

def Unfilled (before after : Heap) : Prop :=
  before.slot = none → after.slot = none ∧ after.hooks = before.hooks

theorem Unfilled.trans {before between after : Heap} (early : before.Unfilled between)
    (late : between.Unfilled after) : before.Unfilled after := by
  intro vacant
  obtain ⟨vacantToo, same⟩ := early vacant
  obtain ⟨last, sameToo⟩ := late vacantToo
  exact ⟨last, sameToo.trans same⟩

section Calls
variable (unfilled : ∀ (heap : Heap) (notice : Notice), heap.Unfilled (tell heap notice).2)
include unfilled

theorem request_unfilled (heap : Heap) (request : Request) :
    heap.Unfilled (heap.request tell request).2 := by
  unfold Heap.request
  cases request.kind? with
  | none => exact fun vacant => ⟨vacant, rfl⟩
  | some kind => exact unfilled (heap.account kind request) _

/-- Nobody is told of the requests of a call that puts no hook in. -/
theorem staying_carries (hook : Hook) :
    Carries tell hook (fun _ => Act.Staying) (fun _ => True)
      fun heap outcome => heap.Unfilled outcome.2 where
  stays _ _ vacant := ⟨vacant, rfl⟩
  follows := .trans
  unwinds := .trans
  overtaken := id
  exhausts := id
  writes _ _ _ _ vacant := ⟨vacant, rfl⟩
  enlists _ _ _ fits := fits.elim
  vacates _ _ _ _ := ⟨rfl, rfl⟩
  resets _ _ _ vacant := ⟨vacant, rfl⟩
  asks heap _ _ _ _ _ := ⟨trivial, request_unfilled unfilled heap _⟩
  returns heap _ _ := request_unfilled unfilled heap _

end Calls

/-- What a call leaves in the vacant slot is the newest hook, if it made any. -/
theorem called_inherits (unfilled : ∀ (heap : Heap) (notice : Notice), heap.Unfilled (tell heap notice).2)
    (heap : Heap) (notice : Notice) {hook : Hook} (ceding : hook.plan.Ceding) :
    heap.vacate.Inherits
      (perform tell hook [] (hook.plan.acts hook.calls notice) heap.vacate).2 := by
  obtain ⟨calls, -⟩ := ceding
  rcases calls hook.calls notice with staying | ceding
  · obtain ⟨vacant, same⟩ := (staying_carries unfilled hook).perform _ []
      (Act.each_forall staying []) (fun _ _ => trivial) heap.vacate rfl
    refine ⟨same.ge, ?_⟩
    rw [same, heir_self, watcher, vacant]
    rfl
  · exact (ceding_carries tell hook).perform _ [] (Act.each_forall ceding [])
      (fun _ member => by cases member) heap.vacate

structure Ceded (heap : Heap) (outcome : Outcome) : Prop where
  unfilled : heap.Unfilled outcome.2
  newest : heap.Watched Plan.Ceding → heap.hooks < outcome.2.hooks →
    outcome.2.watcher = some (outcome.2.hooks - 1)

theorem ceded_settles : Settles fun heap _ outcome => heap.Ceded outcome where
  vacant _ slot := ⟨fun vacant => ⟨vacant, rfl⟩, fun _ more => absurd more (lt_irrefl _)⟩
  overflows _ _ := ⟨fun vacant => ⟨vacant, rfl⟩, fun _ more => absurd more (lt_irrefl _)⟩
  returns {tell heap notice hook after} ceded there ended := by
    refine ⟨fun vacant => (by cases vacant.symm.trans there), fun watched more => ?_⟩
    have inherits := called_inherits (fun heap notice => (ceded heap notice).unfilled) heap notice
      (watched hook there)
    rw [ended] at inherits
    obtain ⟨-, hooks, left⟩ := after.history_putBack { hook with calls := hook.calls + 1 }
    rw [hooks] at more
    have newest : after.watcher = some (after.hooks - 1) :=
      inherits.watcher_eq.trans (heir_newer more)
    rw [hooks, left, newest]
    rfl
  breaks {tell heap notice hook fault after} ceded there ended := by
    refine ⟨fun vacant => (by cases vacant.symm.trans there), fun watched more => ?_⟩
    have inherits := called_inherits (fun heap notice => (ceded heap notice).unfilled) heap notice
      (watched hook there)
    rw [ended] at inherits
    exact inherits.watcher_eq.trans (heir_newer more)

theorem serve_newest (heap : Heap) (request : Request) (watched : heap.Watched Plan.Ceding)
    (more : heap.hooks < (heap.serve request).2.hooks) :
    (heap.serve request).2.watcher = some ((heap.serve request).2.hooks - 1) := by
  unfold serve Heap.request at more ⊢
  cases asked : request.kind? with
  | none =>
      simp only [asked] at more
      exact absurd more (lt_irrefl _)
  | some kind =>
      simp only [asked] at more ⊢
      exact (ceded_settles.notify _ _ _).newest watched more

end Heap

/-! ## Delivery

What becomes of the requests of a dialogue, where all hooks log every call: who was
told of each, in its own right and from inside the calls, and which hook it left in
the slot.
-/

namespace Issue

def notice? (issue : Issue) : Option Notice :=
  issue.request.kind?.map fun kind =>
    ⟨kind, issue.request, (issue.heap.account kind issue.request).counters⟩

def happenings (issue : Issue) : List Happening := issue.heap.since issue.outcome.2

def calls (issue : Issue) : List (Nat × Notice) := issue.happenings.filterMap Happening.call?

structure Delivered (issue : Issue) : Prop where
  served : ∃ notice, issue.notice? = some notice ∧
    Served issue.heap.watcher issue.heap.hooks notice issue.happenings issue.outcome.2.watcher
      issue.outcome.2.hooks
  calls_told : issue.calls = issue.happenings.filterMap Happening.told?
  unwatched : issue.heap.slot = none → issue.calls = []
  /-- The hook in the slot is called first. Other calls are only of hooks that came meanwhile. -/
  watched : ∀ hook, issue.heap.slot = some hook → ∃ notice inner,
    issue.notice? = some notice ∧ issue.calls = (hook.number, notice) :: inner ∧
      (∀ call ∈ inner, issue.heap.hooks ≤ call.1) ∧
      (issue.outcome.2.hooks = issue.heap.hooks → inner = [])
  back : ∀ hook, issue.heap.slot = some hook → issue.outcome.1 = .ok () →
    issue.outcome.2.hooks = issue.heap.hooks →
      issue.outcome.2.slot = some { hook with calls := hook.calls + 1 }
  gone : ∀ fault, issue.outcome.1 = .error fault → issue.outcome.2.hooks = issue.heap.hooks →
    issue.outcome.2.slot = none
  /-- The newest hook is left in the slot, unless it was called in turn and failed. -/
  newest : issue.heap.hooks < issue.outcome.2.hooks →
    issue.outcome.2.watcher = some (issue.outcome.2.hooks - 1) ∨
      issue.outcome.2.watcher = none ∧ Failed (issue.outcome.2.hooks - 1) issue.happenings

structure Fits (issue : Issue) : Prop where
  changes : issue.request.old ≠ issue.request.new
  small : issue.request.Small
  contained : issue.outcome.Contained

end Issue

theorem Request.kind?_changes (request : Request) (changes : request.old ≠ request.new) :
    ∃ kind, request.kind? = some kind :=
  Option.ne_none_iff_exists'.mp (mt request.kind?_eq_none.mp changes)

/-- The calls of a request by the protocol: none if the slot is vacant, or the one of the hook in
it and those of newer hooks. -/
theorem Served.calls {slot left : Option Nat} {made later : Nat} {notice : Notice}
    {events : List Happening} (served : Served slot made notice events left later) :
    (slot = none → events.filterMap Happening.call? = []) ∧
      ∀ hook, slot = some hook → ∃ inner,
        events.filterMap Happening.call? = (hook, notice) :: inner ∧
          (∀ call ∈ inner, made ≤ call.1) ∧ (later = made → inner = []) := by
  have inner {hook : Nat} {left : Option Nat} {inner : List Happening}
      (inside : Inside hook none made inner left later) :
      (∀ call ∈ inner.filterMap Happening.call?, made ≤ call.1) ∧
        (later = made → inner.filterMap Happening.call? = []) := by
    have orderly := inside.orderly
    constructor
    · intro call member
      rw [orderly.calls_eq] at member
      rcases orderly.told_among call member with there | ⟨lower, -⟩
      · cases there
      · exact lower
    · intro same
      subst same
      rw [orderly.calls_eq]
      exact inside.silent.2
  cases served with
  | untold => exact ⟨fun _ => rfl, fun hook there => by cases there⟩
  | returned weighed inside calm =>
      refine ⟨fun vacant => (by cases vacant), fun hook there => ?_⟩
      cases there
      exact ⟨_, rfl, inner inside⟩
  | failed weighed inside =>
      refine ⟨fun vacant => (by cases vacant), fun hook there => ⟨_, ?_, inner inside⟩⟩
      cases there
      simp only [List.cons_append, List.filterMap_cons, List.filterMap_append, Happening.call?,
        List.filterMap_nil, List.append_nil]

theorem Served.newest {slot left : Option Nat} {made later : Nat} {notice : Notice}
    {events : List Happening} (served : Served slot made notice events left later)
    (more : made < later) :
    left = some (later - 1) ∨ left = none ∧ Failed (later - 1) events := by
  have settled := served.orderly.settled
  rw [heir_newer more] at settled
  refine settled.imp id ?_
  rintro ⟨vacant, hook, newest, failed⟩
  exact ⟨vacant, Option.some.inj newest ▸ failed⟩

namespace Heap

structure Passed (before after : Heap) : Prop where
  later : before.Later after
  orderly : Orderly before.watcher before.hooks (before.since after) after.watcher after.hooks

theorem passed_refl (heap : Heap) : heap.Passed heap := by
  refine ⟨.refl heap, ?_⟩
  rw [since_self]
  exact orderly_nil _ _

theorem Passed.trans {before between after : Heap} (early : before.Passed between)
    (late : between.Passed after) : before.Passed after := by
  refine ⟨early.later.trans late.later, ?_⟩
  rw [since_trans early.later late.later]
  exact orderly_append early.orderly late.orderly

theorem serve_delivered (heap : Heap) (request : Request) (watched : heap.Watched Plan.Logging)
    (fits : Issue.Fits ⟨heap, request⟩) :
    Issue.Delivered ⟨heap, request⟩ ∧ heap.Passed (heap.serve request).2 := by
  obtain ⟨kind, asked⟩ := request.kind?_changes fits.changes
  have served : heap.serve request = notify heap.stack (heap.account kind request)
      ⟨kind, request, (heap.account kind request).counters⟩ := by
    simp only [serve, Heap.request, asked]
  have told := told_settles.notify heap.stack (heap.account kind request)
    ⟨kind, request, (heap.account kind request).counters⟩ watched fits.small
  rw [← served] at told
  replace told := told fits.contained
  have counted := Later.account heap kind request
  have first : heap.since (heap.account kind request) =
      [.counted ⟨kind, request, (heap.account kind request).counters⟩ heap.watcher] :=
    since_remember _ _
  have whole := since_trans counted told.later
  rw [first, List.singleton_append] at whole
  have protocol : Served heap.watcher heap.hooks
      ⟨kind, request, (heap.account kind request).counters⟩ (heap.since (heap.serve request).2)
      (heap.serve request).2.watcher (heap.serve request).2.hooks := by
    rw [whole]
    exact told.served
  have notice : Issue.notice? ⟨heap, request⟩ =
      some ⟨kind, request, (heap.account kind request).counters⟩ := by
    rw [Issue.notice?, asked, Option.map_some]
  obtain ⟨unwatched, called⟩ := protocol.calls
  refine ⟨⟨⟨_, notice, protocol⟩, protocol.orderly.calls_eq, ?_, ?_, told.back, told.gone,
    protocol.newest⟩, counted.trans told.later, protocol.orderly⟩
  · intro vacant
    exact unwatched (by rw [watcher, vacant, Option.map_none])
  · intro hook there
    obtain ⟨inner, calls, others⟩ := called hook.number (by rw [watcher, there, Option.map_some])
    exact ⟨_, inner, notice, calls, others⟩

end Heap

namespace Dialogue

variable {σ α : Type}

/-- Each request of a dialogue is delivered, and nothing else happens. -/
theorem hold_delivers (dialogue : Dialogue σ α) (heap : Heap)
    (watched : heap.Watched Plan.Logging) (fit : ∀ issue ∈ dialogue.issues heap, issue.Fits) :
    heap.Passed (dialogue.hold heap).heap ∧
      heap.since (dialogue.hold heap).heap =
        (dialogue.issues heap).flatMap Issue.happenings ∧
      ∀ issue ∈ dialogue.issues heap, issue.Delivered ∧ heap.Passed issue.heap ∧
        issue.outcome.2.Passed (dialogue.hold heap).heap := by
  induction dialogue generalizing heap with
  | close answer object =>
      exact ⟨Heap.passed_refl heap, Heap.since_self heap, fun _ member => by cases member⟩
  | ask request next ih =>
      obtain ⟨first, rest⟩ := List.forall_mem_cons.mp fit
      obtain ⟨delivered, passed⟩ := heap.serve_delivered request watched first
      obtain ⟨onward, happened, others⟩ :=
        ih _ _ (heap.serve request).2 (heap.serve_watched request watched) rest
      refine ⟨passed.trans onward, ?_, List.forall_mem_cons.mpr ⟨⟨delivered,
        Heap.passed_refl heap, onward⟩, fun issue member => ?_⟩⟩
      · simp only [hold, issues, List.flatMap_cons]
        rw [Heap.since_trans passed.later onward.later, happened]
        rfl
      · obtain ⟨delivered, before, after⟩ := others issue member
        exact ⟨delivered, passed.trans before, after⟩

theorem issues_fit {dialogue : Dialogue σ α} {heap : Heap} (candid : dialogue.Candid)
    (survived : (dialogue.hold heap).Survived)
    (small : ∀ issue ∈ dialogue.issues heap, issue.request.Small) :
    ∀ issue ∈ dialogue.issues heap, issue.Fits := by
  intro issue member
  refine ⟨candid.changes heap issue member, small issue member, fun fault broken => ?_⟩
  by_contra fatal
  obtain ⟨last, answered, fatalToo⟩ := candid.fatal heap issue member fault broken
    (Bool.not_eq_false _ ▸ fatal)
  rw [survived last answered] at fatalToo
  cases fatalToo

end Dialogue

end MeteredChunk
