import MeteredChunk.Store
import MeteredChunk.Proofs.Heap.Passage

/-!
Operations on objects as dialogues with their heap.
-/

namespace MeteredChunk.Effect

/-! ## Effects

What operations leave behind, said once for the ones that go through and the ones
that break off. A fatal fault ends the program, so nothing is said of what it leaves.
-/

variable {σ τ α β : Type} {effect : Effect σ α} {holds : σ → Heap → Prop}

def Survived (effect : Effect σ α) : Prop :=
  ∀ fault, effect.answer = .error fault → fault.isFatal = false

instance (effect : Effect σ α) : Decidable effect.Survived :=
  match answered : effect.answer with
  | .ok _ => isTrue fun fault broken => by cases answered.symm.trans broken
  | .error fault =>
      if contained : fault.isFatal = false then
        isTrue fun _ broken => Except.error.inj (answered.symm.trans broken) ▸ contained
      else isFalse fun survived => contained (survived fault answered)

def Leaves (effect : Effect σ α) (holds : σ → Heap → Prop) : Prop :=
  effect.Survived → holds effect.object effect.heap

theorem leaves_done (answer : α) (object : σ) (heap : Heap) (left : holds object heap) :
    (Effect.done answer object heap).Leaves holds :=
  fun _ => left

theorem leaves_fail (fault : Fault) (object : σ) (heap : Heap)
    (left : fault.isFatal = false → holds object heap) :
    (Effect.fail fault object heap : Effect σ α).Leaves holds :=
  fun survived => left (survived fault rfl)

theorem survived_map (f : α → β) (survived : (effect.map f).Survived) : effect.Survived := by
  intro fault broken
  apply survived fault
  simp [map, broken, Except.map]

theorem survived_mapped (f : α → β) (survived : effect.Survived) : (effect.map f).Survived := by
  intro fault broken
  apply survived fault
  cases answered : effect.answer with
  | ok answer => simp [map, answered, Except.map] at broken
  | error other => simpa [map, answered, Except.map] using broken

theorem survived_within (place : σ → τ) (survived : (effect.within place).Survived) :
    effect.Survived :=
  survived

theorem survived_andThen {next : α → σ → Heap → Effect σ β}
    (survived : (effect.andThen next).Survived) : effect.Survived := by
  intro fault broken
  apply survived fault
  simp only [andThen, broken, fail]

theorem leaves_map (f : α → β) (left : effect.Leaves holds) : (effect.map f).Leaves holds :=
  fun survived => left (survived_map f survived)

theorem leaves_within {place : σ → τ} {holds : τ → Heap → Prop}
    (left : effect.Leaves fun object heap => holds (place object) heap) :
    (effect.within place).Leaves holds :=
  left

theorem leaves_mono {weaker : σ → Heap → Prop} (left : effect.Leaves holds)
    (weaken : ∀ object heap, holds object heap → weaker object heap) : effect.Leaves weaker :=
  fun survived => weaken _ _ (left survived)

theorem leaves_andThen {between : σ → Heap → Prop} {next : α → σ → Heap → Effect σ β}
    (first : effect.Leaves between) (off : ∀ object heap, between object heap → holds object heap)
    (second : ∀ answer object heap, between object heap → (next answer object heap).Leaves holds) :
    (effect.andThen next).Leaves holds := by
  obtain ⟨answer, object, heap⟩ := effect
  cases answer with
  | ok answer => exact second answer object heap (first fun _ same => by cases same)
  | error fault =>
      refine leaves_fail fault object heap fun contained => off _ _ (first fun _ same => ?_)
      cases same
      exact contained

end MeteredChunk.Effect

namespace MeteredChunk

/-! ## Dialogues

Operations as dialogues with a heap. All that an operation learns from a heap is how
the requests end that it makes itself, and from which size on blocks are beyond
memory. So it can be said without a heap what an operation asks for, and how it goes
on then; two heaps that serve the same requests cannot be told apart by it.
-/

/-- A request, and the heap that it is made on. -/
structure Issue where
  heap : Heap
  request : Request

namespace Issue

def outcome (issue : Issue) : Heap.Outcome := issue.heap.serve issue.request

def Granted (issue : Issue) : Prop := issue.outcome.1 = .ok ()

end Issue

def Heap.serveAll (heap : Heap) : List Request → Heap
  | [] => heap
  | request :: rest => (heap.serve request).2.serveAll rest

inductive Dialogue (σ α : Type) where
  | close (answer : Except Fault α) (object : σ)
  | ask (request : Request) (next : Except Fault Unit → (ceiling : Nat) → Dialogue σ α)

namespace Dialogue

variable {σ τ α β : Type} {heap : Heap}

def hold : Dialogue σ α → Heap → Effect σ α
  | close answer object, heap => ⟨answer, object, heap⟩
  | ask request next, heap =>
      let served := heap.serve request
      (next served.1 served.2.ceiling).hold served.2

def issues : Dialogue σ α → Heap → List Issue
  | close _ _, _ => []
  | ask request next, heap =>
      let served := heap.serve request
      ⟨heap, request⟩ :: (next served.1 served.2.ceiling).issues served.2

def granted (ceiling : Nat) : Dialogue σ α → Except Fault α × σ
  | close answer object => (answer, object)
  | ask _ next => (next (.ok ()) ceiling).granted ceiling

def wishes (ceiling : Nat) : Dialogue σ α → List Request
  | close _ _ => []
  | ask request next => request :: (next (.ok ()) ceiling).wishes ceiling

def follow : Dialogue σ α → (Except Fault α → σ → Dialogue τ β) → Dialogue τ β
  | close answer object, next => next answer object
  | ask request more, next => ask request fun outcome ceiling => (more outcome ceiling).follow next

def andThen (dialogue : Dialogue σ α) (next : α → σ → Dialogue σ β) : Dialogue σ β :=
  dialogue.follow fun answer object =>
    match answer with
    | .ok answer => next answer object
    | .error fault => close (.error fault) object

def within (place : σ → τ) (dialogue : Dialogue σ α) : Dialogue τ α :=
  dialogue.follow fun answer object => close answer (place object)

def map (f : α → β) (dialogue : Dialogue σ α) : Dialogue σ β :=
  dialogue.follow fun answer object => close (answer.map f) object

section Holding

theorem hold_follow (dialogue : Dialogue σ α) (next : Except Fault α → σ → Dialogue τ β)
    (heap : Heap) :
    (dialogue.follow next).hold heap =
      let effect := dialogue.hold heap
      (next effect.answer effect.object).hold effect.heap := by
  induction dialogue generalizing heap with
  | close answer object => rfl
  | ask request more ih => exact ih _ _ _

theorem issues_follow (dialogue : Dialogue σ α) (next : Except Fault α → σ → Dialogue τ β)
    (heap : Heap) :
    (dialogue.follow next).issues heap =
      let effect := dialogue.hold heap
      dialogue.issues heap ++ (next effect.answer effect.object).issues effect.heap := by
  induction dialogue generalizing heap with
  | close answer object => rfl
  | ask request more ih => exact congrArg (List.cons _) (ih _ _ _)

theorem granted_follow (dialogue : Dialogue σ α) (next : Except Fault α → σ → Dialogue τ β)
    (ceiling : Nat) :
    (dialogue.follow next).granted ceiling =
      let ended := dialogue.granted ceiling
      (next ended.1 ended.2).granted ceiling := by
  induction dialogue with
  | close answer object => rfl
  | ask request more ih => exact ih _ _

theorem wishes_follow (dialogue : Dialogue σ α) (next : Except Fault α → σ → Dialogue τ β)
    (ceiling : Nat) :
    (dialogue.follow next).wishes ceiling =
      let ended := dialogue.granted ceiling
      dialogue.wishes ceiling ++ (next ended.1 ended.2).wishes ceiling := by
  induction dialogue with
  | close answer object => rfl
  | ask request more ih => exact congrArg (List.cons request) (ih _ _)

theorem hold_andThen (dialogue : Dialogue σ α) (next : α → σ → Dialogue σ β) (heap : Heap) :
    (dialogue.andThen next).hold heap =
      (dialogue.hold heap).andThen fun answer object heap => (next answer object).hold heap := by
  rw [andThen, hold_follow]
  obtain ⟨answer, object, after⟩ := dialogue.hold heap
  cases answer with
  | ok answer => rfl
  | error fault => rfl

theorem hold_within (place : σ → τ) (dialogue : Dialogue σ α) (heap : Heap) :
    (dialogue.within place).hold heap = (dialogue.hold heap).within place :=
  hold_follow _ _ _

theorem hold_map (f : α → β) (dialogue : Dialogue σ α) (heap : Heap) :
    (dialogue.map f).hold heap = (dialogue.hold heap).map f :=
  hold_follow _ _ _

theorem granted_within (place : σ → τ) (dialogue : Dialogue σ α) (ceiling : Nat) :
    (dialogue.within place).granted ceiling =
      ((dialogue.granted ceiling).1, place (dialogue.granted ceiling).2) :=
  granted_follow _ _ _

theorem wishes_within (place : σ → τ) (dialogue : Dialogue σ α) (ceiling : Nat) :
    (dialogue.within place).wishes ceiling = dialogue.wishes ceiling :=
  (wishes_follow _ _ _).trans (List.append_nil _)

theorem granted_andThen {dialogue : Dialogue σ α} (next : α → σ → Dialogue σ β) {ceiling : Nat}
    {answer : α} {object : σ} (through : dialogue.granted ceiling = (.ok answer, object)) :
    (dialogue.andThen next).granted ceiling = (next answer object).granted ceiling ∧
      (dialogue.andThen next).wishes ceiling =
        dialogue.wishes ceiling ++ (next answer object).wishes ceiling := by
  rw [andThen, granted_follow, wishes_follow, through]
  exact ⟨rfl, rfl⟩

theorem granted_andThen_error {dialogue : Dialogue σ α} (next : α → σ → Dialogue σ β)
    {ceiling : Nat} {fault : Fault} {object : σ}
    (broken : dialogue.granted ceiling = (.error fault, object)) :
    (dialogue.andThen next).granted ceiling = (.error fault, object) := by
  rw [andThen, granted_follow, broken]
  rfl

/-- A dialogue does nothing to a heap but to have its requests served. -/
theorem hold_heap (dialogue : Dialogue σ α) (heap : Heap) :
    (dialogue.hold heap).heap = heap.serveAll ((dialogue.issues heap).map Issue.request) := by
  induction dialogue generalizing heap with
  | close answer object => rfl
  | ask request next ih => exact ih _ _ _

/-- What every request keeps is kept by a dialogue. -/
theorem hold_keeps {holds : Heap → Prop}
    (keeps : ∀ (heap : Heap) (request : Request), holds heap → holds (heap.serve request).2)
    (dialogue : Dialogue σ α) (heap : Heap) (before : holds heap) :
    holds (dialogue.hold heap).heap := by
  induction dialogue generalizing heap with
  | close answer object => exact before
  | ask request next ih => exact ih _ _ _ (keeps heap request before)

theorem hold_later (dialogue : Dialogue σ α) (heap : Heap) :
    heap.Later (dialogue.hold heap).heap :=
  hold_keeps (Heap.later_lasting heap).serve dialogue heap (.refl heap)

theorem issues_between (dialogue : Dialogue σ α) (heap : Heap) (issue : Issue)
    (member : issue ∈ dialogue.issues heap) :
    heap.Later issue.heap ∧ issue.outcome.2.Later (dialogue.hold heap).heap := by
  induction dialogue generalizing heap with
  | close answer object => cases member
  | ask request next ih =>
      rcases List.mem_cons.mp member with same | rest
      · subst same
        exact ⟨.refl heap, hold_later _ _⟩
      · obtain ⟨first, second⟩ := ih _ _ _ rest
        exact ⟨(heap.serve_later request).trans first, second⟩

theorem hold_watched {rule : Notice → List (Act Plan) → Prop} (dialogue : Dialogue σ α)
    (heap : Heap) (watched : heap.Watched (Plan.Obeys rule)) :
    (dialogue.hold heap).heap.Watched (Plan.Obeys rule) ∧
      ∀ issue ∈ dialogue.issues heap, issue.heap.Watched (Plan.Obeys rule) := by
  induction dialogue generalizing heap with
  | close answer object => exact ⟨watched, fun _ member => by cases member⟩
  | ask request next ih =>
      obtain ⟨last, others⟩ := ih _ _ _ (heap.serve_watched request watched)
      exact ⟨last, List.forall_mem_cons.mpr ⟨watched, others⟩⟩

/-- Where all requests are granted, the heap has no other say than its ceiling. -/
theorem hold_granted (dialogue : Dialogue σ α) (heap : Heap)
    (all : ∀ issue ∈ dialogue.issues heap, issue.Granted) :
    ((dialogue.hold heap).answer, (dialogue.hold heap).object) = dialogue.granted heap.ceiling ∧
      (dialogue.issues heap).map Issue.request = dialogue.wishes heap.ceiling := by
  induction dialogue generalizing heap with
  | close answer object => exact ⟨rfl, rfl⟩
  | ask request next ih =>
      obtain ⟨first, rest⟩ := List.forall_mem_cons.mp all
      have ceiling := (heap.serve_later request).ceiling_eq
      have ended := ih _ _ _ rest
      change (heap.serve request).1 = .ok () at first
      simp only [hold, issues, granted, wishes, List.map_cons]
      rw [first, ceiling] at ended ⊢
      exact ⟨ended.1, congrArg (List.cons request) ended.2⟩

end Holding

section Candour

/-- No request has two equal sizes, and if one ends in a fatal fault so does the dialogue. -/
structure Candid (dialogue : Dialogue σ α) : Prop where
  changes : ∀ heap, ∀ issue ∈ dialogue.issues heap, issue.request.old ≠ issue.request.new
  fatal : ∀ heap, ∀ issue ∈ dialogue.issues heap, ∀ fault, issue.outcome.1 = .error fault →
    fault.isFatal = true →
      ∃ last, (dialogue.hold heap).answer = .error last ∧ last.isFatal = true

theorem candid_close (answer : Except Fault α) (object : σ) : (close answer object).Candid :=
  ⟨fun _ _ member => (by cases member), fun _ _ member => by cases member⟩

theorem candid_ask {request : Request} {next : Except Fault Unit → Nat → Dialogue σ α}
    (changes : request.old ≠ request.new) (rest : ∀ outcome ceiling, (next outcome ceiling).Candid)
    (passes : ∀ fault ceiling heap, fault.isFatal = true →
      ∃ last, ((next (.error fault) ceiling).hold heap).answer = .error last ∧
        last.isFatal = true) :
    (ask request next).Candid := by
  constructor
  · intro heap issue member
    rcases List.mem_cons.mp member with same | later
    · subst same
      exact changes
    · exact (rest _ _).changes _ issue later
  · intro heap issue member fault broken fatal
    rcases List.mem_cons.mp member with same | later
    · subst same
      change (heap.serve request).1 = .error fault at broken
      simp only [hold]
      rw [broken]
      exact passes fault _ _ fatal
    · exact (rest _ _).fatal _ issue later fault broken fatal

/-- It is enough that the second dialogue passes fatal faults of the first one on. -/
theorem candid_follow {dialogue : Dialogue σ α} {next : Except Fault α → σ → Dialogue τ β}
    (first : dialogue.Candid) (second : ∀ answer object, (next answer object).Candid)
    (passes : ∀ fault object heap, fault.isFatal = true →
      ∃ last, ((next (.error fault) object).hold heap).answer = .error last ∧
        last.isFatal = true) :
    (dialogue.follow next).Candid := by
  constructor
  · intro heap issue member
    rw [issues_follow] at member
    rcases List.mem_append.mp member with early | late
    · exact first.changes heap issue early
    · exact (second _ _).changes _ issue late
  · intro heap issue member fault broken fatal
    rw [issues_follow] at member
    rw [hold_follow]
    rcases List.mem_append.mp member with early | late
    · obtain ⟨last, answered, fatalToo⟩ := first.fatal heap issue early fault broken fatal
      dsimp only
      rw [answered]
      exact passes last _ _ fatalToo
    · exact (second _ _).fatal _ issue late fault broken fatal

theorem candid_andThen {dialogue : Dialogue σ α} {next : α → σ → Dialogue σ β}
    (first : dialogue.Candid) (second : ∀ answer object, (next answer object).Candid) :
    (dialogue.andThen next).Candid := by
  refine candid_follow first (fun answer object => ?_) fun fault object heap fatal =>
    ⟨fault, rfl, fatal⟩
  cases answer with
  | ok answer => exact second answer object
  | error fault => exact candid_close _ _

theorem candid_within {dialogue : Dialogue σ α} (place : σ → τ) (candid : dialogue.Candid) :
    (dialogue.within place).Candid :=
  candid_follow candid (fun _ _ => candid_close _ _) fun fault _ _ fatal => ⟨fault, rfl, fatal⟩

theorem candid_map {dialogue : Dialogue σ α} (f : α → β) (candid : dialogue.Candid) :
    (dialogue.map f).Candid :=
  candid_follow candid (fun _ _ => candid_close _ _) fun fault _ _ fatal => ⟨fault, rfl, fatal⟩

/-- Without a refusal, and without the end of the program, every request was granted. -/
theorem issues_granted {dialogue : Dialogue σ α} (candid : dialogue.Candid)
    (survived : (dialogue.hold heap).Survived)
    (calm : (dialogue.hold heap).heap.refusals = heap.refusals) :
    ∀ issue ∈ dialogue.issues heap, issue.Granted := by
  intro issue member
  cases outcome : issue.outcome.1 with
  | ok done => exact outcome
  | error fault =>
      exfalso
      by_cases fatal : fault.isFatal = true
      · obtain ⟨last, answered, fatalToo⟩ := candid.fatal heap issue member fault outcome fatal
        rw [survived last answered] at fatalToo
        cases fatalToo
      · have grown := issue.heap.serve_refused issue.request fault outcome
          (Bool.eq_false_iff.mpr fatal)
        obtain ⟨before, after⟩ := issues_between dialogue heap issue member
        have early := before.refusals_kept.length_le
        have late := after.refusals_kept.length_le
        rw [calm] at late
        unfold Issue.outcome at late
        omega

end Candour

end Dialogue

/-! ## Without a hook

Dialogues with a heap that has no hook in its slot. Nobody is told of a request, so
each one is counted and granted, and the heap has no other say than its ceiling.
-/

section Vacant
variable {heap : Heap}

namespace Heap

def count (heap : Heap) (request : Request) : Heap :=
  match request.kind? with
  | none => heap
  | some kind => heap.account kind request

theorem slot_count (heap : Heap) (request : Request) : (heap.count request).slot = heap.slot := by
  rw [count]
  cases request.kind? with
  | none => rfl
  | some kind => rfl

theorem refusals_count (heap : Heap) (request : Request) :
    (heap.count request).refusals = heap.refusals := by
  rw [count]
  cases request.kind? with
  | none => rfl
  | some kind => exact refusals_account heap kind request

theorem serve_vacant (request : Request) (vacant : heap.slot = none) :
    heap.serve request = (.ok (), heap.count request) := by
  rw [serve, Heap.request, count]
  cases request.kind? with
  | none => rfl
  | some kind => exact notify_vacant _ _ vacant

theorem serveAll_vacant (requests : List Request) (vacant : heap.slot = none) :
    (heap.serveAll requests).slot = none ∧
      (heap.serveAll requests).refusals = heap.refusals := by
  induction requests generalizing heap with
  | nil => exact ⟨vacant, rfl⟩
  | cons request rest ih =>
      rw [serveAll, serve_vacant request vacant]
      have kept : (heap.count request).slot = none := (slot_count heap request).trans vacant
      have after := ih kept
      exact ⟨after.1, after.2.trans (refusals_count heap request)⟩

end Heap

namespace Dialogue

variable {σ α : Type}

theorem issues_vacant (dialogue : Dialogue σ α) (vacant : heap.slot = none) :
    ∀ issue ∈ dialogue.issues heap, issue.Granted := by
  induction dialogue generalizing heap with
  | close answer object =>
      intro issue member
      cases member
  | ask request next ih =>
      have served := Heap.serve_vacant request vacant
      have kept : (heap.serve request).2.slot = none := by
        rw [served]
        exact (Heap.slot_count heap request).trans vacant
      intro issue member
      rcases List.mem_cons.mp member with same | later
      · subst same
        exact congrArg Prod.fst served
      · exact ih _ _ kept issue later

/-- The dialogue ends as it would if it were granted everything, and so it is. -/
theorem hold_vacant (dialogue : Dialogue σ α) (vacant : heap.slot = none) :
    dialogue.hold heap =
      ⟨(dialogue.granted heap.ceiling).1, (dialogue.granted heap.ceiling).2,
        heap.serveAll (dialogue.wishes heap.ceiling)⟩ := by
  have granted := hold_granted dialogue heap (issues_vacant dialogue vacant)
  have whole := hold_heap dialogue heap
  rw [granted.2] at whole
  rw [← whole, ← granted.1]

end Dialogue

end Vacant

end MeteredChunk
