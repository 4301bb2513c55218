import MeteredChunk.Proofs.Session.Conservation

/-!
What hooks can do to the meter, over two runs that differ in their hooks alone.
-/

namespace MeteredChunk

/-! ## Gauges

What hooks can do to the meter. A hook that only watches leaves it alone; one that
also borrows scratch blocks, and gives them back whole, is still not seen by a gauge
that shows neither allocations nor frees.
-/

/-- The meter is not zeroed, and blocks are requested only where they are lent: each is taken whole
and given back whole. -/
def Act.Discreet (lends : Prop) (held : List Nat) : Act Plan → Prop
  | .resize number size => lends ∧ (held.getD number 0 = 0 ∨ size = 0)
  | .reset => False
  | _ => True

namespace Plan

def Discreet (lends : Prop) : Plan → Prop :=
  Obeys fun _ acts => Act.Each (Act.Discreet lends) [] acts

abbrev Quiet : Plan → Prop := Discreet False

abbrev Borrowing : Plan → Prop := Discreet True

theorem noting_discreet {lends : Prop} {acts : Nat → List (Act Plan)}
    (calls : ∀ call, Act.Each (Act.Discreet lends) [] (acts call))
    (successors : ∀ call next, .enlist next ∈ acts call → next.Discreet lends) :
    (noting acts).Discreet lends :=
  noting_obeys (fun _ _ => ⟨trivial, trivial⟩) (fun call _ _ _ => ⟨trivial, calls call⟩) successors

theorem record_discreet (lends : Prop) : record.Discreet lends :=
  noting_discreet (fun _ => trivial) fun _ _ member => by cases member

theorem swap_discreet {lends : Prop} (turn : Nat) {next : Plan} (discreet : next.Discreet lends) :
    (swap turn next).Discreet lends := by
  apply noting_discreet
  · intro call
    split
    · exact ⟨trivial, trivial⟩
    · trivial
  · intro call successor member
    obtain ⟨-, rfl⟩ : call = turn ∧ successor = next := by simpa using member
    exact discreet

theorem reenter_borrowing (bytes : Nat) : (reenter bytes).Borrowing :=
  noting_discreet (fun _ => ⟨⟨trivial, .inl rfl⟩, trivial⟩) fun _ _ member => by simp at member

end Plan

/-- A reading of the meter whose change by a request is a function of the reading and the request.
-/
structure Gauge (β : Type) where
  read : Counters → β
  move : β → RequestKind → Request → β
  read_account : ∀ counters kind request,
    read (counters.account kind request) = move (read counters) kind request

namespace Gauge

def all : Gauge Counters := ⟨id, Counters.account, fun _ _ _ => rfl⟩

def changes : Gauge (Nat × Nat) where
  read counters := (counters.grows, counters.shrinks)
  move reading kind _ :=
    match kind with
    | .grow => (reading.1 + 1, reading.2)
    | .shrink => (reading.1, reading.2 + 1)
    | _ => reading
  read_account _ kind _ := by cases kind <;> rfl

variable {β : Type}

def Blind (gauge : Gauge β) : Prop :=
  ∀ reading request, gauge.move reading .allocate request = reading ∧
    gauge.move reading .free request = reading

theorem changes_blind : changes.Blind := fun _ _ => ⟨rfl, rfl⟩

def serve (gauge : Gauge β) (reading : β) (request : Request) : β :=
  match request.kind? with
  | none => reading
  | some kind => gauge.move reading kind request

theorem serve_blind {gauge : Gauge β} (blind : gauge.Blind) (reading : β) (request : Request)
    (whole : request.old = 0 ∨ request.new = 0) : gauge.serve reading request = reading := by
  have unseen := blind reading request
  rcases whole with whole | whole <;> simp only [serve, Request.kind?, whole]
  · split_ifs <;> simp_all
  · split_ifs <;> simp_all

end Gauge

namespace Heap

variable {β : Type} (gauge : Gauge β) (good : Plan → Prop)

structure Unmoved (before after : Heap) : Prop where
  read_eq : gauge.read after.counters = gauge.read before.counters
  watched : after.Watched good

variable {gauge good} {lends : Prop} {tell : Telling}

theorem Unmoved.trans {first second third : Heap} (one : Unmoved gauge good first second)
    (two : Unmoved gauge good second third) : Unmoved gauge good first third :=
  ⟨two.read_eq.trans one.read_eq, two.watched⟩

section Calls
variable (blind : lends → gauge.Blind)
  (still : ∀ (heap : Heap) (notice : Notice), heap.Watched good →
    Unmoved gauge good heap (tell heap notice).2)
include still

theorem request_moved (heap : Heap) (request : Request) (watched : heap.Watched good) :
    gauge.read (heap.request tell request).2.counters =
        gauge.serve (gauge.read heap.counters) request ∧
      (heap.request tell request).2.Watched good := by
  unfold Heap.request Gauge.serve
  cases request.kind? with
  | none => exact ⟨rfl, watched⟩
  | some kind =>
      have told := still (heap.account kind request)
        ⟨kind, request, (heap.account kind request).counters⟩ watched
      exact ⟨told.read_eq.trans (gauge.read_account _ _ _), told.watched⟩

include blind

theorem request_unmoved (heap : Heap) (request : Request) (lent : lends)
    (whole : request.old = 0 ∨ request.new = 0) (watched : heap.Watched good) :
    Unmoved gauge good heap (heap.request tell request).2 := by
  obtain ⟨reads, after⟩ := request_moved still heap request watched
  rw [Gauge.serve_blind (blind lent) _ _ whole] at reads
  exact ⟨reads, after⟩

/-- Discreet acts move nothing that the gauge shows. -/
theorem unmoved_carries (hook : Hook) :
    Carries tell hook
      (fun held act => act.Discreet lends held ∧ ∀ next, act = .enlist next → good next)
      (fun _ => lends)
      fun heap outcome => heap.Watched good → Unmoved gauge good heap outcome.2 where
  stays _ _ watched := ⟨rfl, watched⟩
  follows first second watched := (first watched).trans (second (first watched).watched)
  unwinds first second watched := (first watched).trans (second (first watched).watched)
  overtaken := id
  exhausts := id
  writes _ _ _ _ watched := ⟨rfl, watched⟩
  enlists _ _ next fits _ := ⟨rfl, watched_some rfl (fits.2 next rfl)⟩
  vacates _ _ _ _ := ⟨rfl, watched_vacant rfl⟩
  resets _ _ fits := absurd fits.1 id
  asks heap _ _ _ _ fits :=
    ⟨fits.1.1, request_unmoved blind still heap _ fits.1.1 fits.1.2⟩
  returns heap _ lent := request_unmoved blind still heap _ lent (.inr rfl)

end Calls

theorem called_unmoved (blind : lends → gauge.Blind)
    (still : ∀ (heap : Heap) (notice : Notice), heap.Watched (Plan.Discreet lends) →
      Unmoved gauge (Plan.Discreet lends) heap (tell heap notice).2)
    (heap : Heap) (notice : Notice) {hook : Hook} (discreet : hook.plan.Discreet lends) :
    Unmoved gauge (Plan.Discreet lends) heap
      (perform tell hook [] (hook.plan.acts hook.calls notice) heap.vacate).2 := by
  have enlisted := discreet.enlisted hook.calls notice
  obtain ⟨calls, -⟩ := discreet
  have performed := (unmoved_carries blind still hook).perform _ []
    (Act.each_and (calls hook.calls notice) enlisted) (fun _ member => by cases member)
    heap.vacate (watched_vacant rfl)
  exact ⟨performed.read_eq, performed.watched⟩

theorem Unmoved.putBack {before after : Heap} {hook : Hook} (unmoved : Unmoved gauge good before after)
    (fits : good hook.plan) : Unmoved gauge good before (after.putBack hook) := by
  refine ⟨?_, watched_putBack unmoved.watched fits⟩
  have kept : (after.putBack hook).counters = after.counters := by
    unfold Heap.putBack
    split <;> rfl
  rw [kept]
  exact unmoved.read_eq

/-- Hooks that are discreet move nothing, where the gauge is blind to what they may borrow. -/
theorem unmoved_settles (blind : lends → gauge.Blind) : Settles fun heap _ outcome =>
    heap.Watched (Plan.Discreet lends) → Unmoved gauge (Plan.Discreet lends) heap outcome.2 where
  vacant _ _ watched := ⟨rfl, watched⟩
  overflows _ _ watched := ⟨rfl, watched⟩
  returns {tell heap notice hook after} still there ended watched := by
    have called := called_unmoved blind still heap notice (watched hook there)
    rw [ended] at called
    exact called.putBack (watched hook there)
  breaks {tell heap notice hook fault after} still there ended watched := by
    have called := called_unmoved blind still heap notice (watched hook there)
    rw [ended] at called
    exact ⟨called.read_eq, called.watched⟩

theorem serve_moved (blind : lends → gauge.Blind) (heap : Heap) (request : Request)
    (watched : heap.Watched (Plan.Discreet lends)) :
    gauge.read (heap.serve request).2.counters =
      gauge.serve (gauge.read heap.counters) request :=
  (request_moved ((unmoved_settles blind).notify heap.stack) heap request watched).1

/-- The gauge shows the requests and nothing of the hooks. -/
theorem serveAll_moved (blind : lends → gauge.Blind) (requests : List Request) (heap : Heap)
    (watched : heap.Watched (Plan.Discreet lends)) :
    gauge.read (heap.serveAll requests).counters =
      requests.foldl gauge.serve (gauge.read heap.counters) := by
  induction requests generalizing heap with
  | nil => rfl
  | cons request rest ih =>
      rw [serveAll, ih _ (heap.serve_watched request watched), serve_moved blind heap request watched]
      rfl

end Heap

end MeteredChunk

namespace MeteredChunk.Session

/-! ## Two runs

Two runs that do the same to the objects, under any two sets of hooks. As long as no
hook fails and nothing ends the program, the replies and the objects are the same, and
the meter differs by no more than what hooks borrow for the time of a call.
-/

variable {κ : Type} [Kinds κ]

/-- The operations that are not about hooks, with the reply to each and the session after it. -/
def transcript (session : Session κ) : List (Operation κ) → List (Reply × Session κ)
  | [] => []
  | operation :: rest =>
      let stepped := session.step operation
      if operation.isHook then stepped.2.transcript rest
      else stepped :: stepped.2.transcript rest

structure Smooth (session : Session κ) (operation : Operation κ) : Prop where
  survived : (session.step operation).1.isFatal = false
  unrefused : (session.step operation).2.heap.refusals = session.heap.refusals

structure Undisturbed (session : Session κ) (operations : List (Operation κ)) : Prop where
  survived : session.Survives operations
  unrefused : (session.run operations).2.heap.refusals = session.heap.refusals

instance (session : Session κ) (operations : List (Operation κ)) :
    Decidable (session.Undisturbed operations) :=
  decidable_of_iff (session.Survives operations ∧
      (session.run operations).2.heap.refusals = session.heap.refusals)
    ⟨fun ⟨survived, unrefused⟩ => ⟨survived, unrefused⟩,
      fun undisturbed => ⟨undisturbed.survived, undisturbed.unrefused⟩⟩

section Steps

theorem undisturbed_cons {session : Session κ} {operation : Operation κ}
    {rest : List (Operation κ)} (undisturbed : session.Undisturbed (operation :: rest)) :
    session.Smooth operation ∧ (session.step operation).2.Undisturbed rest := by
  obtain ⟨first, later⟩ := (survives_cons session operation rest).mp undisturbed.survived
  have early := (session.step_later operation).refusals_kept
  have late := ((session.step operation).2.run_later rest).refusals_kept
  have unrefused : ((session.step operation).2.run rest).2.heap.refusals =
      session.heap.refusals := undisturbed.unrefused
  -- Between the same refusals there are the same.
  have between : (session.step operation).2.heap.refusals = session.heap.refusals := by
    rw [unrefused] at late
    exact late.eq_of_length (Nat.le_antisymm late.length_le early.length_le)
  exact ⟨⟨first, between⟩, later, unrefused.trans between.symm⟩

/-- What a smooth operation does is told by the objects, and its requests are. -/
theorem step_smooth (session : Session κ) (operation : Operation κ)
    (plain : operation.isHook = false) (kept : operation ≠ .resetCounters)
    (smooth : session.Smooth operation) :
    let dialogue := session.consult operation
    let ended := dialogue.granted session.heap.ceiling
    session.step operation = (replied ended.1,
      ⟨session.heap.serveAll (dialogue.wishes session.heap.ceiling), ended.2, session.shelf⟩) := by
  intro dialogue ended
  have same := session.step_consult operation plain kept
  have calm : (dialogue.hold session.heap).Calm session.heap := by
    refine ⟨session.step_survived operation plain kept smooth.survived, ?_⟩
    have unrefused := smooth.unrefused
    rw [same] at unrefused
    exact unrefused
  obtain ⟨granted, served⟩ := Dialogue.hold_calm (session.consult_candid operation) calm
  obtain ⟨answer, object⟩ := Prod.mk.inj granted
  rw [same, ← served]
  exact congrArg₂ (fun answer object => (replied answer, Session.mk _ object session.shelf))
    answer object

end Steps

section Simulation

/-- The same operations in the same order, but for those about hooks. -/
inductive Abreast : List (Operation κ) → List (Operation κ) → Prop
  | done : Abreast [] []
  | early {operation : Operation κ} {these those : List (Operation κ)}
      (hook : operation.isHook = true) (rest : Abreast these those) :
      Abreast (operation :: these) those
  | late {operation : Operation κ} {these those : List (Operation κ)}
      (hook : operation.isHook = true) (rest : Abreast these those) :
      Abreast these (operation :: those)
  | both {operation : Operation κ} {these those : List (Operation κ)}
      (plain : operation.isHook = false) (rest : Abreast these those) :
      Abreast (operation :: these) (operation :: those)

theorem abreast_filter (these those : List (Operation κ))
    (same : these.filter (!·.isHook) = those.filter (!·.isHook)) : Abreast these those := by
  induction these generalizing those with
  | nil =>
      induction those with
      | nil => exact .done
      | cons operation rest ih =>
          by_cases hook : operation.isHook = true
          · rw [List.filter_cons_of_neg (by simp [hook])] at same
            exact .late hook (ih same)
          · simp [hook] at same
  | cons operation rest ih =>
      by_cases hook : operation.isHook = true
      · rw [List.filter_cons_of_neg (by simp [hook])] at same
        exact .early hook (ih those same)
      · rw [List.filter_cons_of_pos (by simp [hook])] at same
        -- On the other list, up to the operation that is the first here.
        induction those with
        | nil => cases same
        | cons other others ihOthers =>
            by_cases hookToo : other.isHook = true
            · rw [List.filter_cons_of_neg (by simp [hookToo])] at same
              exact .late hookToo (ihOthers same)
            · rw [List.filter_cons_of_pos (by simp [hookToo])] at same
              obtain ⟨rfl, tails⟩ := List.cons.inj same
              exact .both (Bool.eq_false_iff.mpr hook) (ih others tails)

structure Simulation (related : Session κ → Session κ → Prop) (allowed : Operation κ → Prop) :
    Prop where
  early : ∀ one other operation, related one other → allowed operation →
    operation.isHook = true → one.Smooth operation → related (one.step operation).2 other
  late : ∀ one other operation, related one other → allowed operation →
    operation.isHook = true → other.Smooth operation → related one (other.step operation).2
  both : ∀ one other operation, related one other → operation.isHook = false →
    one.Smooth operation → other.Smooth operation →
      (one.step operation).1 = (other.step operation).1 ∧
        related (one.step operation).2 (other.step operation).2

theorem transcripts_related {related : Session κ → Session κ → Prop}
    {allowed : Operation κ → Prop} (simulation : Simulation related allowed)
    {these those : List (Operation κ)} (abreast : Abreast these those) {one other : Session κ}
    (start : related one other) (first : ∀ operation ∈ these, allowed operation)
    (second : ∀ operation ∈ those, allowed operation) (undisturbed : one.Undisturbed these)
    (undisturbedToo : other.Undisturbed those) :
    List.Forall₂ (fun left right => left.1 = right.1 ∧ related left.2 right.2)
      (one.transcript these) (other.transcript those) := by
  induction abreast generalizing one other with
  | done => exact .nil
  | early hook rest ih =>
      obtain ⟨smooth, later⟩ := undisturbed_cons undisturbed
      obtain ⟨head, tail⟩ := List.forall_mem_cons.mp first
      simp only [transcript, hook, if_true]
      exact ih (simulation.early one other _ start head hook smooth) tail second later
        undisturbedToo
  | late hook rest ih =>
      obtain ⟨smooth, later⟩ := undisturbed_cons undisturbedToo
      obtain ⟨head, tail⟩ := List.forall_mem_cons.mp second
      simp only [transcript, hook, if_true]
      exact ih (simulation.late one other _ start head hook smooth) first tail undisturbed later
  | both plain rest ih =>
      obtain ⟨smooth, later⟩ := undisturbed_cons undisturbed
      obtain ⟨smoothToo, laterToo⟩ := undisturbed_cons undisturbedToo
      obtain ⟨replies, stepped⟩ := simulation.both one other _ start plain smooth smoothToo
      simp only [transcript, plain, Bool.false_eq_true, if_false]
      exact .cons ⟨replies, stepped⟩ (ih stepped (List.forall_mem_cons.mp first).2
        (List.forall_mem_cons.mp second).2 later laterToo)

end Simulation

section Hooks
variable {β : Type} {gauge : Gauge β} {lends : Prop} {one other : Session κ}

structure Alike (one other : Session κ) : Prop where
  objects_eq : one.objects = other.objects
  ceiling_eq : one.heap.ceiling = other.heap.ceiling

theorem alike_hook (session : Session κ) (operation : Operation κ)
    (hook : operation.isHook = true) : Alike (session.step operation).2 session :=
  ⟨(session.step_hook operation hook).1, (session.step_later operation).ceiling_eq⟩

theorem Alike.symm (alike : Alike one other) : Alike other one :=
  ⟨alike.objects_eq.symm, alike.ceiling_eq.symm⟩

theorem Alike.trans {third : Session κ} (first : Alike one other) (second : Alike other third) :
    Alike one third :=
  ⟨first.objects_eq.trans second.objects_eq, first.ceiling_eq.trans second.ceiling_eq⟩

theorem alike_both (alike : Alike one other) (operation : Operation κ)
    (plain : operation.isHook = false) (smooth : one.Smooth operation)
    (smoothToo : other.Smooth operation) :
    (one.step operation).1 = (other.step operation).1 ∧
      Alike (one.step operation).2 (other.step operation).2 := by
  have ceiling : (one.step operation).2.heap.ceiling = (other.step operation).2.heap.ceiling := by
    rw [(one.step_later operation).ceiling_eq, (other.step_later operation).ceiling_eq]
    exact alike.ceiling_eq
  by_cases reset : operation = .resetCounters
  · subst reset
    exact ⟨rfl, alike.objects_eq, ceiling⟩
  · have first := one.step_smooth operation plain reset smooth
    have second := other.step_smooth operation plain reset smoothToo
    rw [consult_objects alike.objects_eq, alike.ceiling_eq] at first
    refine ⟨?_, ?_, ceiling⟩
    · rw [first, second]
    · rw [first, second]

structure Twins (gauge : Gauge β) (lends : Prop) (one other : Session κ) : Prop where
  alike : Alike one other
  read_eq : gauge.read one.heap.counters = gauge.read other.heap.counters
  kept : one.Kept (Plan.Discreet lends)
  keptToo : other.Kept (Plan.Discreet lends)

theorem twins_simulation (blind : lends → gauge.Blind) :
    Simulation (Twins gauge lends : Session κ → Session κ → Prop) fun operation =>
      ∀ plan, operation = .installHook plan → plan.Discreet lends where
  early one other operation twins obeys hook _ := by
    refine ⟨(one.alike_hook operation hook).trans twins.alike, ?_,
      step_kept twins.kept operation obeys, twins.keptToo⟩
    rw [(one.step_hook operation hook).2]
    exact twins.read_eq
  late one other operation twins obeys hook _ := by
    refine ⟨twins.alike.trans (other.alike_hook operation hook).symm, ?_, twins.kept,
      step_kept twins.keptToo operation obeys⟩
    rw [(other.step_hook operation hook).2]
    exact twins.read_eq
  both one other operation twins plain smooth smoothToo := by
    obtain ⟨replies, alike⟩ := alike_both twins.alike operation plain smooth smoothToo
    have unmade : ∀ plan, operation = .installHook plan → plan.Discreet lends := by
      rintro plan rfl
      cases plain
    refine ⟨replies, alike, ?_, step_kept twins.kept operation unmade,
      step_kept twins.keptToo operation unmade⟩
    by_cases reset : operation = .resetCounters
    · subst reset
      rfl
    · have first := one.step_smooth operation plain reset smooth
      have second := other.step_smooth operation plain reset smoothToo
      rw [consult_objects twins.alike.objects_eq, twins.alike.ceiling_eq] at first
      have reads := Heap.serveAll_moved blind
        ((other.consult operation).wishes other.heap.ceiling) one.heap twins.kept.watched
      have readsToo := Heap.serveAll_moved blind
        ((other.consult operation).wishes other.heap.ceiling) other.heap twins.keptToo.watched
      rw [first, second]
      exact reads.trans (twins.read_eq ▸ readsToo.symm)

structure Level (one other : Session κ) : Prop where
  alike : Alike one other
  sound : ∃ gone goneBlocks, one.Sound one.heap.ceiling gone goneBlocks ∧
    other.Sound other.heap.ceiling gone goneBlocks
  unrefused : one.heap.refusals = []
  unrefusedToo : other.heap.refusals = []

theorem stray_objects (alike : Alike one other) (operation : Operation κ) :
    one.stray operation = other.stray operation := by
  cases operation <;>
    simp only [stray, looseAt, object?, current?, alike.objects_eq]

theorem stray_hook (session : Session κ) (operation : Operation κ)
    (hook : operation.isHook = true) : session.stray operation = 0 := by
  cases operation <;> first | rfl | cases hook

theorem sound_step {session : Session κ} {gone goneBlocks : Nat}
    (sound : session.Sound session.heap.ceiling gone goneBlocks) (operation : Operation κ)
    (smooth : session.Smooth operation) :
    (session.step operation).2.Sound (session.step operation).2.heap.ceiling
      (gone + session.stray operation) (goneBlocks + occupied (session.stray operation)) := by
  rw [(session.step_later operation).ceiling_eq]
  exact step_sound sound operation smooth.survived

theorem level_simulation : Simulation (Level : Session κ → Session κ → Prop) fun _ => True where
  early one other operation level _ hook smooth := by
    obtain ⟨gone, goneBlocks, sound, soundToo⟩ := level.sound
    have stepped := sound_step sound operation smooth
    rw [stray_hook one operation hook] at stepped
    exact ⟨(one.alike_hook operation hook).trans level.alike,
      ⟨gone, goneBlocks, stepped, soundToo⟩, smooth.unrefused.trans level.unrefused,
      level.unrefusedToo⟩
  late one other operation level _ hook smooth := by
    obtain ⟨gone, goneBlocks, sound, soundToo⟩ := level.sound
    have stepped := sound_step soundToo operation smooth
    rw [stray_hook other operation hook] at stepped
    exact ⟨level.alike.trans (other.alike_hook operation hook).symm,
      ⟨gone, goneBlocks, sound, stepped⟩, level.unrefused,
      smooth.unrefused.trans level.unrefusedToo⟩
  both one other operation level plain smooth smoothToo := by
    obtain ⟨gone, goneBlocks, sound, soundToo⟩ := level.sound
    obtain ⟨replies, alike⟩ := alike_both level.alike operation plain smooth smoothToo
    have stepped := sound_step sound operation smooth
    rw [stray_objects level.alike operation] at stepped
    exact ⟨replies, alike, ⟨_, _, stepped, sound_step soundToo operation smoothToo⟩,
      smooth.unrefused.trans level.unrefused, smoothToo.unrefused.trans level.unrefusedToo⟩

theorem level_reads (level : Level one other) (exact : one.heap.Exact)
    (exactToo : other.heap.Exact) :
    one.heap.counters.live = other.heap.counters.live ∧
      (one.heap.counters.allocations : Int) - one.heap.counters.frees =
        other.heap.counters.allocations - other.heap.counters.frees := by
  obtain ⟨gone, goneBlocks, sound, soundToo⟩ := level.sound
  have live := sound.balanced.live_eq exact
  have liveToo := soundToo.balanced.live_eq exactToo
  have blocks := sound.balanced.blocks_eq exact
  have blocksToo := soundToo.balanced.blocks_eq exactToo
  simp only [Heap.refusedBytes, Heap.refusedBlocks, level.unrefused, level.unrefusedToo,
    bytesHeld, blocksHeld, weigh, level.alike.objects_eq] at live liveToo blocks blocksToo
  omega

end Hooks

theorem fresh_alike {one other : Session κ} (fresh : one.Fresh) (freshToo : other.Fresh)
    (ceiling : one.heap.ceiling = other.heap.ceiling) : Alike one other :=
  ⟨fresh.bare.trans freshToo.bare.symm, ceiling⟩

theorem fresh_unrefused {session : Session κ} (fresh : session.Fresh) :
    session.heap.refusals = [] := by
  simp [Heap.refusals, fresh.silent]

theorem twins_related {β : Type} {gauge : Gauge β} {lends : Prop} (blind : lends → gauge.Blind)
    {one other : Session κ} (fresh : one.Fresh) (freshToo : other.Fresh)
    (ceiling : one.heap.ceiling = other.heap.ceiling) {these those : List (Operation κ)}
    (abreast : Abreast these those) (undisturbed : one.Undisturbed these)
    (undisturbedToo : other.Undisturbed those) (hooked : one.Hooked (Plan.Discreet lends) these)
    (hookedToo : other.Hooked (Plan.Discreet lends) those) :
    List.Forall₂ (fun left right => left.1 = right.1 ∧ Twins gauge lends left.2 right.2)
      (one.transcript these) (other.transcript those) := by
  have start : Twins gauge lends one other :=
    ⟨fresh_alike fresh freshToo ceiling, by rw [fresh.zero, freshToo.zero], hooked.kept,
      hookedToo.kept⟩
  exact transcripts_related (twins_simulation blind) abreast start (hooked_coming hooked)
    (hooked_coming hookedToo) undisturbed undisturbedToo

/-- Two runs that differ only in their hooks, none of which fails, have the same replies and the
same objects after every operation. Where the hooks only watch the meters are equal; where they also
borrow, the meters differ at most in the peak, and in as many allocations as frees. -/
theorem transcripts_agree (one other : Session κ) (fresh : one.Fresh) (freshToo : other.Fresh)
    (ceiling : one.heap.ceiling = other.heap.ceiling) (these those : List (Operation κ))
    (same : these.filter (!·.isHook) = those.filter (!·.isHook))
    (undisturbed : one.Undisturbed these) (undisturbedToo : other.Undisturbed those) :
    let Agree (relation : Reply × Session κ → Reply × Session κ → Prop) :=
      List.Forall₂ relation (one.transcript these) (other.transcript those)
    Agree (fun left right => left.1 = right.1 ∧ left.2.objects = right.2.objects) ∧
      (one.Hooked Plan.Quiet these → other.Hooked Plan.Quiet those →
        Agree fun left right => left.2.heap.counters = right.2.heap.counters) ∧
      (one.Hooked Plan.Borrowing these → other.Hooked Plan.Borrowing those →
        Agree fun left right =>
          let first := left.2.heap
          let second := right.2.heap
          first.counters.grows = second.counters.grows ∧
            first.counters.shrinks = second.counters.shrinks ∧
            (first.Exact → second.Exact →
              first.counters.live = second.counters.live ∧
                (first.counters.allocations : Int) - first.counters.frees =
                  second.counters.allocations - second.counters.frees)) := by
  intro Agree
  have abreast := abreast_filter these those same
  have alike := fresh_alike fresh freshToo ceiling
  have anything (operations : List (Operation κ)) : ∀ operation ∈ operations, True :=
    fun _ _ => trivial
  have level : Level one other :=
    ⟨alike, ⟨0, 0, fresh_sound fresh, fresh_sound freshToo⟩, fresh_unrefused fresh,
      fresh_unrefused freshToo⟩
  have levels := transcripts_related level_simulation abreast level (anything these)
    (anything those) undisturbed undisturbedToo
  refine ⟨?_, ?_, ?_⟩
  · refine levels.imp ?_
    rintro left right ⟨replies, related⟩
    exact ⟨replies, related.alike.objects_eq⟩
  · intro quiet quietToo
    have blind : False → Gauge.all.Blind := False.elim
    have twins := twins_related blind fresh freshToo ceiling abreast undisturbed undisturbedToo
      quiet quietToo
    exact twins.imp fun _ _ related => related.2.read_eq
  · intro borrowing borrowingToo
    have twins := twins_related (fun _ => Gauge.changes_blind) fresh freshToo ceiling abreast
      undisturbed undisturbedToo borrowing borrowingToo
    refine List.Forall₂.mp ?_ levels twins
    rintro left right ⟨-, level⟩ ⟨-, twin⟩
    obtain ⟨grows, shrinks⟩ := Prod.mk.inj twin.read_eq
    exact ⟨grows, shrinks, level_reads level⟩

def work (early late : List Operation) : List Operation :=
  early ++ [.create "main" .chunk, .edit ⟨.chunk, "main"⟩ (.write (List.replicate 9 ⟨0, 1⟩)),
    .create "raw" (.block .u16), .edit ⟨.block, "raw"⟩ (.reallocate 0 6)] ++
  late ++ [.edit ⟨.block, "raw"⟩ (.reallocate 6 4), .edit ⟨.block, "raw"⟩ (.reallocate 7 8),
    .discard ⟨.chunk, "main"⟩]

theorem transcripts_agree_work :
    let watched := work [.installHook (.swap 1 .record)] [.takeHook]
    let lent := work [.installHook (.reenter 32)] [.takeHook, .restoreHook, .restoreHook]
    let bare := work [] []
    List.Forall₂ (fun left right => left.2.heap.counters = right.2.heap.counters)
        (({} : Session).transcript watched) (({} : Session).transcript bare) ∧
      List.Forall₂ (fun left right => left.1 = right.1 ∧ left.2.objects = right.2.objects)
        (({} : Session).transcript lent) (({} : Session).transcript bare) ∧
      List.Forall₂
        (fun left right =>
          left.2.heap.counters.grows = right.2.heap.counters.grows ∧
            left.2.heap.counters.shrinks = right.2.heap.counters.shrinks ∧
            (left.2.heap.Exact → right.2.heap.Exact →
              left.2.heap.counters.live = right.2.heap.counters.live ∧
                (left.2.heap.counters.allocations : Int) - left.2.heap.counters.frees =
                  right.2.heap.counters.allocations - right.2.heap.counters.frees))
        (({} : Session).transcript lent) (({} : Session).transcript bare) := by
  have unhooked (good : Plan → Prop) : ({} : Session).Hooked good (work [] []) :=
    ⟨kept_new good, fun _ member => by simp [work] at member⟩
  intro watched lent bare
  have first := transcripts_agree ({} : Session) {} ⟨rfl, rfl, rfl⟩ ⟨rfl, rfl, rfl⟩ rfl watched bare
    rfl (by decide +kernel) (by decide +kernel)
  have second := transcripts_agree ({} : Session) {} ⟨rfl, rfl, rfl⟩ ⟨rfl, rfl, rfl⟩ rfl lent bare
    rfl (by decide +kernel) (by decide +kernel)
  refine ⟨first.2.1 ⟨kept_new _, ?_⟩ (unhooked _), second.1,
    second.2.2 ⟨kept_new _, ?_⟩ (unhooked _)⟩
  · intro plan member
    have same : plan = .swap 1 .record := by simpa [watched, work] using member
    exact same ▸ Plan.swap_discreet 1 (Plan.record_discreet _)
  · intro plan member
    have same : plan = .reenter 32 := by simpa [lent, work] using member
    exact same ▸ Plan.reenter_borrowing 32

end MeteredChunk.Session
