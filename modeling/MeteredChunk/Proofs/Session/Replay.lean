import MeteredChunk.Proofs.Dialogue.Recording
import MeteredChunk.Proofs.Session.Delivery
import MeteredChunk.Proofs.Session.Interleaving

/-!
Replaying the meter from the log of a recording hook.
-/

namespace MeteredChunk

/-! ## Reachable sessions

Sessions that a program can get to, and what is so in all of them: the objects keep the
balance of the heap, and nothing was written down by a hook that is still to be made.
-/

namespace Session

variable {κ : Type} [Kinds κ] {session : Session κ}

/-- What operations can make of a new session without ending the program. -/
inductive Reachable : Session κ → Prop
  | new {session : Session κ} (fresh : session.Fresh) (numbered : session.Numbered) :
      Reachable session
  | step {session : Session κ} (before : Reachable session) (operation : Operation κ)
      (survived : (session.step operation).1.isFatal = false) :
      Reachable (session.step operation).2

theorem run_reachable (operations : List (Operation κ)) (reachable : session.Reachable)
    (survived : session.Survives operations) : (session.run operations).2.Reachable := by
  induction operations generalizing session with
  | nil => exact reachable
  | cons operation rest ih =>
      obtain ⟨first, later⟩ := (survives_cons session operation rest).mp survived
      exact ih (.step reachable operation first) later

theorem Reachable.sound (reachable : session.Reachable) :
    ∃ ceiling gone goneBlocks, session.Sound ceiling gone goneBlocks := by
  induction reachable with
  | new fresh _ => exact ⟨_, _, _, fresh_sound fresh⟩
  | step _ operation survived ih =>
      obtain ⟨ceiling, gone, goneBlocks, sound⟩ := ih
      exact ⟨_, _, _, step_sound sound operation survived⟩

structure Authored (session : Session κ) : Prop where
  authored : session.heap.Authored 0
  shelved : ∀ hook ∈ session.shelf, hook.number < session.heap.hooks

theorem step_authored (authored : session.Authored) (operation : Operation κ) :
    (session.step operation).2.Authored := by
  have after := step_keeps (fun heap shelf => Authored ⟨heap, session.objects, shelf⟩) operation
    (fun heap shelf plan _ before => ⟨Heap.authored_enlist plan before.authored,
      fun hook member => (before.shelved hook member).trans (Nat.lt_succ_self _)⟩)
    (fun heap shelf hook there before => ⟨Heap.authored_vacate before.authored,
      List.forall_mem_cons.mpr ⟨before.authored.slotted hook there, before.shelved⟩⟩)
    (fun heap shelf hook before =>
      have both := List.forall_mem_cons.mp before.shelved
      ⟨Heap.authored_install hook both.1 before.authored, both.2⟩)
    (fun heap shelf before => ⟨Heap.authored_resetCounters before.authored, before.shelved⟩)
    (fun heap shelf dialogue before =>
      ⟨dialogue.hold_keeps Heap.serve_authored heap before.authored,
      fun hook member => (before.shelved hook member).trans_le (dialogue.hold_later heap).hooks_le⟩)
    session authored
  exact ⟨after.authored, after.shelved⟩

theorem Reachable.authored (reachable : session.Reachable) : session.Authored := by
  induction reachable with
  | new fresh numbered =>
      refine ⟨⟨Nat.zero_le _, fun number entry member => ?_, fun hook there => ?_⟩, fun hook member => ?_⟩
      · rw [fresh.silent] at member
        cases member
      · have watching : Heap.watcher _ = some hook.number := congrArg (Option.map Hook.number) there
        exact numbered.known _ ((mem_numbers _).mpr (.inl watching))
      · exact numbered.known _ ((mem_numbers _).mpr (.inr ⟨hook, member, rfl⟩))
  | step _ operation _ ih => exact step_authored ih operation

/-- A hook that comes now finds nothing in the log of its number. -/
theorem Reachable.log_new (reachable : session.Reachable) :
    session.heap.log session.heap.hooks = [] :=
  reachable.authored.authored.log_new _ le_rfl

end Session

/-! ## Replay

The log of a hook that only records, over a run of a session. While the hook is in the
slot, every request of the operations goes into its log, and nothing else moves the
meter. So the log can be replayed: from the meter at first, the requests in it give all
the readings that it has, and the last one.
-/

namespace Block

variable {α : Type} [Element α]

/-- The sizes of a call fail the checks, or leave nothing to do. -/
def Idle (block : Block α) : (old new : Except Fault Nat) → Prop
  | .ok old, .ok new => (∃ fault, block.checked old new = .error fault) ∨ old = new
  | _, _ => True

theorem reallocate_idle (block : Block α) (old new : Nat) (heap : Heap)
    (idle : block.Idle (.ok old) (.ok new)) : (block.reallocate old new heap).heap = heap := by
  unfold reallocate
  cases passes : block.checked old new with
  | error fault => rfl
  | ok request =>
      rcases idle with ⟨fault, fails⟩ | same
      · cases passes.symm.trans fails
      · simp only [same, if_true]
        rfl

theorem grow_idle (block : Block α) (old new : Nat) (heap : Heap)
    (idle : block.Idle (arrayBytes α old) (arrayBytes α new)) :
    (block.grow old new heap).heap = heap := by
  unfold grow
  cases sized : arrayBytes α old with
  | error fault => rfl
  | ok oldBytes =>
      cases sizedToo : arrayBytes α new with
      | error fault => rfl
      | ok newBytes =>
          rw [sized, sizedToo] at idle
          exact reallocate_idle block oldBytes newBytes heap idle

theorem release_idle (block : Block α) (old : Nat) (heap : Heap)
    (idle : block.Idle (arrayBytes α old) (.ok 0)) : (block.release old heap).heap = heap := by
  unfold release
  cases sized : arrayBytes α old with
  | error fault => rfl
  | ok oldBytes =>
      rw [sized] at idle
      exact reallocate_idle block oldBytes 0 heap idle

end Block

theorem Heap.serve_same (heap : Heap) (size : Nat) : heap.serve ⟨size, size⟩ = (.ok (), heap) := by
  have nothing : Request.kind? ⟨size, size⟩ = none := if_pos rfl
  rw [serve, Heap.request, nothing]

namespace Session

variable {κ : Type} [Kinds κ] {session : Session κ}

def bytesOf (objects : Objects κ) : Nat := (objects.map fun entry => entry.2.bytesHeld).sum

theorem consult_backed {ceiling held : Nat} (distinct : (session.objects.map Prod.fst).Nodup)
    (operation : Operation κ) (enough : session.bytesHeld ≤ held) :
    (session.consult operation).Backed ceiling bytesOf held := by
  have current (place : Place) (object : Object κ) (found : session.current? place = some object) :
      (session.remove place).bytesHeld + object.bytesHeld ≤ held :=
    (weigh_current Object.bytesHeld
      (fun family object empty => (Object.ofFamily?_held family object empty).1) distinct place
      object found).symm.le.trans enough
  have parted (place : Place) :
      (session.remove place).bytesHeld + bytesAt (session.object? place) ≤ held :=
    (weigh_object Object.bytesHeld distinct place).symm.le.trans enough
  have placed (place : Place) (object : Object κ) :
      bytesOf (session.put place object).objects =
        object.bytesHeld + (session.remove place).bytesHeld :=
    weigh_put Object.bytesHeld session place object
  cases operation with
  | create name blueprint =>
      simp only [consult]
      cases built : blueprint.build with
      | error fault => exact enough
      | ok object =>
          have bare : object.bytesHeld = 0 := (blueprint.build_held object built).1
          apply giving_backed
          rw [placed, bare, Nat.zero_add, Nat.add_comm]
          exact parted _
  | visit place =>
      simp only [consult]
      split
      · rename_i object found
        have whole := current place object found
        rw [Nat.add_comm, ← placed] at whole
        exact whole
      · exact enough
  | edit place edit =>
      simp only [consult]
      split
      · rename_i dialogue found
        obtain ⟨object, there, fits⟩ := Option.bind_eq_some_iff.mp found
        have whole := current place object there
        rw [Nat.add_comm] at whole
        exact Dialogue.backed_within (session.remove place).bytesHeld
          (object.editing_backed edit dialogue fits le_rfl) (fun object => (placed place object).le)
          whole
      · exact enough
  | discard place =>
      apply giving_backed
      rw [Nat.add_comm]
      exact parted place
  | installHook plan => exact enough
  | takeHook => exact enough
  | restoreHook => exact enough
  | resetCounters => exact enough

section Steps
variable {number : Nat}

/-- The requests of an operation about objects are recorded, and the meter still covers what the
objects hold. -/
theorem step_recorded (reachable : session.Reachable) (records : session.heap.Records number)
    (covered : session.bytesHeld ≤ session.heap.counters.live) (operation : Operation κ)
    (about : operation.place?.isSome = true)
    (survived : (session.step operation).1.isFatal = false)
    (fit : ∀ issue ∈ (session.consult operation).issues session.heap,
      issue.request.Small ∧ issue.InRange) :
    let stepped := (session.step operation).2
    session.heap.Recorded number
        (((session.consult operation).issues session.heap).map Issue.request) stepped.heap ∧
      stepped.bytesHeld ≤ stepped.heap.counters.live := by
  obtain ⟨place, located⟩ := Option.isSome_iff_exists.mp about
  obtain ⟨plain, kept⟩ := Operation.plain_place located
  obtain ⟨ceiling, gone, goneBlocks, sound⟩ := reachable.sound
  have same := session.step_consult operation plain kept
  have fits := Dialogue.issues_fit (session.consult_candid operation)
    (session.step_survived operation plain kept survived) fun issue member => (fit issue member).1
  rw [same]
  exact Dialogue.hold_recorded records (consult_backed sound.distinct operation le_rfl) covered
    fun issue member => ⟨fits issue member, (fit issue member).2⟩

theorem run_recorded (operations : List (Operation κ)) (reachable : session.Reachable)
    (records : session.heap.Records number)
    (covered : session.bytesHeld ≤ session.heap.counters.live)
    (about : ∀ operation ∈ operations, operation.place?.isSome = true)
    (survived : session.Survives operations)
    (fit : ∀ issue ∈ session.issues operations, issue.request.Small ∧ issue.InRange) :
    session.heap.Recorded number ((session.issues operations).map Issue.request)
      (session.run operations).2.heap := by
  induction operations generalizing session with
  | nil => exact Heap.recorded_refl records
  | cons operation rest ih =>
      obtain ⟨here, others⟩ := List.forall_mem_cons.mp about
      obtain ⟨first, later⟩ := (survives_cons session operation rest).mp survived
      obtain ⟨recorded, coveredToo⟩ := step_recorded reachable records covered operation here first
        fun issue member => fit issue (List.mem_append_left _ member)
      have ran := ih (.step reachable operation first) recorded.records coveredToo others later
        fun issue member => fit issue (List.mem_append_right _ member)
      rw [issues, List.map_append]
      exact recorded.trans ran

end Steps

/-- An operation that makes no request does nothing to the heap. -/
theorem step_silent (session : Session κ) (operation : Operation κ)
    (about : operation.place?.isSome = true)
    (silent : (session.consult operation).issues session.heap = []) :
    (session.step operation).2.heap = session.heap := by
  obtain ⟨place, located⟩ := Option.isSome_iff_exists.mp about
  obtain ⟨plain, kept⟩ := Operation.plain_place located
  rw [session.step_consult operation plain kept]
  dsimp only
  rw [Dialogue.hold_heap, silent]
  rfl

/-- The log of a recording hook over a run, from any moment at which the hook is in the slot and the
meter covers what the objects hold. Its new lines are the effective requests of the operations, in
order. Replayed from the meter at first, they give the meter of every line and the meter in the end;
each line tells the kind of its request and the change of live bytes. Calls that fail the checks and
requests that keep the size do nothing to the heap. -/
theorem run_replays (start : Session κ) (reachable : start.Reachable) (hook : Hook)
    (there : start.heap.slot = some hook) (recording : hook.plan.Recording)
    (operations : List (Operation κ))
    (about : ∀ operation ∈ operations, operation.place?.isSome = true)
    (survived : start.Survives operations)
    (covered : start.bytesHeld ≤ start.heap.counters.live)
    (fit : ∀ issue ∈ start.issues operations, issue.request.Small ∧ issue.InRange) :
    let taken := (start.run operations).2.step .takeHook
    let first := start.heap.counters
    let last := taken.2.heap.counters
    taken.1 = .found true ∧
      (∀ earlier plan, Reachable earlier → start = (earlier.step (.installHook plan)).2 →
        start.heap.log hook.number = []) ∧
      (∃ lines : List Line,
        taken.2.heap.log hook.number =
            start.heap.log hook.number ++ lines.map (fun line => .seen line.1 line.2) ∧
          Chronicle.requests lines = (start.issues operations).map Issue.request ∧
          first.replay (Chronicle.requests lines) = last ∧
          (lines.map Prod.snd).sum = (last.live : Int) - first.live ∧
          ∀ past line rest, lines = past ++ line :: rest →
            let before := Chronicle.latest first past
            line.1.Follows before line.2 ∧
              first.replay (Chronicle.requests (past ++ [line])) = line.1.counters ∧
              ∀ kind, line.1.counters.events kind =
                before.events kind + if kind = line.1.kind then 1 else 0) ∧
      (∀ (session : Session κ) operation, operation.place?.isSome = true →
        (session.consult operation).issues session.heap = [] →
          (session.step operation).2.heap = session.heap) ∧
      (∀ (α : Type) [Element α] (block : Block α) (heap : Heap) (old new : Nat),
        (block.Idle (.ok old) (.ok new) → (block.reallocate old new heap).heap = heap) ∧
          (block.Idle (arrayBytes α old) (arrayBytes α new) →
            (block.grow old new heap).heap = heap) ∧
          (block.Idle (arrayBytes α old) (.ok 0) → (block.release old heap).heap = heap)) ∧
      ∀ (heap : Heap) (size : Nat), heap.serve ⟨size, size⟩ = (.ok (), heap) := by
  intro taken first last
  have recorded := run_recorded operations reachable ⟨hook, there, rfl, recording⟩ covered about
    survived fit
  obtain ⟨left, slot, -, -⟩ := recorded.records
  obtain ⟨lines, logged, asked, chronicle⟩ := recorded.chronicled
  have taking : taken = (.found true,
      { (start.run operations).2 with
        heap := (start.run operations).2.heap.vacate, shelf := left :: (start.run operations).2.shelf }) := by
    simp only [taken, step, slot]
  have same : last = (start.run operations).2.heap.counters := by
    simp only [last, taking]
    rfl
  refine ⟨by rw [taking], ?_, ⟨lines, ?_, asked, ?_, ?_, ?_⟩, step_silent, ?_, Heap.serve_same⟩
  · rintro earlier plan before rfl
    cases there
    exact before.log_new
  · rw [taking]
    exact logged
  · rw [same]
    exact chronicle.replay_eq
  · rw [same]
    exact chronicle.sum_eq
  · rintro past line rest rfl before
    obtain ⟨-, follows⟩ := chronicle.cut
    refine ⟨follows, chronicle.replay_line, fun kind => ?_⟩
    rw [follows.counted]
    exact Counters.events_account before line.1.kind kind line.1.request
  · intro α _ block heap old new
    exact ⟨block.reallocate_idle old new heap, block.grow_idle old new heap,
      block.release_idle old heap⟩

def groundwork : List Operation := [.edit ⟨.pool, "main"⟩ (.add [⟨0⟩])]

def chores : List Operation :=
  [.edit ⟨.chunk, "main"⟩ (.write [⟨0, 1⟩]), .create "raw" (.block .u16),
    .edit ⟨.block, "raw"⟩ (.reallocate 0 16), .edit ⟨.block, "raw"⟩ (.reallocate 16 32),
    .edit ⟨.block, "raw"⟩ (.reallocate 32 32), .edit ⟨.block, "raw"⟩ (.reallocate 32 8),
    .edit ⟨.block, "raw"⟩ (.reallocate 8 7), .edit ⟨.block, "raw"⟩ (.reallocate 4 8),
    .edit ⟨.pool, "main"⟩ .free, .discard ⟨.chunk, "main"⟩]

theorem run_replays_chores :
    let earlier := (({} : Session).run groundwork).2
    let start := (earlier.step (.installHook .record)).2
    let last := ((start.run chores).2.step .takeHook).2.heap
    ∃ lines : List Line,
      last.log 0 = lines.map (fun line => .seen line.1 line.2) ∧
        (Chronicle.requests lines).map (fun request => (request.old, request.new)) =
          [(0, 64), (0, 16), (16, 32), (32, 8), (64, 0), (64, 0)] ∧
        start.heap.counters.replay (Chronicle.requests lines) = last.counters ∧
        (lines.map Prod.snd).sum = -56 := by
  intro earlier start last
  have before : earlier.Reachable :=
    run_reachable groundwork (.new ⟨rfl, rfl, rfl⟩ ⟨List.nodup_nil, fun _ member => by cases member⟩)
      (by decide +kernel)
  obtain ⟨-, new, ⟨lines, logged, asked, replayed, moved, -⟩, -⟩ :=
    run_replays start (.step before _ rfl) ⟨0, .record, 0⟩ rfl Plan.record_recording chores
      (by decide) (by decide +kernel) (by decide +kernel) (by decide +kernel)
  rw [new earlier .record before rfl, List.nil_append] at logged
  refine ⟨lines, logged, ?_, replayed, ?_⟩
  · rw [asked]
    decide +kernel
  · rw [moved]
    decide +kernel

end Session

end MeteredChunk
