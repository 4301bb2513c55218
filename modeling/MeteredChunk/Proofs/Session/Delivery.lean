import MeteredChunk.Proofs.Dialogue.Delivery
import MeteredChunk.Proofs.Session.Dialogue

/-!
Every request of a run is told once, to the hook that is in the slot when it is made,
and in the order in which the requests come. Hooks may be put in, taken out and put
back between operations, and may do all that a call allows; they only have to log.
-/

namespace MeteredChunk

def Heap.calls (heap : Heap) : List (Nat × Notice) :=
  heap.history.toList.filterMap Happening.call?

namespace Session

variable {κ : Type} [Kinds κ] {session : Session κ}

/-- The requests that the operations make themselves, each with the heap that it is made on. -/
def issues (session : Session κ) : List (Operation κ) → List Issue
  | [] => []
  | operation :: rest =>
      (session.consult operation).issues session.heap ++ (session.step operation).2.issues rest

def numbers (session : Session κ) : List Nat :=
  session.heap.watcher.toList ++ session.shelf.map Hook.number

/-- No two hooks have the same number, and all numbers are below the next one. -/
structure Numbered (session : Session κ) : Prop where
  distinct : session.numbers.Nodup
  known : ∀ number ∈ session.numbers, number < session.heap.hooks

structure Absent (number : Nat) (session : Session κ) : Prop where
  known : number < session.heap.hooks
  absent : number ∉ session.numbers

theorem numbered_new : ({} : Session κ).Numbered :=
  ⟨List.nodup_nil, fun _ member => by cases member⟩

theorem mem_numbers (number : Nat) :
    number ∈ session.numbers ↔
      session.heap.watcher = some number ∨ ∃ hook ∈ session.shelf, hook.number = number := by
  rw [numbers, List.mem_append, Option.mem_toList, List.mem_map]

/-- A hook that was in the slot for a request is not on the shelf, so it is gone unless it is in
the slot again. -/
theorem parted_absent {issue : Issue} {objects : Objects κ} {shelf : List Hook}
    (numbered : Numbered ⟨issue.heap, objects, shelf⟩) (hook : Hook)
    (there : issue.heap.slot = some hook) (away : issue.outcome.2.watcher ≠ some hook.number) :
    Absent hook.number (⟨issue.outcome.2, objects, shelf⟩ : Session κ) := by
  have watching : issue.heap.watcher = some hook.number := by
    rw [Heap.watcher, there, Option.map_some]
  obtain ⟨-, -, apart⟩ := List.nodup_append.mp numbered.distinct
  have known := numbered.known hook.number ((mem_numbers _).mpr (.inl watching))
  have more := (issue.heap.serve_later issue.request).hooks_le
  refine ⟨known.trans_le more, fun member => ?_⟩
  rcases (mem_numbers _).mp member with back | ⟨other, shelf, same⟩
  · exact away back
  · exact apart hook.number (Option.mem_toList.mpr watching) other.number
      (List.mem_map_of_mem shelf) same.symm

section Passing
variable {after : Heap} {objects : Objects κ}

theorem numbered_passed (numbered : session.Numbered) (passed : session.heap.Passed after) :
    Numbered ⟨after, objects, session.shelf⟩ := by
  have more := passed.later.hooks_le
  have shelved : ∀ hook ∈ session.shelf, hook.number < session.heap.hooks := fun hook member =>
    numbered.known _ ((mem_numbers _).mpr (.inr ⟨hook, member, rfl⟩))
  obtain ⟨-, unique, apart⟩ := List.nodup_append.mp numbered.distinct
  constructor
  · refine List.nodup_append.mpr ⟨?_, unique, ?_⟩
    · cases after.watcher with
      | none => exact List.nodup_nil
      | some number => exact List.pairwise_singleton _ number
    · intro number there other member
      rcases passed.orderly.left_among (Option.mem_toList.mp there) with before | ⟨lower, -⟩
      · exact apart number (Option.mem_toList.mpr before) other member
      · obtain ⟨hook, shelf, rfl⟩ := List.mem_map.mp member
        exact fun same => absurd (shelved hook shelf) (by omega)
  · intro number member
    rcases (mem_numbers number).mp member with there | ⟨hook, shelf, rfl⟩
    · rcases passed.orderly.left_among there with before | ⟨-, upper⟩
      · exact (numbered.known number ((mem_numbers number).mpr (.inl before))).trans_le more
      · exact upper
    · exact (shelved hook shelf).trans_le more

theorem absent_passed {number : Nat} (absent : session.Absent number)
    (passed : session.heap.Passed after) :
    (∀ call ∈ (session.heap.since after).filterMap Happening.call?, call.1 ≠ number) ∧
      Absent number (⟨after, objects, session.shelf⟩ : Session κ) := by
  have away : session.heap.watcher ≠ some number := fun there =>
    absent.absent ((mem_numbers number).mpr (.inl there))
  refine ⟨fun call member same => ?_, absent.known.trans_le passed.later.hooks_le, fun member => ?_⟩
  · rw [passed.orderly.calls_eq] at member
    subst same
    rcases passed.orderly.told_among call member with there | ⟨lower, -⟩
    · exact away there
    · exact absurd absent.known (by omega)
  · rcases (mem_numbers number).mp member with there | shelf
    · rcases passed.orderly.left_among there with before | ⟨lower, -⟩
      · exact away before
      · exact absurd absent.known (by omega)
    · exact absent.absent ((mem_numbers number).mpr (.inr shelf))

end Passing

/-- Hooks change places, but for new ones. -/
theorem hook_moved (numbered : session.Numbered) (operation : Operation κ)
    (hook : operation.isHook = true) :
    (session.step operation).2.heap.history = session.heap.history ∧
      (session.step operation).2.Numbered ∧
      ∀ number ∈ (session.step operation).2.numbers,
        number ∈ session.numbers ∨ session.heap.hooks ≤ number := by
  obtain ⟨distinct, known⟩ := numbered
  obtain ⟨-, unique, -⟩ := List.nodup_append.mp distinct
  cases operation with
  | installHook plan =>
      have shelved : ∀ number ∈ session.shelf.map Hook.number, number < session.heap.hooks :=
        fun number member => known number (List.mem_append_right _ member)
      have fresh : session.heap.hooks ∉ session.shelf.map Hook.number :=
        fun member => absurd (shelved _ member) (lt_irrefl _)
      refine ⟨rfl, ⟨List.nodup_cons.mpr ⟨fresh, unique⟩, ?_⟩, ?_⟩
      · rintro number (- | ⟨-, member⟩)
        · exact Nat.lt_succ_self _
        · exact Nat.lt_succ_of_lt (shelved number member)
      · rintro number (- | ⟨-, member⟩)
        · exact .inr le_rfl
        · exact .inl (List.mem_append_right _ member)
  | takeHook =>
      simp only [step]
      split
      · rename_i hook there
        have same : numbers ⟨session.heap.vacate, session.objects, hook :: session.shelf⟩ =
            session.numbers := by
          simp only [numbers, Heap.watcher, Heap.vacate, there, Option.map_none, Option.map_some,
            Option.toList_none, Option.toList_some, List.map_cons, List.nil_append,
            List.singleton_append]
        exact ⟨rfl, ⟨same ▸ distinct, same ▸ known⟩, fun number member => .inl (same ▸ member)⟩
      · exact ⟨rfl, ⟨distinct, known⟩, fun number member => .inl member⟩
  | restoreHook =>
      simp only [step]
      split
      · exact ⟨rfl, ⟨distinct, known⟩, fun number member => .inl member⟩
      · rename_i hook shelf there
        have fewer : (numbers ⟨session.heap.install hook, session.objects, shelf⟩).Sublist
            session.numbers := by
          simp only [numbers, Heap.watcher, Heap.install, there, Option.map_some,
            Option.toList_some, List.map_cons, List.singleton_append]
          exact List.sublist_append_right _ _
        exact ⟨rfl, ⟨distinct.sublist fewer, fun number member =>
          known number (fewer.subset member)⟩, fun number member => .inl (fewer.subset member)⟩
  | _ => cases hook

def Uncalled (number : Nat) (before after : Heap) : Prop :=
  ∀ call ∈ (before.since after).filterMap Happening.call?, call.1 ≠ number

theorem uncalled_trans {number : Nat} {before between after : Heap}
    (early : before.Later between) (late : between.Later after)
    (first : Uncalled number before between) (second : Uncalled number between after) :
    Uncalled number before after := by
  intro call member
  rw [Heap.since_trans early late, List.filterMap_append] at member
  rcases List.mem_append.mp member with member | member
  · exact first call member
  · exact second call member

structure Delivery (before after : Session κ) (issues : List Issue) : Prop where
  later : before.heap.Later after.heap
  numbered : after.Numbered
  happened : (before.heap.since after.heap).filter (!·.isZeroing) =
    issues.flatMap fun issue => issue.happenings.filter (!·.isZeroing)
  delivered : ∀ issue ∈ issues, issue.Delivered ∧ issue.outcome.2.Later after.heap
  /-- A hook that a call does not leave in the slot is not called again, -/
  parted : ∀ issue ∈ issues, ∀ hook, issue.heap.slot = some hook →
    issue.outcome.2.watcher ≠ some hook.number →
      Uncalled hook.number issue.outcome.2 after.heap ∧ after.Absent hook.number
  /-- nor is one that was not there any more. -/
  absent : ∀ number, before.Absent number →
    Uncalled number before.heap after.heap ∧ after.Absent number

theorem delivery_refl (numbered : session.Numbered) :
    Delivery session session [] := by
  have nothing := Heap.since_self session.heap
  refine ⟨.refl _, numbered, by rw [nothing]; rfl, fun _ member => (by cases member),
    fun _ member => (by cases member), fun number absent => ⟨?_, absent⟩⟩
  rw [Uncalled, nothing]
  exact fun call member => by cases member

theorem Delivery.trans {before between after : Session κ} {early late : List Issue}
    (first : Delivery before between early) (second : Delivery between after late) :
    Delivery before after (early ++ late) := by
  refine ⟨first.later.trans second.later, second.numbered, ?_, ?_, ?_, ?_⟩
  · rw [Heap.since_trans first.later second.later, List.filter_append, List.flatMap_append,
      first.happened, second.happened]
  · intro issue member
    rcases List.mem_append.mp member with member | member
    · obtain ⟨delivered, later⟩ := first.delivered issue member
      exact ⟨delivered, later.trans second.later⟩
    · exact second.delivered issue member
  · intro issue member hook there away
    rcases List.mem_append.mp member with member | member
    · obtain ⟨uncalled, gone⟩ := first.parted issue member hook there away
      obtain ⟨uncalledToo, goneToo⟩ := second.absent hook.number gone
      exact ⟨uncalled_trans (first.delivered issue member).2 second.later uncalled uncalledToo,
        goneToo⟩
    · exact second.parted issue member hook there away
  · intro number absent
    obtain ⟨uncalled, gone⟩ := first.absent number absent
    obtain ⟨uncalledToo, goneToo⟩ := second.absent number gone
    exact ⟨uncalled_trans first.later second.later uncalled uncalledToo, goneToo⟩

section Steps
variable (numbered : session.Numbered)
include numbered

/-- An operation about hooks delivers nothing, and lets no hook come back that was not kept. -/
theorem delivery_hook (operation : Operation κ) (hook : operation.isHook = true) :
    Delivery session (session.step operation).2 [] := by
  have later := session.step_later operation
  obtain ⟨history, numbers, come⟩ := hook_moved numbered operation hook
  have nothing : session.heap.since (session.step operation).2.heap = [] :=
    Heap.since_append (by rw [history, List.append_nil])
  refine ⟨later, numbers, by rw [nothing]; rfl, fun _ member => (by cases member),
    fun _ member => (by cases member), fun number absent => ⟨?_, ?_, fun member => ?_⟩⟩
  · rw [Uncalled, nothing]
    exact fun call member => by cases member
  · exact absent.known.trans_le later.hooks_le
  · rcases come number member with before | newer
    · exact absent.absent before
    · exact absurd absent.known (by omega)

theorem delivery_reset : Delivery session (session.step .resetCounters).2 [] := by
  have zeroed : session.heap.since session.heap.resetCounters = [.zeroed] :=
    Heap.since_remember _ _
  refine ⟨.resetCounters _, ⟨numbered.distinct, numbered.known⟩, ?_,
    fun _ member => (by cases member), fun _ member => (by cases member),
    fun number absent => ⟨?_, absent.known, absent.absent⟩⟩
  · simp only [step]
    rw [zeroed]
    rfl
  · simp only [step, Uncalled]
    rw [zeroed]
    exact fun call member => by cases member

variable (kept : session.Kept Plan.Logging)
include kept

theorem delivery_plain (operation : Operation κ) (plain : operation.isHook = false)
    (reset : operation ≠ .resetCounters) (survived : (session.step operation).1.isFatal = false)
    (small : ∀ issue ∈ (session.consult operation).issues session.heap, issue.request.Small) :
    Delivery session (session.step operation).2
      ((session.consult operation).issues session.heap) := by
  have same := session.step_consult operation plain reset
  have fit := Dialogue.issues_fit (session.consult_candid operation)
    (session.step_survived operation plain reset survived) small
  obtain ⟨passed, happened, delivered⟩ :=
    (session.consult operation).hold_delivers session.heap kept.watched fit
  rw [same]
  refine ⟨passed.later, numbered_passed numbered passed, ?_, ?_, ?_,
    fun number absent => absent_passed absent passed⟩
  · rw [happened, List.filter_flatMap]
  · intro issue member
    obtain ⟨done, -, onward⟩ := delivered issue member
    exact ⟨done, onward.later⟩
  · intro issue member hook there away
    obtain ⟨-, before, onward⟩ := delivered issue member
    have during : Numbered ⟨issue.heap, session.objects, session.shelf⟩ :=
      numbered_passed numbered before
    have parted := parted_absent during hook there away
    exact absent_passed parted onward

theorem delivery_step (operation : Operation κ) (survived : (session.step operation).1.isFatal = false)
    (small : ∀ issue ∈ (session.consult operation).issues session.heap, issue.request.Small) :
    Delivery session (session.step operation).2
      ((session.consult operation).issues session.heap) := by
  by_cases hook : operation.isHook = true
  · have nothing : (session.consult operation).issues session.heap = [] := by
      cases operation <;> first | rfl | cases hook
    rw [nothing]
    exact delivery_hook numbered operation hook
  · by_cases reset : operation = .resetCounters
    · subst reset
      exact delivery_reset numbered
    · exact delivery_plain numbered kept operation (Bool.eq_false_iff.mpr hook) reset survived
        small

theorem delivery_run (operations : List (Operation κ))
    (coming : ∀ plan, .installHook plan ∈ operations → plan.Logging)
    (survived : session.Survives operations)
    (small : ∀ issue ∈ session.issues operations, issue.request.Small) :
    Delivery session (session.run operations).2 (session.issues operations) := by
  induction operations generalizing session with
  | nil => exact delivery_refl numbered
  | cons operation rest ih =>
      obtain ⟨first, later⟩ := (survives_cons session operation rest).mp survived
      have stepped := delivery_step numbered kept operation first
        fun issue member => small issue (List.mem_append_left _ member)
      have keeps := step_kept kept operation fun plan same =>
        coming plan (same ▸ List.mem_cons_self)
      have ran := ih stepped.numbered keeps
        (fun plan member => coming plan (List.mem_cons_of_mem _ member)) later
        fun issue member => small issue (List.mem_append_right _ member)
      exact stepped.trans ran

end Steps

theorem issues_watched {rule : Notice → List (Act Plan) → Prop} (operations : List (Operation κ))
    (hooked : session.Hooked (Plan.Obeys rule) operations) :
    ∀ issue ∈ session.issues operations, issue.heap.Watched (Plan.Obeys rule) := by
  induction operations generalizing session with
  | nil => exact fun _ member => by cases member
  | cons operation rest ih =>
      have keeps := step_kept hooked.kept operation fun plan same =>
        hooked.coming plan (same ▸ List.mem_cons_self)
      have later := ih ⟨keeps, fun plan member => hooked.coming plan (List.mem_cons_of_mem _ member)⟩
      intro issue member
      rcases List.mem_append.mp member with first | others
      · exact ((session.consult operation).hold_watched _ hooked.kept.watched).2 issue first
      · exact later issue others

theorem calls_filter (happenings : List Happening) :
    happenings.filterMap Happening.call? =
      (happenings.filter (!·.isZeroing)).filterMap Happening.call? := by
  rw [List.filterMap_filter]
  congr 1
  funext happening
  cases happening <;> rfl

/-- Delivery over every run under hooks that log all their calls. The requests of the operations are
all that happens. Those that met a hook are logged once, in order, each followed only by the calls
of hooks that were put in during it. A hook that is not left in the slot is not called again. The
newest hook is left in it, unless it failed in a call of its own; that cannot be where a call that
puts a hook in makes no request. -/
theorem run_delivers (session : Session κ) (numbered : session.Numbered)
    (operations : List (Operation κ)) (hooked : session.Hooked Plan.Logging operations)
    (survived : session.Survives operations)
    (small : ∀ issue ∈ session.issues operations, issue.request.Small) :
    let last := (session.run operations).2.heap
    let issues := session.issues operations
    last.calls = session.heap.calls ++ issues.flatMap Issue.calls ∧
      (session.heap.since last).filter (!·.isZeroing) =
        issues.flatMap (fun issue => issue.happenings.filter (!·.isZeroing)) ∧
      (∀ issue ∈ issues, issue.Delivered ∧
        ∀ hook, issue.heap.slot = some hook → issue.outcome.2.watcher ≠ some hook.number →
          Uncalled hook.number issue.outcome.2 last) ∧
      (session.Hooked Plan.Ceding operations → ∀ issue ∈ issues,
        issue.heap.hooks < issue.outcome.2.hooks →
          issue.outcome.2.watcher = some (issue.outcome.2.hooks - 1)) := by
  have delivery := delivery_run numbered hooked.kept operations hooked.coming survived small
  refine ⟨?_, delivery.happened, fun issue member => ⟨(delivery.delivered issue member).1,
    fun hook there away => (delivery.parted issue member hook there away).1⟩,
    fun ceding issue member => issue.heap.serve_newest issue.request
      (issues_watched operations ceding issue member)⟩
  have calls : (fun issue : Issue => (issue.happenings.filter (!·.isZeroing)).filterMap
      Happening.call?) = Issue.calls := by
    funext issue
    exact (calls_filter issue.happenings).symm
  rw [Heap.calls, Heap.history_since delivery.later, List.filterMap_append,
    calls_filter (session.heap.since _), delivery.happened, List.filterMap_flatMap, calls]
  rfl

def relay (next : Plan) : Plan := .noting fun _ => [.enlist next, .resize 0 16]

theorem relay_logging {next : Plan} (logging : next.Logging) : (relay next).Logging := by
  apply Plan.noting_logging
  · intro call act member
    rcases List.mem_pair.mp member with rfl | rfl
    · trivial
    · exact show 16 < 2 ^ 63 by decide
  · intro call plan member
    rcases List.mem_pair.mp member with same | same
    · cases same
      exact logging
    · cases same

def relays : List Operation :=
  [.installHook (relay .record), .edit ⟨.pool, "main"⟩ (.add [⟨0⟩]), .takeHook,
    .installHook (.refuse 0), .edit ⟨.chunk, "main"⟩ (.write [⟨0, 1⟩]), .restoreHook,
    .installHook (.reenter 32), .takeHook, .resetCounters,
    .edit ⟨.pool, "other"⟩ (.add [⟨0⟩]), .restoreHook, .edit ⟨.pool, "main"⟩ .free]

def swaps : List Operation :=
  [.installHook (.swap 0 (.swap 1 .record)), .edit ⟨.pool, "main"⟩ (.add [⟨0⟩]),
    .edit ⟨.chunk, "main"⟩ (.write [⟨0, 1⟩]), .edit ⟨.pool, "main"⟩ .free]

theorem run_delivers_relays :
    let last := (({} : Session).run relays).2.heap
    let issues := ({} : Session).issues relays
    last.calls.map Prod.fst = [0, 1, 1, 2, 3] ∧ issues.length = 4 ∧
      last.calls = issues.flatMap Issue.calls ∧ (∀ issue ∈ issues, issue.Delivered) ∧
      (({} : Session).issues swaps).map (·.outcome.2.watcher) = [some 1, some 1, some 2] ∧
      ∀ issue ∈ ({} : Session).issues swaps, issue.heap.hooks < issue.outcome.2.hooks →
        issue.outcome.2.watcher = some (issue.outcome.2.hooks - 1) := by
  have coming : ∀ plan, .installHook plan ∈ relays → plan.Logging := by
    intro plan member
    have known : plan = relay .record ∨ plan = .refuse 0 ∨ plan = .reenter 32 := by
      simpa [relays] using member
    rcases known with rfl | rfl | rfl
    · exact relay_logging Plan.record_logging
    · exact Plan.refuse_logging 0
    · exact Plan.reenter_logging 32 (by decide)
  have swapping (good : Plan → Prop) (first : good (.swap 0 (.swap 1 .record))) :
      ({} : Session).Hooked good swaps := by
    refine ⟨kept_new good, fun plan member => ?_⟩
    have same : plan = .swap 0 (.swap 1 .record) := by simpa [swaps] using member
    exact same ▸ first
  have delivered := run_delivers ({} : Session) numbered_new relays ⟨kept_new _, coming⟩
    (by decide +kernel) (by decide +kernel)
  have swapped := run_delivers ({} : Session) numbered_new swaps
    (swapping _ (Plan.swap_logging 0 (Plan.swap_logging 1 Plan.record_logging)))
    (by decide +kernel) (by decide +kernel)
  exact ⟨by decide +kernel, by decide +kernel, delivered.1, fun issue member =>
    (delivered.2.2.1 issue member).1, by decide +kernel, swapped.2.2.2
      (swapping _ (Plan.swap_ceding 0 (Plan.swap_ceding 1 Plan.record_ceding)))⟩

def usurped : List Operation :=
  [.installHook (relay (.refuse 0)), .edit ⟨.pool, "main"⟩ (.add [⟨0⟩])]

def exhausting : List Operation :=
  [.installHook .record, .create "raw" (.block .u8),
    .edit ⟨.block, "raw"⟩ (.reallocate 0 (2 ^ 60))]

/-- A hook that was put in during a call need not be in the slot afterwards, and a small request can
end the program. -/
theorem newest_dislodged :
    (({} : Session).Numbered ∧ ({} : Session).Hooked Plan.Logging usurped ∧
      ({} : Session).Survives usurped ∧
      (∀ issue ∈ ({} : Session).issues usurped, issue.request.Small) ∧
      (({} : Session).issues usurped).map (fun issue =>
        (issue.heap.hooks, issue.outcome.2.hooks, issue.outcome.2.watcher)) = [(1, 2, none)] ∧
      ¬ ∀ issue ∈ ({} : Session).issues usurped, issue.heap.hooks < issue.outcome.2.hooks →
        issue.outcome.2.watcher = some (issue.outcome.2.hooks - 1)) ∧
    (({} : Session).Hooked Plan.Logging exhausting ∧
      (∀ issue ∈ ({} : Session).issues exhausting, issue.request.Small) ∧
      ¬ ({} : Session).Survives exhausting) := by
  refine ⟨⟨numbered_new, ⟨kept_new _, fun plan member => ?_⟩, by decide +kernel,
    by decide +kernel, by decide +kernel, by decide +kernel⟩,
    ⟨kept_new _, fun plan member => ?_⟩, by decide +kernel, by decide +kernel⟩
  · have same : plan = relay (.refuse 0) := by simpa [usurped] using member
    exact same ▸ relay_logging (Plan.refuse_logging 0)
  · have same : plan = .record := by simpa [exhausting] using member
    exact same ▸ Plan.record_logging

end Session

end MeteredChunk
