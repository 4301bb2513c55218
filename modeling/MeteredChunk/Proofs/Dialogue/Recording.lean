import MeteredChunk.Proofs.Dialogue.Backing
import MeteredChunk.Proofs.Dialogue.Delivery

/-!
The log of a hook that only records.
-/

namespace MeteredChunk.Heap

/-! ## Authors

Who wrote an entry down. Hooks are numbered as they are made, and only hooks that were
made are called, so there is no entry under a number that is still to be given. A hook
that is new begins with an empty log, whatever was logged before.
-/

/-- Every entry has the number of a hook that was made, and so has the hook in the slot. -/
structure Authored (made : Nat) (heap : Heap) : Prop where
  made_le : made ≤ heap.hooks
  written : ∀ number entry, .noted number entry ∈ heap.history.toList → number < heap.hooks
  slotted : ∀ hook, heap.slot = some hook → hook.number < heap.hooks

variable {made : Nat} {heap : Heap} {tell : Telling}

theorem Authored.fewer {less : Nat} (authored : heap.Authored made) (fewer : less ≤ made) :
    heap.Authored less :=
  ⟨fewer.trans authored.made_le, authored.written, authored.slotted⟩

theorem Authored.log_new (authored : heap.Authored made) (number : Nat) (new : heap.hooks ≤ number) :
    heap.log number = [] := by
  apply List.filterMap_eq_nil_iff.mpr
  intro happening member
  cases happening with
  | noted hook entry =>
      have known := authored.written hook entry member
      exact if_neg (by omega)
  | _ => rfl

theorem authored_remember (happening : Happening)
    (known : ∀ number entry, happening = .noted number entry → number < heap.hooks)
    (authored : heap.Authored made) : (heap.remember happening).Authored made := by
  refine ⟨authored.made_le, fun number entry member => ?_, authored.slotted⟩
  rw [history_remember] at member
  rcases List.mem_append.mp member with before | last
  · exact authored.written number entry before
  · exact known number entry (List.mem_singleton.mp last).symm

theorem authored_vacate (authored : heap.Authored made) : heap.vacate.Authored made :=
  ⟨authored.made_le, authored.written, fun _ there => by cases there⟩

theorem authored_install (hook : Hook) (known : hook.number < heap.hooks)
    (authored : heap.Authored made) : (heap.install hook).Authored made :=
  ⟨authored.made_le, authored.written, fun _ there => Option.some.inj there ▸ known⟩

theorem authored_putBack (hook : Hook) (known : hook.number < heap.hooks)
    (authored : heap.Authored made) : (heap.putBack hook).Authored made := by
  unfold putBack
  split
  · exact authored_install hook known authored
  · exact authored

theorem authored_enlist (plan : Plan) (authored : heap.Authored made) :
    (heap.enlist plan).Authored made := by
  refine ⟨authored.made_le.trans (Nat.le_succ _), fun number entry member => ?_, fun hook there => ?_⟩
  · exact (authored.written number entry member).trans (Nat.lt_succ_self _)
  · cases there
    exact Nat.lt_succ_self _

theorem authored_resetCounters (authored : heap.Authored made) :
    heap.resetCounters.Authored made :=
  authored_remember _ (fun _ _ same => by cases same)
    ⟨authored.made_le, authored.written, authored.slotted⟩

theorem authored_account (kind : RequestKind) (request : Request) (authored : heap.Authored made) :
    (heap.account kind request).Authored made :=
  authored_remember _ (fun _ _ same => by cases same)
    ⟨authored.made_le, authored.written, authored.slotted⟩

section Calls
variable (keeps : ∀ (heap : Heap) (notice : Notice) (made : Nat), heap.Authored made →
  (tell heap notice).2.Authored made)
include keeps

theorem request_authored (request : Request) (authored : heap.Authored made) :
    (heap.request tell request).2.Authored made := by
  unfold Heap.request
  cases request.kind? with
  | none => exact authored
  | some kind => exact keeps _ _ made (authored_account kind request authored)

theorem authored_carries (hook : Hook) (known : hook.number < made) :
    Carries tell hook (fun _ _ => True) (fun _ => True)
      fun heap outcome => heap.Authored made → outcome.2.Authored made where
  stays _ _ := id
  follows first second := second ∘ first
  unwinds first second := second ∘ first
  overtaken := id
  exhausts := id
  writes _ _ _ _ authored :=
    authored_remember _ (fun _ _ same => by cases same; exact known.trans_le authored.made_le)
      authored
  enlists _ _ next _ authored := by
    have enlisted := authored_enlist next authored
    exact authored_remember _ (fun _ _ same => by cases same; exact known.trans_le enlisted.made_le)
      enlisted
  vacates _ _ _ := authored_vacate
  resets _ _ _ := authored_resetCounters
  asks _ _ _ _ _ _ := ⟨trivial, request_authored keeps _⟩
  returns _ _ _ := request_authored keeps _

theorem called_authored (notice : Notice) {hook : Hook} (there : heap.slot = some hook)
    (authored : heap.Authored made) :
    (perform tell hook [] (hook.plan.acts hook.calls notice) heap.vacate).2.Authored
      (max made (hook.number + 1)) := by
  have known := authored.slotted hook there
  have both : heap.Authored (max made (hook.number + 1)) :=
    ⟨max_le authored.made_le known, authored.written, authored.slotted⟩
  have among : hook.number < max made (hook.number + 1) :=
    (Nat.lt_succ_self _).trans_le (le_max_right _ _)
  exact (authored_carries keeps hook among).perform _ [] (Act.each_forall (fun _ _ => trivial) [])
    (fun _ _ => trivial) heap.vacate (authored_vacate both)

end Calls

theorem authored_settles : Settles fun heap _ outcome =>
    ∀ made, heap.Authored made → outcome.2.Authored made where
  vacant _ _ _ := id
  overflows _ _ _ := id
  returns {tell heap notice hook after} keeps there ended made authored := by
    have called := called_authored keeps notice there authored
    rw [ended] at called
    exact authored_putBack _ ((le_max_right _ _).trans called.made_le)
      (called.fewer (le_max_left _ _))
  breaks {tell heap notice hook fault after} keeps there ended made authored := by
    have called := called_authored keeps notice there authored
    rw [ended] at called
    exact authored_remember _ (fun _ _ same => by cases same) (called.fewer (le_max_left _ _))

theorem serve_authored (heap : Heap) (request : Request) (authored : heap.Authored made) :
    (heap.serve request).2.Authored made :=
  request_authored (fun heap notice => authored_settles.notify _ heap notice) request authored

end MeteredChunk.Heap

namespace MeteredChunk

/-! ## Chronicles

Logs that tell the whole story of a meter. An entry has the request, the meter after it
and the change of live bytes, each of which is worked out on its own. In a chronicle
every entry starts from the meter that the entry before it has, so the requests alone
are enough to get all the readings again.
-/

namespace Counters

def events (counters : Counters) : RequestKind → Nat
  | .allocate => counters.allocations
  | .grow => counters.grows
  | .shrink => counters.shrinks
  | .free => counters.frees

def apply (counters : Counters) (request : Request) : Counters :=
  match request.kind? with
  | none => counters
  | some kind => counters.account kind request

def replay (counters : Counters) (requests : List Request) : Counters :=
  requests.foldl apply counters

theorem events_account (counters : Counters) (kind other : RequestKind) (request : Request) :
    (counters.account kind request).events other =
      counters.events other + if other = kind then 1 else 0 := by
  cases kind <;> cases other <;> rfl

end Counters

structure Notice.Follows (before : Counters) (notice : Notice) (delta : Int) : Prop where
  classed : notice.request.kind? = some notice.kind
  counted : notice.counters = before.account notice.kind notice.request
  weighed : notice.request.delta? = some delta
  moved : delta = notice.counters.live - before.live

/-- A request that takes from bytes on the meter and stays in range moves the reading by as much as
signed words say. -/
theorem Notice.account_follows {before : Counters} {kind : RequestKind} {request : Request}
    (classed : request.kind? = some kind) (small : request.Small)
    (backed : request.old ≤ before.live)
    (below : before.live - request.old + request.new < Word.limit) :
    Notice.Follows before ⟨kind, request, before.account kind request⟩
        (request.new - request.old) ∧
      (before.account kind request).live = before.live - request.old + request.new := by
  have live : (before.account kind request).live = before.live - request.old + request.new := by
    rw [Counters.live_account, Word.clamp]
    omega
  refine ⟨⟨classed, rfl, Word.difference_small _ _ small.new_lt small.old_lt, ?_⟩, live⟩
  change (request.new : Int) - request.old = (before.account kind request).live - before.live
  omega

abbrev Line := Notice × Int

/-- Log lines that each start from the meter that the line before it tells. -/
inductive Chronicle : (before : Counters) → (lines : List Line) → (after : Counters) → Prop
  | done {counters : Counters} : Chronicle counters [] counters
  | line {before after : Counters} {notice : Notice} {delta : Int} {rest : List Line}
      (follows : notice.Follows before delta) (more : Chronicle notice.counters rest after) :
      Chronicle before ((notice, delta) :: rest) after

namespace Chronicle

variable {before between after : Counters} {lines past rest : List Line}

def requests (lines : List Line) : List Request := lines.map fun line => line.1.request

def latest (start : Counters) (past : List Line) : Counters :=
  (past.map fun line => line.1.counters).getLastD start

theorem trans (early : Chronicle before past between) (late : Chronicle between rest after) :
    Chronicle before (past ++ rest) after := by
  induction early with
  | done => exact late
  | line follows _ ih => exact .line follows (ih late)

theorem replay_eq (chronicle : Chronicle before lines after) :
    before.replay (requests lines) = after := by
  induction chronicle with
  | done => rfl
  | @line before after notice delta rest follows _ ih =>
      have counted : before.apply notice.request = notice.counters := by
        rw [Counters.apply, follows.classed, follows.counted]
      change (before.apply notice.request).replay (requests rest) = after
      rw [counted]
      exact ih

theorem sum_eq (chronicle : Chronicle before lines after) :
    (lines.map Prod.snd).sum = (after.live : Int) - before.live := by
  induction chronicle with
  | done => simp
  | line follows _ ih =>
      have moved := follows.moved
      simp only [List.map_cons, List.sum_cons]
      omega

/-- A chronicle can be cut before each of its lines. -/
theorem cut {line : Line} (chronicle : Chronicle before (past ++ line :: rest) after) :
    Chronicle before past (latest before past) ∧
      line.1.Follows (latest before past) line.2 := by
  induction past generalizing before with
  | nil =>
      cases chronicle with
      | line follows _ => exact ⟨.done, follows⟩
  | cons first past ih =>
      cases chronicle with
      | line follows more =>
          obtain ⟨early, here⟩ := ih more
          rw [latest, List.map_cons, List.getLastD_cons, ← latest]
          exact ⟨.line follows early, here⟩

/-- The readings up to a line are those that the requests up to it give. -/
theorem replay_line {line : Line} (chronicle : Chronicle before (past ++ line :: rest) after) :
    before.replay (requests (past ++ [line])) = line.1.counters := by
  obtain ⟨early, follows⟩ := chronicle.cut
  exact (early.trans (.line follows .done)).replay_eq

end Chronicle

/-! ## Recording

Dialogues with a heap whose hook only records. The hook writes each request down, goes
back into the slot and grants it, so nothing parts the log from the meter as long as
requests take no more than what the meter reads and the sums stay words.
-/

namespace Plan

def Recording (plan : Plan) : Prop :=
  ∀ call notice delta, notice.request.delta? = some delta →
    plan.acts call notice = [.write (.seen notice delta)]

theorem record_recording : record.Recording := by
  intro call notice delta weighed
  rw [record]
  rcases acts_noting (fun _ => []) call notice with ⟨absent, -⟩ | ⟨other, same, acts⟩
  · cases weighed.symm.trans absent
  · rw [acts, Option.some.inj (weighed.symm.trans same)]

end Plan

def Issue.InRange (issue : Issue) : Prop :=
  issue.heap.counters.live - issue.request.old + issue.request.new < Word.limit

instance (issue : Issue) : Decidable issue.InRange := inferInstanceAs (Decidable (_ < _))

namespace Heap

def Records (number : Nat) (heap : Heap) : Prop :=
  ∃ hook, heap.slot = some hook ∧ hook.number = number ∧ hook.plan.Recording

structure Recorded (number : Nat) (before : Heap) (requests : List Request) (after : Heap) :
    Prop where
  later : before.Later after
  records : after.Records number
  chronicled : ∃ lines : List Line,
    after.log number = before.log number ++ lines.map (fun line => .seen line.1 line.2) ∧
      Chronicle.requests lines = requests ∧
      Chronicle before.counters lines after.counters

variable {number : Nat} {heap : Heap}

theorem recorded_refl (records : heap.Records number) : heap.Recorded number [] heap :=
  ⟨.refl heap, records, [], (List.append_nil _).symm, rfl, .done⟩

theorem Recorded.trans {before between after : Heap} {these those : List Request}
    (early : before.Recorded number these between) (late : between.Recorded number those after) :
    before.Recorded number (these ++ those) after := by
  obtain ⟨lines, logged, asked, chronicle⟩ := early.chronicled
  obtain ⟨linesToo, loggedToo, askedToo, chronicleToo⟩ := late.chronicled
  refine ⟨early.later.trans late.later, late.records, lines ++ linesToo, ?_, ?_,
    chronicle.trans chronicleToo⟩
  · rw [loggedToo, logged, List.append_assoc, List.map_append]
  · rw [Chronicle.requests, List.map_append, ← Chronicle.requests, ← Chronicle.requests, asked,
      askedToo]

theorem log_write (heap : Heap) (hook : Hook) (entry : Entry) :
    (heap.write hook entry).log hook.number = heap.log hook.number ++ [entry] := by
  simp [log, write, history_remember]

theorem log_account (heap : Heap) (kind : RequestKind) (request : Request) (number : Nat) :
    (heap.account kind request).log number = heap.log number := by
  simp [log, account, history_remember]

/-- The call is written down, and the hook is in the slot again. -/
theorem notify_recording {hook : Hook} {notice : Notice} {delta : Int}
    (there : heap.slot = some hook) (recording : hook.plan.Recording)
    (weighed : notice.request.delta? = some delta) (room : Nat) :
    notify (room + 1) heap notice =
      (.ok (), (heap.write hook (.seen notice delta)).install
        { hook with calls := hook.calls + 1 }) := by
  have acts := recording hook.calls notice delta weighed
  unfold notify
  simp only [there, acts]
  rfl

theorem serve_recorded {request : Request} (records : heap.Records number)
    (fits : Issue.Fits ⟨heap, request⟩) (inRange : Issue.InRange ⟨heap, request⟩)
    (backed : request.old ≤ heap.counters.live) :
    (heap.serve request).1 = .ok () ∧
      (heap.serve request).2.counters.live = heap.counters.live - request.old + request.new ∧
      heap.Recorded number [request] (heap.serve request).2 := by
  obtain ⟨hook, there, rfl, recording⟩ := records
  obtain ⟨kind, asked⟩ := request.kind?_changes fits.changes
  obtain ⟨follows, live⟩ := Notice.account_follows asked fits.small backed inRange
  have told : heap.serve request = notify heap.stack (heap.account kind request)
      ⟨kind, request, heap.counters.account kind request⟩ := by
    simp only [serve, Heap.request, asked]
    rfl
  have slot : (heap.account kind request).slot = some hook := there
  have later := heap.serve_later request
  cases room : heap.stack with
  | zero =>
      -- Without room for a single call the program is ended.
      rw [room] at told
      unfold notify at told
      simp only [slot] at told
      cases fits.contained _ (congrArg Prod.fst told)
  | succ room' =>
      rw [room, notify_recording slot recording follows.weighed] at told
      rw [told] at later ⊢
      refine ⟨rfl, live, later, ⟨_, rfl, rfl, recording⟩, [(_, _)], ?_, rfl, .line follows .done⟩
      exact (log_write _ hook _).trans (congrArg (· ++ _) (log_account heap kind request _))

end Heap

namespace Dialogue

variable {σ α : Type} {weight : σ → Nat}

/-- A dialogue that only reaches for what is on the meter is granted everything, and recorded. What
it leaves is on the meter still. -/
theorem hold_recorded {dialogue : Dialogue σ α} {heap : Heap} {number held : Nat}
    (records : heap.Records number) (backed : dialogue.Backed heap.ceiling weight held)
    (enough : held ≤ heap.counters.live)
    (fit : ∀ issue ∈ dialogue.issues heap, issue.Fits ∧ issue.InRange) :
    heap.Recorded number ((dialogue.issues heap).map Issue.request) (dialogue.hold heap).heap ∧
      weight (dialogue.hold heap).object ≤ (dialogue.hold heap).heap.counters.live := by
  induction dialogue generalizing heap held with
  | close answer object => exact ⟨Heap.recorded_refl records, le_trans backed enough⟩
  | ask request next ih =>
      obtain ⟨first, rest⟩ := backed
      obtain ⟨⟨fits, inRange⟩, others⟩ := List.forall_mem_cons.mp fit
      obtain ⟨granted, live, recorded⟩ :=
        Heap.serve_recorded records fits inRange (first.trans enough)
      have ceiling := recorded.later.ceiling_eq
      rw [granted] at others
      rw [← ceiling] at rest
      obtain ⟨onward, left⟩ := ih _ _ recorded.records rest (by omega) others
      simp only [hold, issues, List.map_cons]
      rw [granted]
      exact ⟨recorded.trans onward, left⟩

end Dialogue

end MeteredChunk
