import MeteredChunk.Proofs.Heap.Protocol

/-!
A heap whose hooks log every call keeps to the protocol. Nothing but the end of the
program can part a request from the entry of the hook that is told of it: sizes that
are signed words always have a difference to write down.
-/

namespace MeteredChunk

structure Request.Small (request : Request) : Prop where
  old_lt : request.old < 2 ^ 63
  new_lt : request.new < 2 ^ 63

instance (request : Request) : Decidable request.Small :=
  decidable_of_iff (request.old < 2 ^ 63 ∧ request.new < 2 ^ 63)
    ⟨fun ⟨old, new⟩ => ⟨old, new⟩, fun small => ⟨small.old_lt, small.new_lt⟩⟩

namespace Act

/-- Writes no entry like that of a call, asks for scratch blocks below `2 ^ 63` bytes only, and
changes the slot only by putting a hook in. -/
def Plain : Act Plan → Prop
  | .write entry => ∀ hook, (Happening.noted hook entry).call? = none
  | .resize _ size => size < 2 ^ 63
  | .vacate => False
  | _ => True

def Logs (notice : Notice) (acts : List (Act Plan)) : Prop :=
  ∀ delta, notice.request.delta? = some delta →
    ∃ rest, acts = .write (.seen notice delta) :: rest ∧ ∀ act ∈ rest, Plain act

end Act

namespace Plan

def Logging : Plan → Prop := Obeys Act.Logs

theorem noting_logging {acts : Nat → List (Act Plan)} (plain : ∀ call, ∀ act ∈ acts call, act.Plain)
    (successors : ∀ call next, .enlist next ∈ acts call → next.Logging) :
    (noting acts).Logging := by
  refine noting_obeys ?_ ?_ successors
  · intro notice weighed delta same
    cases weighed.symm.trans same
  · intro call notice delta weighed other same
    cases weighed.symm.trans same
    exact ⟨acts call, rfl, plain call⟩

theorem record_logging : record.Logging :=
  noting_logging (fun _ _ member => by cases member) fun _ _ member => by cases member

theorem swap_logging (turn : Nat) {next : Plan} (logging : next.Logging) :
    (swap turn next).Logging := by
  apply noting_logging
  · intro call act member
    obtain ⟨-, rfl⟩ : call = turn ∧ act = .enlist next := by simpa using member
    trivial
  · intro call successor member
    obtain ⟨-, rfl⟩ : call = turn ∧ successor = next := by simpa using member
    exact logging

theorem reenter_logging (bytes : Nat) (small : bytes < 2 ^ 63) : (reenter bytes).Logging := by
  apply noting_logging
  · intro call act member
    cases List.mem_singleton.mp member
    exact small
  · intro call next member
    cases List.mem_singleton.mp member

theorem refuse_logging (turn : Nat) : (refuse turn).Logging := by
  apply noting_logging
  · intro call act member
    obtain ⟨-, rfl⟩ : call = turn ∧ act = .fail (.refused turn) := by simpa using member
    trivial
  · intro call next member
    simp at member

end Plan

namespace Heap

def watcher (heap : Heap) : Option Nat := heap.slot.map Hook.number

def since (before after : Heap) : List Happening :=
  after.history.toList.drop before.history.toList.length

def Outcome.Contained (outcome : Outcome) : Prop :=
  ∀ fault, outcome.1 = .error fault → fault.isFatal = false

section Since
variable {before between after : Heap}

theorem since_append {events : List Happening}
    (added : after.history.toList = before.history.toList ++ events) :
    before.since after = events := by
  rw [since, added, List.drop_left]

theorem since_self (heap : Heap) : heap.since heap = [] := since_append (List.append_nil _).symm

theorem since_remember (heap : Heap) (happening : Happening) :
    heap.since (heap.remember happening) = [happening] :=
  since_append (history_remember heap happening)

theorem history_since (later : before.Later after) :
    after.history.toList = before.history.toList ++ before.since after := by
  obtain ⟨events, added⟩ := later.history_kept
  rw [since_append added.symm, added]

theorem since_trans (early : before.Later between) (late : between.Later after) :
    before.since after = before.since between ++ between.since after := by
  apply since_append
  rw [history_since late, history_since early, List.append_assoc]

end Since

structure Went (caller : Nat) (before : Heap) (outcome : Outcome) : Prop where
  later : before.Later outcome.2
  inside : Inside caller before.watcher before.hooks (before.since outcome.2) outcome.2.watcher
    outcome.2.hooks
  watched : outcome.2.Watched Plan.Logging
  calm : outcome.1 = .ok () → (before.since outcome.2).filterMap Happening.refusal? = []

structure Told (before : Heap) (notice : Notice) (outcome : Outcome) : Prop where
  later : before.Later outcome.2
  served : Served before.watcher before.hooks notice
    (.counted notice before.watcher :: before.since outcome.2) outcome.2.watcher outcome.2.hooks
  watched : outcome.2.Watched Plan.Logging
  calm : outcome.1 = .ok () → (before.since outcome.2).filterMap Happening.refusal? = []
  /-- Where the call put no other in, the hook comes back if the call goes through, -/
  back : ∀ hook, before.slot = some hook → outcome.1 = .ok () → outcome.2.hooks = before.hooks →
    outcome.2.slot = some { hook with calls := hook.calls + 1 }
  /-- and is gone if it does not. -/
  gone : ∀ fault, outcome.1 = .error fault → outcome.2.hooks = before.hooks →
    outcome.2.slot = none

def Telling.Delivers (tell : Telling) : Prop :=
  ∀ (heap : Heap) (notice : Notice), heap.Watched Plan.Logging → notice.request.Small →
    (tell heap notice).Contained → heap.Told notice (tell heap notice)

variable {caller : Nat} {heap between : Heap} {tell : Telling} {outcome : Outcome}
  {answer : Except Fault Unit}

theorem went_refl (caller : Nat) (answer : Except Fault Unit) (watched : heap.Watched Plan.Logging) :
    heap.Went caller (answer, heap) := by
  refine ⟨.refl heap, ?_, watched, fun _ => ?_⟩
  · rw [since_self]
    exact .done
  · rw [since_self]
    rfl

theorem Went.trans (early : heap.Went caller (answer, between))
    (late : between.Went caller outcome) (passes : outcome.1 = .ok () → answer = .ok ()) :
    heap.Went caller outcome := by
  have since := since_trans early.later late.later
  refine ⟨early.later.trans late.later, ?_, late.watched, fun through => ?_⟩
  · rw [since]
    exact early.inside.trans late.inside
  · rw [since, List.filterMap_append, early.calm (passes through), late.calm through]
    rfl

theorem went_one {happening : Happening} (later : heap.Later between)
    (added : heap.since between = [happening])
    (inside : Inside caller heap.watcher heap.hooks [happening] between.watcher between.hooks)
    (watched : between.Watched Plan.Logging) (granted : happening.refusal? = none) :
    heap.Went caller (.ok (), between) := by
  refine ⟨later, ?_, watched, fun _ => ?_⟩
  · rw [added]
    exact inside
  · rw [added, List.filterMap_cons_none granted]
    rfl

section Calls
variable (delivers : tell.Delivers)
include delivers

theorem request_went (caller : Nat) (heap : Heap) (request : Request) (small : request.Small)
    (watched : heap.Watched Plan.Logging) (contained : (heap.request tell request).Contained) :
    heap.Went caller (heap.request tell request) := by
  unfold Heap.request at contained ⊢
  cases asked : request.kind? with
  | none => exact went_refl caller _ watched
  | some kind =>
      simp only [asked] at contained ⊢
      have told := delivers (heap.account kind request) ⟨kind, request, _⟩ watched small contained
      have counted := Later.account heap kind request
      have since := since_trans counted told.later
      have first : heap.since (heap.account kind request) =
          [.counted ⟨kind, request, (heap.account kind request).counters⟩ heap.watcher] :=
        since_remember _ _
      rw [first] at since
      refine ⟨counted.trans told.later, ?_, told.watched, fun through => ?_⟩
      · rw [since, ← List.append_nil (_ ++ _)]
        exact .asked told.served .done
      · rw [since]
        exact told.calm through

omit delivers in
/-- What a fault leaves does not hide that it was a fatal one, or that it was one at all. -/
theorem unwind_fault (fault : Fault) (held : List Nat) (heap : Heap) :
    (unwind tell fault held heap).1 ≠ .ok () ∧
      ((unwind tell fault held heap).Contained → fault.isFatal = false) := by
  induction held generalizing heap with
  | nil => exact ⟨fun through => (by cases through), fun contained => contained fault rfl⟩
  | cons size rest ih =>
      unfold unwind
      split_ifs with fatal
      · exact ⟨fun through => (by cases through), fun contained => contained fault rfl⟩
      · refine ⟨?_, fun _ => Bool.eq_false_iff.mpr fatal⟩
        split
        · rename_i after same
          exact (ih after).1
        · exact fun through => by cases through

theorem went_carries (hook : Hook) :
    Carries tell hook (fun _ act => act.Plain ∧ ∀ next, act = .enlist next → next.Logging)
      (fun size => size < 2 ^ 63)
      fun heap outcome => heap.Watched Plan.Logging → outcome.Contained →
        heap.Went hook.number outcome where
  stays _ answer watched _ := went_refl _ answer watched
  follows first second watched contained := by
    have went := first watched fun fault broken => by cases broken
    exact went.trans (second went.watched contained) fun _ => rfl
  unwinds first second watched contained := by
    obtain ⟨never, fatal⟩ := unwind_fault _ _ _
    have went := first watched fun other same => Except.error.inj same ▸ fatal contained
    exact went.trans (second went.watched contained) fun through => absurd through never
  overtaken _ _ contained := by
    have ended := contained _ rfl
    rw [Fault.followedBy_fatal] at ended
    cases ended
  exhausts _ _ contained := by cases contained _ rfl
  writes heap _ entry fits watched _ :=
    went_one (.remember heap _) (since_remember _ _) (.noted (fits.1 hook.number) .done) watched rfl
  enlists heap _ next fits _ _ := by
    have added : heap.since ((heap.enlist next).write hook (.replaced heap.slot.isSome)) =
        [.noted hook.number (.replaced heap.watcher.isSome)] := by
      rw [watcher, Option.isSome_map]
      exact since_remember _ _
    exact went_one ((Later.enlist heap next).trans (.remember _ _)) added (.replaced .done)
      (watched_some rfl (fits.2 next rfl)) rfl
  vacates _ _ fits := absurd fits.1 id
  resets heap _ _ watched _ :=
    went_one (.resetCounters heap) (since_remember _ _) (.zeroed .done) watched rfl
  asks heap held number size lent fits := by
    have known : held.getD number 0 < 2 ^ 63 := by
      rw [List.getD_eq_getElem?_getD]
      cases found : held[number]? with
      | none => exact Nat.two_pow_pos 63
      | some size => exact lent size (List.mem_of_getElem? found)
    exact ⟨fits.1, request_went delivers hook.number heap _ ⟨known, fits.1⟩⟩
  returns heap _ small :=
    request_went delivers hook.number heap _ ⟨small, Nat.two_pow_pos 63⟩

end Calls

theorem told_vacant (notice : Notice) (vacant : heap.slot = none) :
    heap.Told notice (.ok (), heap) := by
  have nobody : heap.watcher = none := by rw [watcher, vacant, Option.map_none]
  refine ⟨.refl heap, ?_, watched_vacant vacant, fun _ => ?_, ?_, ?_⟩
  · rw [since_self, nobody]
    exact .untold
  · rw [since_self]
    rfl
  · intro hook there
    cases vacant.symm.trans there
  · intro fault broken
    cases broken

theorem history_putBack (heap : Heap) (hook : Hook) :
    (heap.putBack hook).history = heap.history ∧ (heap.putBack hook).hooks = heap.hooks ∧
      (heap.putBack hook).watcher = heap.watcher.or (some hook.number) := by
  unfold putBack watcher
  cases slot : heap.slot with
  | none => exact ⟨rfl, rfl, rfl⟩
  | some other => simp only [slot, Option.map_some, Option.some_or, and_self]

section Ends
variable {hook : Hook} {notice : Notice} {delta : Int} {after : Heap}

theorem since_called (notice : Notice) (delta : Int)
    (later : (heap.vacate.write hook (.seen notice delta)).Later after) :
    heap.Later after ∧
      heap.since after = .noted hook.number (.seen notice delta) ::
        (heap.vacate.write hook (.seen notice delta)).since after := by
  have begun : heap.Later (heap.vacate.write hook (.seen notice delta)) :=
    (Later.vacate heap).trans (.remember _ _)
  have first : heap.since (heap.vacate.write hook (.seen notice delta)) =
      [.noted hook.number (.seen notice delta)] :=
    since_remember heap.vacate _
  refine ⟨begun.trans later, ?_⟩
  rw [since_trans begun later, first, List.singleton_append]

theorem told_returned (there : heap.slot = some hook)
    (weighed : notice.request.delta? = some delta) (logging : hook.plan.Logging)
    (went : (heap.vacate.write hook (.seen notice delta)).Went hook.number (.ok (), after)) :
    heap.Told notice (.ok (), after.putBack { hook with calls := hook.calls + 1 }) := by
  obtain ⟨later, since⟩ := since_called notice delta went.later
  obtain ⟨history, hooks, watcher⟩ :=
    after.history_putBack { hook with calls := hook.calls + 1 }
  have inside := went.inside
  have calm := went.calm rfl
  have same : heap.since (after.putBack { hook with calls := hook.calls + 1 }) =
      heap.since after := by
    rw [Heap.since, history]
    rfl
  have watching : heap.watcher = some hook.number := by rw [Heap.watcher, there, Option.map_some]
  refine ⟨later.trans (.putBack after _), ?_, ?_, fun _ => ?_, ?_, ?_⟩
  · rw [same, since, watching, watcher, hooks]
    exact .returned weighed inside calm
  · exact watched_putBack went.watched logging
  · rw [same, since]
    exact calm
  · intro other thereToo _ unmade
    cases Option.some.inj (there.symm.trans thereToo)
    rw [hooks] at unmade
    -- No other was put in, so the slot is as vacant as it was when the call began.
    have vacant : after.slot = none := by
      have left : after.hooks = (heap.vacate.write hook (.seen notice delta)).hooks := unmade
      rw [left] at inside
      exact Option.map_eq_none_iff.mp inside.silent.1
    simp only [putBack, vacant, install]
  · intro fault broken
    cases broken

theorem told_failed {fault : Fault} (there : heap.slot = some hook)
    (weighed : notice.request.delta? = some delta)
    (went : (heap.vacate.write hook (.seen notice delta)).Went hook.number (.error fault, after)) :
    heap.Told notice (.error fault, after.remember (.refused notice)) := by
  obtain ⟨later, since⟩ := since_called notice delta went.later
  have refused := Later.remember after (.refused notice)
  have inside := went.inside
  have whole := since_trans later refused
  have watching : heap.watcher = some hook.number := by rw [Heap.watcher, there, Option.map_some]
  rw [since, since_remember] at whole
  refine ⟨later.trans refused, ?_, went.watched, fun through => (by cases through), ?_, ?_⟩
  · rw [whole, watching]
    exact .failed weighed inside
  · intro other _ through
    cases through
  · intro _ _ unmade
    have left : after.hooks = (heap.vacate.write hook (.seen notice delta)).hooks := unmade
    rw [left] at inside
    exact Option.map_eq_none_iff.mp inside.silent.1

end Ends

theorem called_went (delivers : tell.Delivers) (heap : Heap) {hook : Hook} {notice : Notice}
    (logging : hook.plan.Logging) (small : notice.request.Small) :
    ∃ delta, notice.request.delta? = some delta ∧
      let called := perform tell hook [] (hook.plan.acts hook.calls notice) heap.vacate
      (called.Contained → (heap.vacate.write hook (.seen notice delta)).Went hook.number called) := by
  have enlisted := logging.enlisted hook.calls notice
  obtain ⟨calls, -⟩ := logging
  obtain ⟨delta, weighed⟩ : ∃ delta, notice.request.delta? = some delta :=
    ⟨_, Word.difference_small _ _ small.new_lt small.old_lt⟩
  obtain ⟨rest, acts, plain⟩ := calls hook.calls notice delta weighed
  have fit : ∀ act ∈ rest, act.Plain ∧ ∀ next, act = .enlist next → next.Logging :=
    fun act member =>
      ⟨plain act member, enlisted act (acts ▸ List.mem_cons_of_mem _ member)⟩
  refine ⟨delta, weighed, ?_⟩
  rw [acts]
  exact (went_carries delivers hook).perform rest [] (Act.each_forall fit [])
    (fun _ member => by cases member) (heap.vacate.write hook (.seen notice delta))
    (watched_vacant rfl)

/-- Hooks that log every call are told by the protocol, however deep their calls are nested. -/
theorem told_settles : Settles fun heap notice outcome =>
    heap.Watched Plan.Logging → notice.request.Small → outcome.Contained →
      heap.Told notice outcome where
  vacant notice slot _ _ _ := told_vacant notice slot
  overflows _ _ _ _ contained := by cases contained _ rfl
  returns {tell heap notice hook after} delivers there ended watched small _ := by
    obtain ⟨delta, weighed, went⟩ := called_went delivers heap (watched hook there) small
    rw [ended] at went
    exact told_returned there weighed (watched hook there) (went fun _ broken => by cases broken)
  breaks {tell heap notice hook fault after} delivers there ended watched small contained := by
    obtain ⟨delta, weighed, went⟩ := called_went delivers heap (watched hook there) small
    rw [ended] at went
    exact told_failed there weighed (went fun other broken =>
      contained other (congrArg Except.error (Except.error.inj broken)))

end Heap

end MeteredChunk
