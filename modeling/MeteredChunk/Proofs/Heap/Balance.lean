import MeteredChunk.Heap.Basic
import Mathlib.Algebra.Ring.Int.Defs
import Mathlib.Algebra.Ring.Nat
import Mathlib.Data.List.Infix
import Mathlib.Tactic.SplitIfs

/-!
The balance of a heap, and that no hook unsettles it.
-/

namespace MeteredChunk

/-! ## Balance

The balance of a heap: what its meter reads against the storage that its users
hold. A request is counted before it is granted, so a refused one leaves a
residue. The residue is read off the history. Where the meter was set back, or a sum
left the range of a word, it may read less than that, but never more.
-/

namespace Happening

def change : Happening → Int
  | counted notice _ => notice.request.new - notice.request.old
  | _ => 0

def refusal? : Happening → Option Request
  | refused notice => some notice.request
  | _ => none

def isZeroing : Happening → Bool
  | zeroed => true
  | _ => false

end Happening

theorem Request.kind?_release (bytes : Nat) (held : 0 < bytes) :
    kind? ⟨bytes, 0⟩ = some .free := by
  simp [kind?, held.ne']

theorem Request.kind?_eq_none (request : Request) :
    request.kind? = none ↔ request.old = request.new := by
  unfold kind?
  split_ifs with same <;> simp [same]

def occupied (bytes : Nat) : Nat := if bytes = 0 then 0 else 1

namespace Counters

theorem live_account (counters : Counters) (kind : RequestKind) (request : Request) :
    (counters.account kind request).live =
      Word.clamp (counters.live - request.old + request.new) := by
  cases kind <;> rfl

theorem peak_account (counters : Counters) (kind : RequestKind) (request : Request) :
    (counters.account kind request).peak =
      max counters.peak (counters.account kind request).live := by
  cases kind <;> rfl

/-- Allocations less frees move as the blocks of the request do. -/
theorem blocks_account (counters : Counters) (request : Request) (kind : RequestKind)
    (asked : request.kind? = some kind) :
    (counters.account kind request).allocations + counters.frees + occupied request.old =
      counters.allocations + (counters.account kind request).frees + occupied request.new := by
  unfold Request.kind? at asked
  unfold occupied
  split_ifs at asked ⊢ <;> cases asked <;> simp only [account, tally] <;> omega

end Counters

namespace Heap

def refusals (heap : Heap) : List Request := heap.history.toList.filterMap Happening.refusal?

def refusedBytes (heap : Heap) : Nat := (heap.refusals.map Request.new).sum

def refusedBlocks (heap : Heap) : Nat := (heap.refusals.map fun request => occupied request.new).sum

def total (heap : Heap) : Int := (heap.history.toList.map Happening.change).sum

/-- The meter was never zeroed, and no sum of it ever left the range of a word. -/
def Exact (heap : Heap) : Prop :=
  (∀ happening ∈ heap.history.toList, happening.isZeroing = false) ∧
    ∀ past ∈ heap.history.toList.inits, (past.map Happening.change).sum < Word.limit

instance (heap : Heap) : Decidable heap.Exact := inferInstanceAs (Decidable (_ ∧ _))

/-- The users of the heap hold `bytes` bytes in `blocks` blocks, and the meter reads that and the
residue of refused requests. -/
structure Balanced (ceiling : Nat) (heap : Heap) (bytes blocks : Nat) : Prop where
  ceiling_eq : heap.ceiling = ceiling
  live_le : heap.counters.live ≤ bytes + heap.refusedBytes
  total_eq : heap.Exact → (heap.counters.live : Int) = heap.total
  live_eq : heap.Exact → heap.counters.live = bytes + heap.refusedBytes
  blocks_eq : heap.Exact →
    heap.counters.allocations = heap.counters.frees + blocks + heap.refusedBlocks

variable {ceiling bytes blocks : Nat} {heap : Heap}

theorem history_remember (heap : Heap) (happening : Happening) :
    (heap.remember happening).history.toList = heap.history.toList ++ [happening] := by
  simp [remember]

theorem total_remember (heap : Heap) (happening : Happening) :
    (heap.remember happening).total = heap.total + happening.change := by
  simp [total, history_remember]

theorem refusals_remember (heap : Heap) (happening : Happening) :
    (heap.remember happening).refusals = heap.refusals ++ happening.refusal?.toList := by
  cases found : happening.refusal? <;> simp [refusals, history_remember, found]

theorem exact_remember (heap : Heap) (happening : Happening)
    (exact : (heap.remember happening).Exact) :
    heap.Exact ∧ happening.isZeroing = false ∧ heap.total + happening.change < Word.limit := by
  obtain ⟨unzeroed, below⟩ := exact
  rw [history_remember] at unzeroed below
  refine ⟨⟨fun each member => unzeroed each (by simp [member]), fun past member => ?_⟩,
    unzeroed happening (by simp), ?_⟩
  -- Prefixes of the old history are prefixes of the new one, which is one itself.
  · apply below
    rw [List.mem_inits] at member ⊢
    exact member.trans (List.prefix_append _ _)
  · have whole := below (heap.history.toList ++ [happening]) ((List.mem_inits _ _).mpr List.prefix_rfl)
    simpa [total] using whole

theorem remember_balanced (happening : Happening) (still : happening.change = 0)
    (granted : happening.refusal? = none) (balanced : heap.Balanced ceiling bytes blocks) :
    (heap.remember happening).Balanced ceiling bytes blocks := by
  have past (exact : (heap.remember happening).Exact) := (exact_remember heap happening exact).1
  have same : (heap.remember happening).refusals = heap.refusals := by
    rw [refusals_remember, granted, Option.toList_none, List.append_nil]
  constructor
  · exact balanced.ceiling_eq
  · rw [refusedBytes, same]
    exact balanced.live_le
  · intro exact
    rw [total_remember, still, Int.add_zero]
    exact balanced.total_eq (past exact)
  · intro exact
    rw [refusedBytes, same]
    exact balanced.live_eq (past exact)
  · intro exact
    rw [refusedBlocks, same]
    exact balanced.blocks_eq (past exact)

theorem write_balanced (hook : Hook) (entry : Entry) (balanced : heap.Balanced ceiling bytes blocks) :
    (heap.write hook entry).Balanced ceiling bytes blocks :=
  remember_balanced _ rfl rfl balanced

theorem enlist_balanced (plan : Plan) (balanced : heap.Balanced ceiling bytes blocks) :
    (heap.enlist plan).Balanced ceiling bytes blocks :=
  ⟨balanced.ceiling_eq, balanced.live_le, balanced.total_eq, balanced.live_eq, balanced.blocks_eq⟩

theorem install_balanced (hook : Hook) (balanced : heap.Balanced ceiling bytes blocks) :
    (heap.install hook).Balanced ceiling bytes blocks :=
  ⟨balanced.ceiling_eq, balanced.live_le, balanced.total_eq, balanced.live_eq, balanced.blocks_eq⟩

theorem vacate_balanced (balanced : heap.Balanced ceiling bytes blocks) :
    heap.vacate.Balanced ceiling bytes blocks :=
  ⟨balanced.ceiling_eq, balanced.live_le, balanced.total_eq, balanced.live_eq, balanced.blocks_eq⟩

theorem putBack_balanced (hook : Hook) (balanced : heap.Balanced ceiling bytes blocks) :
    (heap.putBack hook).Balanced ceiling bytes blocks := by
  unfold putBack
  split
  · exact install_balanced hook balanced
  · exact balanced

theorem resetCounters_balanced (balanced : heap.Balanced ceiling bytes blocks) :
    heap.resetCounters.Balanced ceiling bytes blocks := by
  have never : ¬ heap.resetCounters.Exact := fun exact =>
    Bool.noConfusion (exact_remember _ _ exact).2.1
  exact ⟨balanced.ceiling_eq, Nat.zero_le _, fun exact => absurd exact never,
    fun exact => absurd exact never, fun exact => absurd exact never⟩

/-- A refused request adds to the residue what it would have granted. -/
theorem residue_refuse (heap : Heap) (notice : Notice) :
    (heap.remember (.refused notice)).refusedBytes = heap.refusedBytes + notice.request.new ∧
      (heap.remember (.refused notice)).refusedBlocks =
        heap.refusedBlocks + occupied notice.request.new := by
  have more : (heap.remember (.refused notice)).refusals = heap.refusals ++ [notice.request] :=
    refusals_remember heap _
  simp [refusedBytes, refusedBlocks, more]

/-- A refusal takes what the request would have granted out of the users' hands, and leaves it
on the meter. -/
theorem refuse_balanced (notice : Notice)
    (balanced : heap.Balanced ceiling (bytes + notice.request.new)
      (blocks + occupied notice.request.new)) :
    (heap.remember (.refused notice)).Balanced ceiling bytes blocks := by
  have past (exact : (heap.remember (.refused notice)).Exact) := (exact_remember heap _ exact).1
  have read : (heap.remember (.refused notice)).counters = heap.counters := rfl
  obtain ⟨residue, residueBlocks⟩ := residue_refuse heap notice
  constructor
  · exact balanced.ceiling_eq
  · have covered := balanced.live_le
    rw [read, residue]
    omega
  · intro exact
    have still : (Happening.refused notice).change = 0 := rfl
    rw [total_remember, still, Int.add_zero]
    exact balanced.total_eq (past exact)
  · intro exact
    have live := balanced.live_eq (past exact)
    rw [read, residue]
    omega
  · intro exact
    have counted := balanced.blocks_eq (past exact)
    rw [read, residueBlocks]
    omega

theorem refusals_account (heap : Heap) (kind : RequestKind) (request : Request) :
    (heap.account kind request).refusals = heap.refusals := by
  unfold account
  rw [refusals_remember]
  exact List.append_nil _

theorem total_account (heap : Heap) (kind : RequestKind) (request : Request) :
    (heap.account kind request).total = heap.total + (request.new - request.old) := by
  unfold account
  rw [total_remember]
  rfl

/-- The meter takes the old size off as far as it reads that much, so it gains no more than the users
do. -/
theorem account_covered (counters : Counters) (kind : RequestKind) (request : Request) {held : Nat}
    (covered : counters.live ≤ held + request.old) :
    (counters.account kind request).live ≤ held + request.new := by
  rw [Counters.live_account, Word.clamp]
  omega

/-- Counting a request moves the users' side from the old size to the new one. -/
theorem account_balanced (request : Request) (kind : RequestKind)
    (asked : request.kind? = some kind)
    (balanced : heap.Balanced ceiling (bytes + request.old) (blocks + occupied request.old)) :
    (heap.account kind request).Balanced ceiling (bytes + request.new)
      (blocks + occupied request.new) := by
  have past (exact : (heap.account kind request).Exact) := (exact_remember _ _ exact).1
  -- The clamp does nothing: the request takes from bytes that are held, and the sum stays in range.
  have live (exact : (heap.account kind request).Exact) :
      (heap.account kind request).counters.live = heap.counters.live - request.old + request.new := by
    obtain ⟨past, -, below⟩ := exact_remember _ _ exact
    have held := balanced.live_eq past
    have sum := balanced.total_eq past
    change heap.total + (request.new - request.old) < Word.limit at below
    change (heap.counters.account kind request).live = _
    rw [Counters.live_account, Word.clamp]
    omega
  constructor
  · exact balanced.ceiling_eq
  · have covered := balanced.live_le
    rw [Nat.add_right_comm] at covered ⊢
    rw [refusedBytes, refusals_account, ← refusedBytes]
    exact account_covered heap.counters kind request covered
  · intro exact
    have held := balanced.live_eq (past exact)
    have sum := balanced.total_eq (past exact)
    rw [live exact, total_account]
    omega
  · intro exact
    have held := balanced.live_eq (past exact)
    rw [live exact, refusedBytes, refusals_account, ← refusedBytes]
    omega
  · intro exact
    have counted := balanced.blocks_eq (past exact)
    have moved := heap.counters.blocks_account request kind asked
    change (heap.counters.account kind request).allocations =
      (heap.counters.account kind request).frees + _ + _
    rw [refusedBlocks, refusals_account, ← refusedBlocks]
    omega

end Heap

end MeteredChunk

namespace MeteredChunk.Heap

/-! ## Hooks keep the balance

Hooks cannot unsettle the balance of a heap. Whatever a hook does in a call, the
request it was told of is granted or refused as a whole, and the scratch blocks of
the call are given back. A call can put in a successor that is told of those blocks
in turn, so the argument goes by how many calls may still be nested.
-/

structure Outcome.Ends (outcome : Outcome) (served broken : Heap → Prop) : Prop where
  through : outcome.1 = .ok () → served outcome.2
  off : ∀ fault, outcome.1 = .error fault → fault.isFatal = false → broken outcome.2

variable {ceiling bytes blocks : Nat} {heap : Heap} {tell : Telling}

section Outcomes
variable {served broken : Heap → Prop}

theorem Outcome.ends_ok (holds : served heap) : Outcome.Ends (.ok (), heap) served broken :=
  ⟨fun _ => holds, fun _ same _ => by cases same⟩

theorem Outcome.ends_error (fault : Fault) (holds : fault.isFatal = false → broken heap) :
    Outcome.Ends (.error fault, heap) served broken :=
  ⟨fun same => (by cases same), fun _ same contained => by cases same; exact holds contained⟩

theorem Outcome.ends_andThen {between : Heap → Prop} {outcome : Outcome} {next : Heap → Outcome}
    (first : outcome.Ends between broken)
    (second : ∀ heap, between heap → (next heap).Ends served broken) :
    (outcome.andThen next).Ends served broken := by
  obtain ⟨answer, heap⟩ := outcome
  cases answer with
  | ok answer => exact second heap (first.through rfl)
  | error fault => exact Outcome.ends_error fault (first.off fault rfl)

end Outcomes

def Telling.Fair (ceiling : Nat) (tell : Telling) : Prop :=
  ∀ (heap : Heap) (notice : Notice) (bytes blocks : Nat),
    heap.Balanced ceiling (bytes + notice.request.new) (blocks + occupied notice.request.new) →
      (tell heap notice).Ends
        (·.Balanced ceiling (bytes + notice.request.new) (blocks + occupied notice.request.new))
        (·.Balanced ceiling bytes blocks)

theorem request_ends (fair : tell.Fair ceiling) (request : Request)
    (balanced : heap.Balanced ceiling (bytes + request.old) (blocks + occupied request.old)) :
    (heap.request tell request).Ends
      (·.Balanced ceiling (bytes + request.new) (blocks + occupied request.new))
      (·.Balanced ceiling bytes blocks) := by
  unfold Heap.request
  cases asked : request.kind? with
  | none =>
      have same : request.old = request.new := request.kind?_eq_none.mp asked
      exact Outcome.ends_ok (same ▸ balanced)
  | some kind => exact fair _ ⟨kind, request, _⟩ _ _ (account_balanced request kind asked balanced)

theorem resize_ends (fair : tell.Fair ceiling) (old new : Nat)
    (balanced : heap.Balanced ceiling (bytes + old) (blocks + occupied old)) :
    (heap.resize tell old new).Ends (·.Balanced ceiling (bytes + new) (blocks + occupied new))
      (·.Balanced ceiling bytes blocks) := by
  apply Outcome.ends_andThen (request_ends fair ⟨old, new⟩ balanced)
  intro after granted
  split_ifs
  · exact Outcome.ends_error _ (fun contained => by cases contained)
  · exact Outcome.ends_ok granted

abbrev Lent (ceiling bytes blocks : Nat) (held : List Nat) (heap : Heap) : Prop :=
  heap.Balanced ceiling (bytes + held.sum) (blocks + (held.map occupied).sum)

theorem lent_cons (size : Nat) (held : List Nat) :
    heap.Lent ceiling bytes blocks (size :: held) ↔
      heap.Balanced ceiling (bytes + held.sum + size)
        (blocks + (held.map occupied).sum + occupied size) := by
  simp only [Lent, List.map_cons, List.sum_cons, Nat.add_assoc, Nat.add_comm size,
    Nat.add_comm (occupied size)]

theorem lent_getD (number : Nat) (held : List Nat) :
    heap.Lent ceiling bytes blocks held ↔
      heap.Lent ceiling bytes blocks (held.getD number 0 :: held.eraseIdx number) := by
  -- A number past the end names a new block. It has no bytes yet and is no block yet, so that both
  -- weights of it are zero.
  have same (weight : Nat → Nat) (empty : weight 0 = 0) :
      (held.map weight).sum =
        weight (held.getD number 0) + ((held.eraseIdx number).map weight).sum := by
    induction held generalizing number with
    | nil => simp [empty]
    | cons size rest ih =>
        cases number with
        | zero => simp
        | succ number =>
            have recursive := ih number
            simp only [List.map_cons, List.sum_cons, List.getD_cons_succ,
              List.eraseIdx_cons_succ]
            omega
  have bytes := same id rfl
  have blocks := same occupied rfl
  simp only [List.map_id_fun, id_eq] at bytes
  simp only [Lent, List.map_cons, List.sum_cons, bytes, blocks]

theorem unwind_ends {served : Heap → Prop} (fair : tell.Fair ceiling) (fault : Fault)
    (held : List Nat) (lent : fault.isFatal = false → heap.Lent ceiling bytes blocks held) :
    (unwind tell fault held heap).Ends served (·.Balanced ceiling bytes blocks) := by
  -- On the blocks still to give back. A second fault is fatal, and then nothing is left to show.
  induction held generalizing heap with
  | nil => exact Outcome.ends_error fault lent
  | cons size rest ih =>
      unfold unwind
      split_ifs with fatal
      · exact Outcome.ends_error fault fun contained => absurd fatal (by simp [contained])
      · have contained : fault.isFatal = false := Bool.eq_false_iff.mpr fatal
        have ended := resize_ends fair size 0 ((lent_cons size rest).mp (lent contained))
        split
        · rename_i after same
          rw [same] at ended
          exact ih fun _ => ended.through rfl
        · rename_i later after same
          refine Outcome.ends_error _ fun contained => ?_
          rw [Fault.followedBy_fatal] at contained
          cases contained

theorem giveBack_ends (fair : tell.Fair ceiling) (held : List Nat)
    (lent : heap.Lent ceiling bytes blocks held) :
    (giveBack tell held heap).Ends (·.Balanced ceiling bytes blocks)
      (·.Balanced ceiling bytes blocks) := by
  induction held generalizing heap with
  | nil => exact Outcome.ends_ok lent
  | cons size rest ih =>
      have ended := resize_ends fair size 0 ((lent_cons size rest).mp lent)
      unfold giveBack
      split
      · rename_i after same
        rw [same] at ended
        exact ih (ended.through rfl)
      · rename_i fault after same
        rw [same] at ended
        exact unwind_ends fair fault rest (ended.off fault rfl)

theorem perform_ends (fair : tell.Fair ceiling) (hook : Hook) (acts : List (Act Plan))
    (held : List Nat) (lent : heap.Lent ceiling bytes blocks held) :
    (perform tell hook held acts heap).Ends (·.Balanced ceiling bytes blocks)
      (·.Balanced ceiling bytes blocks) := by
  -- On the acts still to come, for the scratch blocks that there are by then.
  induction acts generalizing heap held with
  | nil => exact giveBack_ends fair held lent
  | cons act rest ih =>
      cases act with
      | write entry => exact ih held (write_balanced hook entry lent)
      | enlist next => exact ih held (write_balanced hook _ (enlist_balanced next lent))
      | vacate => exact ih held (vacate_balanced lent)
      | reset => exact ih held (resetCounters_balanced lent)
      | fail fault => exact unwind_ends fair fault held fun _ => lent
      | resize number size =>
          have one := (lent_cons _ _).mp ((lent_getD number held).mp lent)
          have ended := resize_ends fair (held.getD number 0) size one
          unfold perform
          dsimp only
          split
          · rename_i after same
            rw [same] at ended
            exact ih _ ((lent_cons size _).mpr (ended.through rfl))
          · rename_i fault after same
            rw [same] at ended
            exact unwind_ends fair fault _ (ended.off fault rfl)

theorem notify_vacant (room : Nat) (notice : Notice) (vacant : heap.slot = none) :
    notify room heap notice = (.ok (), heap) := by
  cases room <;> simp [notify, vacant]

/-- A hook in the slot can do anything that acts allow. -/
theorem notify_fair (ceiling room : Nat) : (notify room).Fair ceiling := by
  -- On the nesting that is left: what a call asks for is told with less of it, also to the hook
  -- that the call itself put in.
  induction room with
  | zero =>
      intro heap notice bytes blocks balanced
      cases slot : heap.slot with
      | none => exact notify_vacant 0 notice slot ▸ Outcome.ends_ok balanced
      | some hook =>
          unfold notify
          simp only [slot]
          exact Outcome.ends_error _ (fun contained => by cases contained)
  | succ room ih =>
      intro heap notice bytes blocks balanced
      cases slot : heap.slot with
      | none => exact notify_vacant (room + 1) notice slot ▸ Outcome.ends_ok balanced
      | some hook =>
          have ended := perform_ends ih hook (hook.plan.acts hook.calls notice) []
            (vacate_balanced balanced)
          unfold notify
          simp only [slot]
          split
          · rename_i after same
            rw [same] at ended
            exact Outcome.ends_ok (putBack_balanced _ (ended.through rfl))
          · rename_i fault after same
            rw [same] at ended
            exact Outcome.ends_error fault fun contained =>
              refuse_balanced notice (ended.off fault rfl contained)

theorem serve_ends (request : Request)
    (balanced : heap.Balanced ceiling (bytes + request.old) (blocks + occupied request.old)) :
    (heap.serve request).Ends
      (·.Balanced ceiling (bytes + request.new) (blocks + occupied request.new))
      (·.Balanced ceiling bytes blocks) :=
  request_ends (notify_fair ceiling heap.stack) request balanced

end MeteredChunk.Heap
