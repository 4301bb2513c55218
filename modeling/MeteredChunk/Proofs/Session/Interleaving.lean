import MeteredChunk.Proofs.Dialogue.Backing
import MeteredChunk.Proofs.Session.Influence

/-!
Operations on separate objects, in any order.
-/

namespace MeteredChunk

/-! ## Joint heaps

Two heaps and one that has the requests of both, in any order. Without hooks, and while
no sum leaves the range of a word, a request does the same to the meter of its own heap
and to that of the third one, whatever else was counted there. All readings but the
peak add up, and the peak of the third heap is between the larger peak and the sum.
-/

structure Counters.Joined (one other both : Counters) : Prop where
  live_eq : both.live = one.live + other.live
  allocations_eq : both.allocations = one.allocations + other.allocations
  grows_eq : both.grows = one.grows + other.grows
  shrinks_eq : both.shrinks = one.shrinks + other.shrinks
  frees_eq : both.frees = one.frees + other.frees
  peak_ge : max one.peak other.peak ≤ both.peak
  peak_le : both.peak ≤ one.peak + other.peak

namespace Counters

variable {one other both : Counters}

theorem Joined.symm (joined : Joined one other both) : Joined other one both := by
  refine ⟨?_, ?_, ?_, ?_, ?_, ?_, ?_⟩
  · rw [joined.live_eq, Nat.add_comm]
  · rw [joined.allocations_eq, Nat.add_comm]
  · rw [joined.grows_eq, Nat.add_comm]
  · rw [joined.shrinks_eq, Nat.add_comm]
  · rw [joined.frees_eq, Nat.add_comm]
  · rw [max_comm]
    exact joined.peak_ge
  · rw [Nat.add_comm]
    exact joined.peak_le

/-- A request of the first. It takes from bytes that the first meter reads, and no sum leaves the
range, so neither end of the range has a say. -/
theorem joined_account (joined : Joined one other both) (kind : RequestKind) (request : Request)
    (peaked : other.live ≤ other.peak) (backed : request.old ≤ one.live)
    (below : both.live - request.old + request.new < Word.limit) :
    (one.account kind request).live = one.live - request.old + request.new ∧
      Joined (one.account kind request) other (both.account kind request) := by
  have sum := joined.live_eq
  have live : (one.account kind request).live = one.live - request.old + request.new := by
    rw [live_account, Word.clamp]
    omega
  have liveBoth : (both.account kind request).live = both.live - request.old + request.new := by
    rw [live_account, Word.clamp]
    omega
  have lower := joined.peak_ge
  have upper := joined.peak_le
  have peak := peak_account one kind request
  have peakBoth := peak_account both kind request
  refine ⟨live, by omega, ?_, ?_, ?_, ?_, by omega, by omega⟩
  · have before := joined.allocations_eq
    cases kind <;> simp only [account, tally] <;> omega
  · have before := joined.grows_eq
    cases kind <;> simp only [account, tally] <;> omega
  · have before := joined.shrinks_eq
    cases kind <;> simp only [account, tally] <;> omega
  · have before := joined.frees_eq
    cases kind <;> simp only [account, tally] <;> omega

end Counters

namespace Heap

structure Joint (one other both : Heap) : Prop where
  vacant : one.slot = none
  vacantToo : other.slot = none
  vacantBoth : both.slot = none
  ceiling_eq : one.ceiling = both.ceiling
  ceilingToo : other.ceiling = both.ceiling
  peaked : one.counters.live ≤ one.counters.peak
  peakedToo : other.counters.live ≤ other.counters.peak
  total_eq : (both.counters.live : Int) = both.total
  joined : Counters.Joined one.counters other.counters both.counters

variable {one other both : Heap}

theorem Joint.symm (joint : Joint one other both) : Joint other one both :=
  ⟨joint.vacantToo, joint.vacant, joint.vacantBoth, joint.ceilingToo, joint.ceiling_eq,
    joint.peakedToo, joint.peaked, joint.total_eq, joint.joined.symm⟩

/-- A heap that is exact was so before. -/
theorem Later.exact {before after : Heap} (later : before.Later after) (exact : after.Exact) :
    before.Exact := by
  obtain ⟨unzeroed, below⟩ := exact
  constructor
  · intro happening member
    exact unzeroed happening (later.history_kept.subset member)
  · intro past member
    apply below
    rw [List.mem_inits] at member ⊢
    exact member.trans later.history_kept

theorem joint_count (joint : Joint one other both) (request : Request)
    (backed : request.old ≤ one.counters.live) (exact : (both.count request).Exact) :
    (one.count request).counters.live = one.counters.live - request.old + request.new ∧
      Joint (one.count request) other (both.count request) := by
  unfold count at exact ⊢
  cases asked : request.kind? with
  | none =>
      have same : request.old = request.new := by
        unfold Request.kind? at asked
        split_ifs at asked
        assumption
      refine ⟨?_, joint⟩
      dsimp only
      omega
  | some kind =>
      simp only [asked] at exact ⊢
      -- The third heap is the one whose sums stay in range; those of the first are smaller.
      obtain ⟨-, -, below⟩ := exact_remember _ _ exact
      change both.total + (request.new - request.old) < Word.limit at below
      have total := joint.total_eq
      have sum := joint.joined.live_eq
      obtain ⟨live, joined⟩ := Counters.joined_account joint.joined kind request joint.peakedToo
        backed (by omega)
      refine ⟨live, joint.vacant, joint.vacantToo, joint.vacantBoth, joint.ceiling_eq,
        joint.ceilingToo, ?_, joint.peakedToo, ?_, joined⟩
      · have peak := one.counters.peak_account kind request
        change (one.counters.account kind request).live ≤ (one.counters.account kind request).peak
        omega
      · have liveBoth := joined.live_eq
        rw [total_account]
        change ((both.counters.account kind request).live : Int) = _
        omega

end Heap

/-! ## Interleavings

Work on separate objects, in any order. An operation is about one place, and without
hooks all that it learns from the heap is its ceiling. So two lists of operations that
are about different places do not notice each other when they are interleaved.
-/

section Interleavings
variable {κ : Type} [Kinds κ]

namespace Operation

def place? : Operation κ → Option Place
  | .create name blueprint => some ⟨blueprint.family, name⟩
  | .visit place | .edit place _ | .discard place => some place
  | .installHook _ | .takeHook | .restoreHook | .resetCounters => none

def on (side : Place → Bool) (operation : Operation κ) : Bool :=
  (operation.place?.map side).getD false

theorem on_place {side : Place → Bool} {operation : Operation κ} (placed : operation.on side = true) :
    ∃ place, operation.place? = some place ∧ side place = true := by
  unfold on at placed
  cases about : operation.place? with
  | none =>
      rw [about] at placed
      cases placed
  | some place =>
      rw [about] at placed
      exact ⟨place, rfl, placed⟩

theorem on_apart {side : Place → Bool} {operation : Operation κ}
    (placed : operation.on (!side ·) = true) : operation.on side = false := by
  obtain ⟨place, about, there⟩ := on_place placed
  rw [on, about]
  exact Bool.not_eq_true' _ ▸ there

theorem plain_place {operation : Operation κ} {place : Place}
    (about : operation.place? = some place) :
    operation.isHook = false ∧ operation ≠ .resetCounters := by
  cases operation <;> cases about <;> exact ⟨rfl, fun same => by cases same⟩

end Operation

namespace Session

def attending (old : Option (Object κ)) : Operation κ → Dialogue (Option (Object κ)) Reply
  | .create _ blueprint =>
      match blueprint.build with
      | .error fault => .close (.error fault) old
      | .ok object => giving old .done (some object)
  | .visit place =>
      match old <|> Object.ofFamily? place.family with
      | some object => .close (.ok .done) (some object)
      | none => .close (.ok .missing) old
  | .edit place edit =>
      match (old <|> Object.ofFamily? place.family).bind (·.editing edit) with
      | some dialogue => dialogue.within some
      | none => .close (.ok .missing) old
  | .discard _ => giving old (.found old.isSome) none
  | _ => .close (.ok .done) old

section Places
variable {session : Session κ} {place : Place}

theorem object?_put (session : Session κ) (place : Place) (object : Object κ) :
    (session.put place object).object? place = some object := by
  simp [put, object?]

theorem object?_remove (session : Session κ) (place : Place) :
    (session.remove place).object? place = none := by
  simp [remove, object?]

theorem remove_remove (session : Session κ) (place : Place) :
    ((session.remove place).remove place).objects = (session.remove place).objects := by
  simp [remove]

theorem remove_put (session : Session κ) (place : Place) (object : Object κ) :
    ((session.put place object).remove place).objects = (session.remove place).objects := by
  simp [put, remove]

theorem object?_other (session : Session κ) {other : Place} (apart : other ≠ place) :
    (session.remove place).object? other = session.object? other := by
  simp only [object?, remove, List.find?_filter]
  congr 2
  funext entry
  by_cases here : entry.1 = other
  · simp [here, apart]
  · simp [here]

end Places

/-- Giving up is about the object alone; what is left besides stays as it is told. -/
theorem giving_granted {σ : Type} (old : Option (Object κ)) (reply : Reply) (left : σ)
    (ceiling : Nat) :
    (giving old reply left).granted ceiling = (((giving old reply ()).granted ceiling).1, left) ∧
      (giving old reply left).wishes ceiling = (giving old reply ()).wishes ceiling := by
  cases old with
  | none => exact ⟨rfl, rfl⟩
  | some object =>
      simp only [giving, Dialogue.granted_follow, Dialogue.wishes_follow]
      exact ⟨rfl, rfl⟩

structure Confined (session : Session κ) (place : Place)
    (dialogue : Dialogue (Option (Object κ)) Reply) (stepped : Reply × Session κ) : Prop where
  reply_eq : stepped.1 = replied (dialogue.granted session.heap.ceiling).1
  object_eq : stepped.2.object? place = (dialogue.granted session.heap.ceiling).2
  others_eq : (stepped.2.remove place).objects = (session.remove place).objects
  heap_eq : stepped.2.heap = session.heap.serveAll (dialogue.wishes session.heap.ceiling)
  distinct : (session.objects.map Prod.fst).Nodup → (stepped.2.objects.map Prod.fst).Nodup

theorem Confined.object?_apart {session : Session κ} {place other : Place}
    {dialogue : Dialogue (Option (Object κ)) Reply} {stepped : Reply × Session κ}
    (confined : session.Confined place dialogue stepped) (apart : other ≠ place) :
    stepped.2.object? other = session.object? other := by
  rw [← object?_other stepped.2 apart, ← object?_other session apart, object?, object?,
    confined.others_eq]

def grantedStep (session : Session κ) (dialogue : Dialogue (Objects κ) Reply) : Reply × Session κ :=
  (replied (dialogue.granted session.heap.ceiling).1,
    ⟨session.heap.serveAll (dialogue.wishes session.heap.ceiling),
      (dialogue.granted session.heap.ceiling).2, session.shelf⟩)

theorem confined_close {session left : Session κ} {place : Place} {new : Option (Object κ)}
    (answer : Except Fault Reply) (there : left.object? place = new)
    (others : (left.remove place).objects = (session.remove place).objects)
    (distinct : (session.objects.map Prod.fst).Nodup → (left.objects.map Prod.fst).Nodup) :
    session.Confined place (.close answer new) (session.grantedStep (.close answer left.objects)) :=
  ⟨rfl, there, others, rfl, distinct⟩

theorem confined_giving {session left : Session κ} {place : Place} {new : Option (Object κ)}
    (old : Option (Object κ)) (reply : Reply) (there : left.object? place = new)
    (others : (left.remove place).objects = (session.remove place).objects)
    (distinct : (session.objects.map Prod.fst).Nodup → (left.objects.map Prod.fst).Nodup) :
    session.Confined place (giving old reply new)
      (session.grantedStep (giving old reply left.objects)) := by
  obtain ⟨granted, asks⟩ := giving_granted old reply left.objects session.heap.ceiling
  obtain ⟨grantedToo, asksToo⟩ := giving_granted old reply new session.heap.ceiling
  rw [grantedStep, granted, asks]
  refine ⟨?_, ?_, others, ?_, distinct⟩
  · rw [grantedToo]
  · rw [grantedToo]
    exact there
  · rw [asksToo]

theorem confined_within {session : Session κ} {place : Place}
    (dialogue : Dialogue (Object κ) Reply) :
    session.Confined place (dialogue.within some)
      (session.grantedStep (dialogue.within fun object => (session.put place object).objects)) := by
  refine ⟨?_, ?_, ?_, ?_, fun distinct => ?_⟩
  · rw [grantedStep, Dialogue.granted_within, Dialogue.granted_within]
  · rw [grantedStep, Dialogue.granted_within, Dialogue.granted_within]
    exact object?_put session place _
  · rw [grantedStep, Dialogue.granted_within]
    exact remove_put session place _
  · rw [grantedStep, Dialogue.wishes_within, Dialogue.wishes_within]
  · rw [grantedStep, Dialogue.granted_within]
    exact distinct_put distinct place _

theorem step_confined {session : Session κ} {operation : Operation κ} {place : Place}
    (vacant : session.heap.slot = none) (about : operation.place? = some place) :
    session.Confined place (attending (session.object? place) operation)
      (session.step operation) := by
  obtain ⟨plain, kept⟩ := Operation.plain_place about
  -- Without a hook the dialogue of the step is granted everything, so both can be compared.
  have same : session.step operation = session.grantedStep (session.consult operation) := by
    rw [session.step_consult operation plain kept,
      Dialogue.hold_vacant (session.consult operation) vacant]
    rfl
  rw [same]
  cases operation with
  | create name blueprint =>
      cases about
      simp only [consult, attending]
      cases blueprint.build with
      | error fault => exact confined_close _ rfl rfl id
      | ok object =>
          exact confined_giving _ _ (object?_put session _ object) (remove_put session _ object)
            fun distinct => distinct_put distinct _ object
  | visit _ =>
      cases about
      simp only [consult, attending]
      have current : session.current? place =
          (session.object? place <|> Object.ofFamily? place.family) := rfl
      rw [← current]
      cases session.current? place with
      | some object =>
          exact confined_close _ (object?_put session _ object) (remove_put session _ object)
            fun distinct => distinct_put distinct _ object
      | none => exact confined_close _ rfl rfl id
  | edit _ edit =>
      cases about
      simp only [consult, attending]
      have current : session.current? place =
          (session.object? place <|> Object.ofFamily? place.family) := rfl
      rw [← current]
      cases (session.current? place).bind (·.editing edit) with
      | some dialogue => exact confined_within dialogue
      | none => exact confined_close _ rfl rfl id
  | discard _ =>
      cases about
      exact confined_giving _ _ (object?_remove session place) (remove_remove session place)
        fun distinct => distinct_remove distinct place
  | installHook plan => cases about
  | takeHook => cases about
  | restoreHook => cases about
  | resetCounters => cases about

def bytesAt (object : Option (Object κ)) : Nat := (object.map Object.bytesHeld).getD 0

/-- An object that is given up takes no more than it holds, and what is left stays. -/
theorem giving_backed {σ : Type} {outer : σ → Nat} {ceiling held : Nat} (old : Option (Object κ))
    (reply : Reply) (left : σ) (enough : bytesAt old + outer left ≤ held) :
    (giving old reply left).Backed ceiling outer held := by
  cases old with
  | none => exact (Nat.le_add_left _ _).trans enough
  | some object =>
      apply Dialogue.backed_follow (object.discarding_backed le_rfl) _ enough
      intro answer _ more remaining
      exact (Nat.le_add_left _ _).trans remaining

theorem attending_backed {ceiling held : Nat} (old : Option (Object κ)) (operation : Operation κ)
    (enough : bytesAt old ≤ held) : (attending old operation).Backed ceiling bytesAt held := by
  -- An empty place stands for an object that holds nothing.
  have current (family : Family) (object : Object κ)
      (found : (old <|> Object.ofFamily? family) = some object) : object.bytesHeld ≤ held := by
    cases old with
    | some other =>
        cases found
        exact enough
    | none => exact (Object.ofFamily?_held family object found).1.le.trans (Nat.zero_le held)
  cases operation with
  | create name blueprint =>
      simp only [attending]
      cases built : blueprint.build with
      | error fault => exact enough
      | ok object =>
          have bare : bytesAt (some object) = 0 := (blueprint.build_held object built).1
          exact giving_backed old _ _ (bare ▸ enough)
  | visit place =>
      simp only [attending]
      split
      · rename_i object found
        exact current place.family object found
      · exact enough
  | edit place edit =>
      simp only [attending]
      split
      · rename_i dialogue found
        obtain ⟨object, there, fits⟩ := Option.bind_eq_some_iff.mp found
        exact Dialogue.backed_within 0
          (object.editing_backed edit dialogue fits (current place.family object there))
          (fun _ => le_rfl) le_rfl
      · exact enough
  | discard place => exact giving_backed old _ none enough
  | installHook plan => exact enough
  | takeHook => exact enough
  | restoreHook => exact enough
  | resetCounters => exact enough

end Session

namespace Heap

theorem serveAll_later (heap : Heap) (requests : List Request) :
    heap.Later (heap.serveAll requests) := by
  induction requests generalizing heap with
  | nil => exact .refl heap
  | cons request rest ih => exact (heap.serve_later request).trans (ih _)

/-- A dialogue with the first heap, in the third heap as well: both count the same requests, and
what is held afterwards is still on the first meter. -/
theorem joint_backed {σ α : Type} {dialogue : Dialogue σ α} {ceiling held extra : Nat}
    {weight : σ → Nat} {one other both : Heap} (joint : Joint one other both)
    (backed : dialogue.Backed ceiling weight held) (enough : held + extra ≤ one.counters.live)
    (exact : (both.serveAll (dialogue.wishes ceiling)).Exact) :
    Joint (one.serveAll (dialogue.wishes ceiling)) other
        (both.serveAll (dialogue.wishes ceiling)) ∧
      weight (dialogue.granted ceiling).2 + extra ≤
        (one.serveAll (dialogue.wishes ceiling)).counters.live := by
  -- What stays in the other places is `extra`: no request of the dialogue reaches for it.
  induction dialogue generalizing one both held with
  | close answer object =>
      have left : weight object ≤ held := backed
      exact ⟨joint, (Nat.add_le_add_right left extra).trans enough⟩
  | ask request next ih =>
      obtain ⟨first, rest⟩ := backed
      simp only [Dialogue.wishes, Dialogue.granted, serveAll, serve_vacant request joint.vacant,
        serve_vacant request joint.vacantBoth] at exact ⊢
      have counted := (serveAll_later _ _).exact exact
      obtain ⟨live, jointToo⟩ := joint_count joint request (by omega) counted
      exact ih _ _ jointToo rest (by omega) exact

end Heap

namespace Session

structure Woven (side : Place → Bool) (one other both : Session κ) : Prop where
  joint : Heap.Joint one.heap other.heap both.heap
  object_eq : ∀ place,
    both.object? place = if side place then one.object? place else other.object? place
  distinct : (one.objects.map Prod.fst).Nodup
  distinctToo : (other.objects.map Prod.fst).Nodup
  metered : one.bytesHeld ≤ one.heap.counters.live
  meteredToo : other.bytesHeld ≤ other.heap.counters.live

theorem Woven.symm {side : Place → Bool} {one other both : Session κ}
    (woven : Woven side one other both) : Woven (fun place => !side place) other one both := by
  refine ⟨woven.joint.symm, fun place => ?_, woven.distinctToo, woven.distinct, woven.meteredToo,
    woven.metered⟩
  rw [woven.object_eq place]
  cases side place <;> rfl

/-- An operation on the first side does the same in the first session and in the third one. -/
theorem step_woven {side : Place → Bool} {one other both : Session κ}
    (woven : Woven side one other both) {operation : Operation κ}
    (placed : operation.on side = true) (exact : (both.step operation).2.heap.Exact) :
    (both.step operation).1 = (one.step operation).1 ∧
      Woven side (one.step operation).2 other (both.step operation).2 := by
  obtain ⟨place, about, here⟩ := Operation.on_place placed
  have same : both.object? place = one.object? place := by
    rw [woven.object_eq place, if_pos here]
  have first := step_confined woven.joint.vacant about
  have third := step_confined woven.joint.vacantBoth about
  rw [same] at third
  have ceiling := woven.joint.ceiling_eq
  have heapBoth := third.heap_eq
  rw [← ceiling] at heapBoth
  rw [heapBoth] at exact
  -- The meter reads what is in this place and in all the others.
  have metered : bytesAt (one.object? place) + (one.remove place).bytesHeld ≤
      one.heap.counters.live := by
    have bytes := weigh_object Object.bytesHeld woven.distinct place
    rw [Nat.add_comm]
    exact bytes.symm.le.trans woven.metered
  obtain ⟨joint, left⟩ := Heap.joint_backed woven.joint
    (attending_backed (one.object? place) operation le_rfl) metered exact
  refine ⟨?_, ?_, ?_, first.distinct woven.distinct, woven.distinctToo, ?_, woven.meteredToo⟩
  · rw [third.reply_eq, first.reply_eq, ceiling]
  · rw [first.heap_eq, heapBoth]
    exact joint
  · intro other
    by_cases same : other = place
    · rw [same, if_pos here, third.object_eq, first.object_eq, ceiling]
    · rw [third.object?_apart same, first.object?_apart same]
      exact woven.object_eq other
  · have bytes := weigh_object Object.bytesHeld (first.distinct woven.distinct) place
    have others : ((one.step operation).2.remove place).weigh Object.bytesHeld =
        (one.remove place).bytesHeld := by
      rw [bytesHeld, weigh, weigh, first.others_eq]
    rw [bytesHeld, bytes, others, first.object_eq, first.heap_eq, Nat.add_comm]
    exact left

inductive Interleaved : (these those mixed : List (Operation κ)) → Prop
  | done : Interleaved [] [] []
  | early {operation : Operation κ} {these those mixed : List (Operation κ)}
      (rest : Interleaved these those mixed) :
      Interleaved (operation :: these) those (operation :: mixed)
  | late {operation : Operation κ} {these those mixed : List (Operation κ)}
      (rest : Interleaved these those mixed) :
      Interleaved these (operation :: those) (operation :: mixed)

def moments (side : Place → Bool) (session : Session κ) :
    List (Operation κ) → List (Reply × Session κ)
  | [] => []
  | operation :: rest =>
      let stepped := session.step operation
      if operation.on side then stepped :: stepped.2.moments side rest
      else stepped.2.moments side rest

/-- The same reply, and the same objects on one side. -/
def Agree (side : Place → Bool) (left right : Reply × Session κ) : Prop :=
  left.1 = right.1 ∧ ∀ place, side place = true → left.2.object? place = right.2.object? place

theorem Woven.agree {side : Place → Bool} {one other both : Session κ}
    (woven : Woven side one other both) (place : Place) (here : side place = true) :
    both.object? place = one.object? place := by
  rw [woven.object_eq place, if_pos here]

theorem run_woven {side : Place → Bool} {these those mixed : List (Operation κ)}
    (interleaved : Interleaved these those mixed) {one other both : Session κ}
    (woven : Woven side one other both) (first : ∀ operation ∈ these, operation.on side = true)
    (second : ∀ operation ∈ those, operation.on (!side ·) = true)
    (exact : (both.run mixed).2.heap.Exact) :
    List.Forall₂ (Agree side) (both.moments side mixed) (one.moments side these) ∧
      List.Forall₂ (Agree (!side ·)) (both.moments (!side ·) mixed)
        (other.moments (!side ·) those) ∧
      Woven side (one.run these).2 (other.run those).2 (both.run mixed).2 := by
  -- On the interleaving. An operation moves the session of its side and leaves the other one, and
  -- the heap on the way is exact since the last one is.
  induction interleaved generalizing one other both with
  | done => exact ⟨.nil, .nil, woven⟩
  | @early operation these those mixed rest ih =>
      obtain ⟨here, others⟩ := List.forall_mem_cons.mp first
      have stepped := (run_later _ mixed).exact exact
      obtain ⟨reply, left⟩ := step_woven woven here stepped
      obtain ⟨early, late, last⟩ := ih left others second exact
      have apart : operation.on (!side ·) = false := by
        apply Operation.on_apart
        simp only [Bool.not_not]
        exact here
      refine ⟨?_, ?_, last⟩
      · simp only [moments, here, if_true]
        exact .cons ⟨reply, left.agree⟩ early
      · simp only [moments, apart]
        exact late
  | @late operation these those mixed rest ih =>
      obtain ⟨there, others⟩ := List.forall_mem_cons.mp second
      have stepped := (run_later _ mixed).exact exact
      obtain ⟨reply, left⟩ := step_woven woven.symm there stepped
      -- The step is one on the first side of the sessions seen the other way round.
      have back := left.symm
      simp only [Bool.not_not] at back
      obtain ⟨early, late, last⟩ := ih back first others exact
      have apart := Operation.on_apart there
      refine ⟨?_, ?_, last⟩
      · simp only [moments, apart]
        exact early
      · simp only [moments, there, if_true]
        exact .cons ⟨reply, left.agree⟩ late

theorem moments_transcript {side : Place → Bool} (session : Session κ)
    (operations : List (Operation κ)) (placed : ∀ operation ∈ operations, operation.on side = true) :
    session.moments side operations = session.transcript operations := by
  induction operations generalizing session with
  | nil => rfl
  | cons operation rest ih =>
      obtain ⟨here, others⟩ := List.forall_mem_cons.mp placed
      obtain ⟨place, about, -⟩ := Operation.on_place here
      obtain ⟨plain, -⟩ := Operation.plain_place about
      simp only [moments, transcript, here, plain, if_true]
      exact congrArg _ (ih _ others)

theorem fresh_woven {session : Session κ} (fresh : session.Fresh) (vacant : session.heap.slot = none)
    (side : Place → Bool) : Woven side session session session := by
  have held : session.bytesHeld ≤ session.heap.counters.live := by
    rw [bytesHeld, weigh, fresh.bare]
    exact Nat.zero_le _
  have distinct : (session.objects.map Prod.fst).Nodup := by
    rw [fresh.bare]
    exact List.nodup_nil
  have total : session.heap.total = 0 := by
    simp [Heap.total, fresh.silent]
  refine ⟨⟨vacant, vacant, vacant, rfl, rfl, ?_, ?_, ?_, ?_⟩, fun place => ?_, distinct, distinct, held,
    held⟩
  · rw [fresh.zero]
  · rw [fresh.zero]
  · rw [fresh.zero, total]
    rfl
  · rw [fresh.zero]
    exact ⟨rfl, rfl, rfl, rfl, rfl, le_rfl, le_rfl⟩
  · rw [ite_self]

/-- Two lists of operations on separate objects, interleaved in any way, without hooks and without a
sum out of range. Each operation has the reply and leaves the objects that it does in a run of its
own list. All readings of the meter add up but the peak, which lies between the larger one and the
sum. -/
theorem run_interleaved (session : Session κ) (fresh : session.Fresh)
    (vacant : session.heap.slot = none) (side : Place → Bool)
    (these those mixed : List (Operation κ)) (interleaved : Interleaved these those mixed)
    (first : ∀ operation ∈ these, operation.on side = true)
    (second : ∀ operation ∈ those, operation.on (!side ·) = true)
    (exact : (session.run mixed).2.heap.Exact) :
    let one := (session.run these).2
    let other := (session.run those).2
    let both := (session.run mixed).2
    List.Forall₂ (Agree side) (session.moments side mixed) (session.transcript these) ∧
      List.Forall₂ (Agree (!side ·)) (session.moments (!side ·) mixed)
        (session.transcript those) ∧
      (∀ place, both.object? place =
        if side place then one.object? place else other.object? place) ∧
      Counters.Joined one.heap.counters other.heap.counters both.heap.counters := by
  intro one other both
  -- In the beginning the session stands for both sides and for the two of them together.
  obtain ⟨early, late, last⟩ :=
    run_woven interleaved (fresh_woven fresh vacant side) first second exact
  rw [moments_transcript session these first] at early
  rw [moments_transcript session those second] at late
  exact ⟨early, late, last.object_eq, last.joint.joined⟩

/-- A chunk and a pool that are there at the same time: the peaks add up as well. -/
theorem run_interleaved_abreast :
    let chunk : Place := ⟨.chunk, "main"⟩
    let pool : Place := ⟨.pool, "main"⟩
    let these : List Operation := [.edit chunk (.write [⟨1, 1⟩]), .edit chunk .free]
    let those : List Operation := [.edit pool (.add [⟨0⟩]), .discard pool]
    let mixed : List Operation :=
      [.edit chunk (.write [⟨1, 1⟩]), .edit pool (.add [⟨0⟩]), .edit chunk .free, .discard pool]
    let side : Place → Bool := fun place => place = chunk
    let one := (({} : Session).run these).2.heap.counters
    let other := (({} : Session).run those).2.heap.counters
    let both := (({} : Session).run mixed).2.heap.counters
    List.Forall₂ (Agree side) (({} : Session).moments side mixed) (({} : Session).transcript these) ∧
      Counters.Joined one other both ∧ both.peak = one.peak + other.peak := by
  intro chunk pool these those mixed side one other both
  have interleaved : Interleaved these those mixed := .early (.late (.early (.late .done)))
  have run := run_interleaved ({} : Session) ⟨rfl, rfl, rfl⟩ rfl side these those mixed interleaved
    (by decide) (by decide) (by decide +kernel)
  exact ⟨run.1, run.2.2.2, by decide +kernel⟩

end Session

end Interleavings

end MeteredChunk
