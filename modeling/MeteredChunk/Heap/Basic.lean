import MeteredChunk.Heap.Counters

/-!
A heap with its hook. A request is counted first, then the hook is called, and only
then is the request served.
-/

namespace MeteredChunk

/-! ## Hooks

Hooks watch a heap. A hook is called once for each request that changes a
block's size, after the meter has counted it. Its plan says what it does in a
call, act by act, and may go by how often the hook was called before and by
what it is told now.
-/

structure Notice where
  kind : RequestKind
  request : Request
  counters : Counters

inductive Entry where
  | seen (notice : Notice) (delta : Int)
  | copied (bytes : Nat)
  /-- A successor was put into the slot, which did or did not hold a hook. -/
  | replaced (occupied : Bool)

inductive Act (plan : Type) where
  | write (entry : Entry)
  /-- Bring a scratch block of the call to a size: the one of that number, counted from the one
  used last, or a new one where there are not so many. -/
  | resize (number size : Nat)
  /-- Put a successor into the slot and write that down. -/
  | enlist (next : plan)
  | vacate
  | reset
  /-- Break off, and the request with it. -/
  | fail (fault : Fault)

/-- The acts of each call. Calls count from zero, for each hook on its own. -/
structure Plan where
  acts : (call : Nat) → Notice → List (Act Plan)

structure Hook where
  number : Nat
  plan : Plan
  calls : Nat := 0

namespace Plan

instance : Inhabited Plan := ⟨⟨fun _ _ => []⟩⟩

/-- A plan that works out the change of live bytes first, and fails where it is no signed word. -/
def weighing (acts : (call : Nat) → Notice → (delta : Int) → List (Act Plan)) : Plan :=
  ⟨fun call notice =>
    match notice.request.delta? with
    | none => [.fail .differenceOverflow]
    | some delta => acts call notice delta⟩

def noting (acts : (call : Nat) → List (Act Plan)) : Plan :=
  weighing fun call notice delta => .write (.seen notice delta) :: acts call

def record : Plan := noting fun _ => []

def pressure (threshold : Nat) : Plan :=
  weighing fun _ notice delta =>
    if 0 < delta ∧ threshold < notice.counters.live then [.write (.seen notice delta)] else []

def copies : Plan :=
  weighing fun _ notice _ =>
    if notice.kind = .grow then [.write (.copied notice.request.old)] else []

def reenter (bytes : Nat) : Plan := noting fun _ => [.resize 0 bytes]

def swap (turn : Nat) (next : Plan) : Plan :=
  noting fun call => if call = turn then [.enlist next] else []

def reset : Plan := noting fun _ => [.reset]

def refuse (turn : Nat) : Plan :=
  noting fun call => if call = turn then [.fail (.refused turn)] else []

end Plan

/-! ## Heaps

A heap: its meter, one slot for a hook, the history of what happened on it, the
size from which blocks are beyond its memory, and how many hooks can be under
way inside each other. Serving a request counts it first and then calls the hook,
so a refused request stays counted.
-/

inductive Happening where
  /-- A request was counted; the hook of that number is told of it. -/
  | counted (notice : Notice) (told : Option Nat)
  | noted (hook : Nat) (entry : Entry)
  /-- The call of the hook failed, and with it the request. -/
  | refused (notice : Notice)
  | zeroed

structure Heap where
  counters : Counters := {}
  slot : Option Hook := none
  /-- How many hooks were made; the next one gets this number. -/
  hooks : Nat := 0
  /-- Oldest first. -/
  history : Array Happening := #[]
  ceiling : Nat := 1 <<< 60
  stack : Nat := 1 <<< 10
  /-- No block can have a size that is no signed word. -/
  bounded : ceiling ≤ 1 <<< 63 := by decide

namespace Heap

def remember (heap : Heap) (happening : Happening) : Heap :=
  { heap with history := heap.history.push happening }

def write (heap : Heap) (hook : Hook) (entry : Entry) : Heap :=
  heap.remember (.noted hook.number entry)

def log (heap : Heap) (number : Nat) : List Entry :=
  heap.history.toList.filterMap fun
    | .noted hook entry => if hook = number then some entry else none
    | _ => none

def install (heap : Heap) (hook : Hook) : Heap := { heap with slot := some hook }

def enlist (heap : Heap) (plan : Plan) : Heap :=
  { heap with slot := some ⟨heap.hooks, plan, 0⟩, hooks := heap.hooks + 1 }

def vacate (heap : Heap) : Heap := { heap with slot := none }

/-- A hook that was called goes back, unless its call filled the slot. -/
def putBack (heap : Heap) (hook : Hook) : Heap :=
  match heap.slot with
  | none => heap.install hook
  | some _ => heap

def resetCounters (heap : Heap) : Heap := { heap with counters := {} }.remember .zeroed

def account (heap : Heap) (kind : RequestKind) (request : Request) : Heap :=
  let counters := heap.counters.account kind request
  { heap with counters }.remember (.counted ⟨kind, request, counters⟩ (heap.slot.map Hook.number))

/-- The fault of a block beyond memory. It names the bytes asked for, or one element where
rounding them up to the alignment passes the largest signed word. -/
def shortage (requested element align : Nat) : Fault :=
  .outOfMemory (if (requested + align - 1) / align * align < 1 <<< 63 then requested else element)

abbrev Outcome := Except Fault Unit × Heap

@[inline]
def Outcome.andThen (outcome : Outcome) (next : Heap → Outcome) : Outcome :=
  match outcome with
  | (.ok (), heap) => next heap
  | (.error fault, heap) => (.error fault, heap)

abbrev Telling := Heap → Notice → Outcome

def request (heap : Heap) (tell : Telling) (request : Request) : Outcome :=
  match request.kind? with
  | none => (.ok (), heap)
  | some kind =>
      let counted := heap.account kind request
      tell counted ⟨kind, request, counted.counters⟩

def resize (heap : Heap) (tell : Telling) (old new : Nat) : Outcome :=
  (heap.request tell ⟨old, new⟩).andThen fun heap =>
    if old < new ∧ heap.ceiling ≤ new then (.error (shortage new 1 1), heap) else (.ok (), heap)

/-- Blocks of these sizes are still given back after a fault. A second fault is fatal then. -/
def unwind (tell : Telling) (fault : Fault) : List Nat → Heap → Outcome
  | [], heap => (.error fault, heap)
  | size :: rest, heap =>
      if fault.isFatal then (.error fault, heap)
      else
        match heap.resize tell size 0 with
        | (.ok (), heap) => unwind tell fault rest heap
        | (.error later, heap) => (.error (fault.followedBy later), heap)

def giveBack (tell : Telling) : List Nat → Heap → Outcome
  | [], heap => (.ok (), heap)
  | size :: rest, heap =>
      match heap.resize tell size 0 with
      | (.ok (), heap) => giveBack tell rest heap
      | (.error fault, heap) => unwind tell fault rest heap

/-- What a hook does in a call, with scratch blocks of the held sizes. -/
def perform (tell : Telling) (hook : Hook) : (held : List Nat) → List (Act Plan) → Heap → Outcome
  | held, [], heap => giveBack tell held heap
  | held, .write entry :: rest, heap => perform tell hook held rest (heap.write hook entry)
  | held, .resize number size :: rest, heap =>
      let others := held.eraseIdx number
      match heap.resize tell (held.getD number 0) size with
      | (.ok (), heap) => perform tell hook (size :: others) rest heap
      | (.error fault, heap) => unwind tell fault others heap
  | held, .enlist next :: rest, heap =>
      perform tell hook held rest
        ((heap.enlist next).write hook (.replaced heap.slot.isSome))
  | held, .vacate :: rest, heap => perform tell hook held rest heap.vacate
  | held, .reset :: rest, heap => perform tell hook held rest heap.resetCounters
  | held, .fail fault :: _, heap => unwind tell fault held heap

/-- Tells the hook in the slot, if there is one. The slot is vacant during a call, so a request
made in it is told only to a hook that was put there in the same call. A hook whose call fails is
gone. -/
def notify : (room : Nat) → Telling
  | room, heap, notice =>
      match heap.slot, room with
      | none, _ => (.ok (), heap)
      | some _, 0 => (.error .stackOverflow, heap)
      | some hook, room + 1 =>
          match perform (notify room) hook [] (hook.plan.acts hook.calls notice) heap.vacate with
          | (.ok (), after) => (.ok (), after.putBack { hook with calls := hook.calls + 1 })
          | (.error fault, after) => (.error fault, after.remember (.refused notice))

def serve (heap : Heap) (request : Request) : Outcome := heap.request (notify heap.stack) request

end Heap

end MeteredChunk
