import MeteredChunk.Json

/-!
The meter of a heap, the requests that it counts, and the faults that an operation
on a heap can end with.
-/

namespace MeteredChunk.Word

/-! ## Words

Sizes and counts are 64-bit words, held as natural numbers. Arithmetic that
would leave the range is kept apart by what becomes of it: a clamped result
stops at the largest word, a checked one is absent, and a signed reading takes
the upper half of the range as negative.
-/

def limit : Nat := 1 <<< 64

def clamp (n : Nat) : Nat := min n (limit - 1)

def fit? (n : Nat) : Option Nat := if n < limit then some n else none

/-- Two's complement: words from `2 ^ 63` on stand for negative numbers. -/
def signed (n : Nat) : Int := Int.bmod n limit

/-- The difference of two signed readings, absent when it needs a 65th bit. -/
def difference? (left right : Nat) : Option Int :=
  let gap := signed left - signed right
  let half : Nat := 1 <<< 63
  if -(half : Int) ≤ gap ∧ gap < half then some gap else none

end MeteredChunk.Word

namespace MeteredChunk

/-! ## Faults

Why an operation can break off. Most faults are contained: the operation ends,
the objects keep what it left behind, and later operations go on from there.
`outOfMemory`, `stackOverflow` and `brokenCleanup` end the whole program.
-/

inductive Fault where
  | zeroSizedElement
  /-- The size given for a block is not the block's own. -/
  | sizeOutOfSync (block tracked : Nat)
  | partialElement (requested element : Nat)
  | capacityOverflow (count element : Nat)
  | differenceOverflow
  | sumOverflow
  | refused (call : Nat)
  | readBeyondStorage (count capacity : Nat)
  | writeBeyondStorage (capacity index : Nat)
  | outOfMemory (bytes : Nat)
  /-- Too many hooks were under way inside each other. -/
  | stackOverflow
  /-- A fault came while another one was being cleaned up after. -/
  | brokenCleanup
  deriving DecidableEq

namespace Fault

def message : Fault → String
  | zeroSizedElement => "DynArray does not support zero-sized element types"
  | sizeOutOfSync block tracked =>
      "assertion `left == right` failed: caller-tracked size out of sync with block" ++
        s!"\n  left: {block}\n right: {tracked}"
  | partialElement requested element =>
      s!"requested {requested} bytes, not a whole number of {element}-byte elements"
  | capacityOverflow count element =>
      s!"capacity overflow: {count} elements of {element} bytes"
  | differenceOverflow => "attempt to subtract with overflow"
  | sumOverflow => "attempt to add with overflow"
  | refused call => s!"hook refused request {call}"
  | readBeyondStorage count capacity =>
      s!"range end index {count} out of range for slice of length {capacity}"
  | writeBeyondStorage capacity index =>
      s!"index out of bounds: the len is {capacity} but the index is {index}"
  | outOfMemory bytes => s!"memory allocation of {bytes} bytes failed"
  | stackOverflow => "stack overflow"
  | brokenCleanup => "panic in a destructor during cleanup"

def isFatal : Fault → Bool
  | outOfMemory _ | stackOverflow | brokenCleanup => true
  | _ => false

/-- What becomes of a fault when a later one comes during the cleanup after it. -/
def followedBy (fault later : Fault) : Fault :=
  if fault.isFatal then fault else if later.isFatal then later else .brokenCleanup

theorem followedBy_fatal (fault later : Fault) : (fault.followedBy later).isFatal = true := by
  unfold followedBy
  split
  · assumption
  · split
    · assumption
    · rfl

end Fault

/-! ## Requests

A request to the heap: the size a block has and the size it is to have, both in
bytes. Size zero stands for a block that holds nothing, so the two sizes alone
say what is asked for.
-/

inductive RequestKind where
  | allocate
  | grow
  | shrink
  | free
  deriving DecidableEq

namespace RequestKind

def name : RequestKind → String
  | allocate => "Allocate"
  | grow => "Grow"
  | shrink => "Shrink"
  | free => "Free"

end RequestKind

structure Request where
  old : Nat
  new : Nat
  deriving DecidableEq

namespace Request

/-- A request that keeps the size asks for nothing. -/
def kind? (request : Request) : Option RequestKind :=
  if request.old = request.new then none
  else if request.old = 0 then some .allocate
  else if request.new = 0 then some .free
  else if request.old < request.new then some .grow
  else some .shrink

def delta? (request : Request) : Option Int := Word.difference? request.new request.old

def toJson (request : Request) : Json :=
  .record [("old_size", .integer request.old), ("new_size", .integer request.new)]

end Request

/-! ## Counters

The meter of a heap: live bytes, their high-water mark, and how often each kind
of request was made. Live bytes clamp at both ends of the word range, so the
meter always has a reading.
-/

structure Counters where
  live : Nat := 0
  peak : Nat := 0
  allocations : Nat := 0
  grows : Nat := 0
  shrinks : Nat := 0
  frees : Nat := 0
  deriving DecidableEq

namespace Counters

/-- The four counts have no bound: each request adds one, so a run would have to make `2 ^ 64`
requests to reach the end of a word. Only a sum of two of them is checked, in `growthEvents`. -/
def tally (counters : Counters) : RequestKind → Counters
  | .allocate => { counters with allocations := counters.allocations + 1 }
  | .grow => { counters with grows := counters.grows + 1 }
  | .shrink => { counters with shrinks := counters.shrinks + 1 }
  | .free => { counters with frees := counters.frees + 1 }

/-- The old size leaves before the new one enters. -/
def account (counters : Counters) (kind : RequestKind) (request : Request) : Counters :=
  let live := Word.clamp (counters.live - request.old + request.new)
  { counters with live, peak := max counters.peak live }.tally kind

def growthEvents (counters : Counters) : Except Fault Nat :=
  match Word.fit? (counters.allocations + counters.grows) with
  | some events => .ok events
  | none => .error .sumOverflow

def liveBlocks (counters : Counters) : Nat := counters.allocations - counters.frees

def isZero (counters : Counters) : Bool := counters == {}

def toList (counters : Counters) : List Nat :=
  [counters.live, counters.peak, counters.allocations, counters.grows, counters.shrinks,
    counters.frees]

def labelled (counters : Counters) : List (String × Nat) :=
  ["bytes_allocated", "peak_bytes", "allocations", "grows", "shrinks", "frees"].zip
    counters.toList

def summary (counters : Counters) : String :=
  s!"live={counters.live}B peak={counters.peak}B alloc={counters.allocations}" ++
    s!" grow={counters.grows} shrink={counters.shrinks} free={counters.frees}"

def toJson (counters : Counters) : Json :=
  .record (counters.labelled.map fun field => (field.1, .integer field.2))

def inspect (counters : Counters) : String :=
  Inspect.record "HeapStats" (counters.labelled.map fun field => (field.1, toString field.2))

end Counters

end MeteredChunk
