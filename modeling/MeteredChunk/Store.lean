import MeteredChunk.Heap.Basic

/-!
Storage on a heap: blocks, whose length is changed by `reallocate` alone, and stores,
which are lists that grow at their end in such a block.
-/

namespace MeteredChunk

/-! ## Elements

What a block has to know about its elements: the room one takes, its
alignment, what fills a slot that was never written, when two count as equal,
and how one is shown.
-/

class Element (α : Type) where
  bytes : Nat
  align : Nat
  blank : α
  same : α → α → Bool
  inspect : α → String

instance : Element UInt8 := ⟨1, 1, 0, (· == ·), fun x => toString x.toNat⟩

instance : Element UInt16 := ⟨2, 2, 0, (· == ·), fun x => toString x.toNat⟩

instance : Element UInt32 := ⟨4, 4, 0, (· == ·), fun x => toString x.toNat⟩

instance : Element UInt64 := ⟨8, 8, 0, (· == ·), fun x => toString x.toNat⟩

instance : Element Unit := ⟨0, 1, (), fun _ _ => true, fun _ => "()"⟩

/-! ## Effects

What an operation on an object of a heap leaves behind. Object and heap are
there also when the operation breaks off, since later operations meet them.
-/

structure Effect (σ α : Type) where
  answer : Except Fault α
  object : σ
  heap : Heap

namespace Effect

variable {σ τ α β : Type}

def done (answer : α) (object : σ) (heap : Heap) : Effect σ α := ⟨.ok answer, object, heap⟩

def fail (fault : Fault) (object : σ) (heap : Heap) : Effect σ α := ⟨.error fault, object, heap⟩

def map (f : α → β) (effect : Effect σ α) : Effect σ β :=
  ⟨effect.answer.map f, effect.object, effect.heap⟩

@[inline]
def within (place : σ → τ) (effect : Effect σ α) : Effect τ α :=
  ⟨effect.answer, place effect.object, effect.heap⟩

@[inline]
def andThen (effect : Effect σ α) (next : α → σ → Heap → Effect σ β) : Effect σ β :=
  match effect.answer with
  | .ok answer => next answer effect.object effect.heap
  | .error fault => .fail fault effect.object effect.heap

end Effect

/-! ## Blocks

Blocks are the storage that a heap meters. `reallocate` is the only way to
change the length of one: it checks the sizes, has the heap serve the request,
and only then touches the elements. Elements that both lengths share are kept,
new slots are blank. The block is handed over for the call, so a call that
breaks off leaves an empty one.
-/

abbrev Block (α : Type) := Array α

/-- The size of a number of elements, if it is a word. -/
def arrayBytes (α : Type) [Element α] (count : Nat) : Except Fault Nat :=
  match Word.fit? (count * Element.bytes α) with
  | some bytes => .ok bytes
  | none => .error (.capacityOverflow count (Element.bytes α))

namespace Block

variable {α : Type} [Element α]

/-- Elements without room still count as one byte each. -/
def elementSize (α : Type) [Element α] : Nat := max (Element.bytes α) 1

def bytes (block : Block α) : Nat := block.size * elementSize α

def resize (block : Block α) (length : Nat) : Block α :=
  block.take length ++ Array.replicate (length - block.size) Element.blank

/-- Only a block that takes room and gets longer can be too large. -/
def exceeds (ceiling : Nat) (block : Block α) (new : Nat) : Bool :=
  Element.bytes α ≠ 0 && decide (block.bytes < new ∧ ceiling ≤ new)

def checked (block : Block α) (old new : Nat) : Except Fault Request :=
  if block.bytes ≠ old then .error (.sizeOutOfSync block.bytes old)
  else if new % elementSize α ≠ 0 then .error (.partialElement new (elementSize α))
  else .ok ⟨old, new⟩

def reallocate (block : Block α) (old new : Nat) (heap : Heap) : Effect (Block α) Unit :=
  match block.checked old new with
  | .error fault => .fail fault #[] heap
  | .ok request =>
      if old = new then .done () block heap
      else
        match heap.serve request with
        | (.error fault, after) => .fail fault #[] after
        | (.ok (), after) =>
            if block.exceeds after.ceiling new then
              .fail (Heap.shortage new (Element.bytes α) (Element.align α)) #[] after
            else .done () (block.resize (new / elementSize α)) after

/-- Lengths instead of sizes; the old length is converted first. -/
def grow (block : Block α) (old new : Nat) (heap : Heap) : Effect (Block α) Unit :=
  match arrayBytes α old, arrayBytes α new with
  | .error fault, _ => .fail fault #[] heap
  | _, .error fault => .fail fault #[] heap
  | .ok old, .ok new => block.reallocate old new heap

def release (block : Block α) (old : Nat) (heap : Heap) : Effect (Block α) Unit :=
  match arrayBytes α old with
  | .error fault => .fail fault #[] heap
  | .ok old => block.reallocate old 0 heap

def overwrite (block : Block α) (values : List α) : Block α :=
  let kept := values.take block.size
  kept.toArray ++ block.extract kept.length block.size

end Block

/-! ## Stores

A store is a list that grows at its end, kept in a block of a heap. The first
`count` slots of the block are in use and the rest is spare. A fault in the
middle of growing or freeing takes the block and leaves the count: such a store
is stripped, and until it is freed every read and write of it fails.
-/

/-- Eight slots at first, then twice as many each time. -/
def nextCapacity (capacity : Nat) : Nat :=
  if capacity < 8 then 8 else Word.clamp (capacity * 2)

structure Store (α : Type) where
  block : Block α := #[]
  count : Nat := 0

namespace Store

variable {α : Type} [Element α]

/-- Elements that take no room are turned away: their storage could not be metered. -/
def create (α : Type) [Element α] : Except Fault (Store α) :=
  if Element.bytes α = 0 then .error .zeroSizedElement else .ok {}

def capacity (store : Store α) : Nat := store.block.size

def isEmpty (store : Store α) : Bool := store.count == 0

/-- The slots in use, as far as there is storage for them. -/
def slots (store : Store α) : Array α := store.block.take store.count

def read (store : Store α) : Except Fault (Array α) :=
  if store.count ≤ store.capacity then .ok store.slots
  else .error (.readBeyondStorage store.count store.capacity)

def items (store : Store α) : Except Fault (List α) := store.read.map Array.toList

def get? (store : Store α) (index : Nat) : Except Fault (Option α) :=
  if store.count ≤ store.capacity then
    .ok (if index < store.count then store.block[index]? else none)
  else .error (.readBeyondStorage store.count store.capacity)

def put (value : α) (heap : Heap) : Store α → Effect (Store α) Unit
  | ⟨block, count⟩ =>
      if inside : count < block.size then
        .done () ⟨block.set count value inside, count + 1⟩ heap
      else .fail (.writeBeyondStorage block.size count) ⟨block, count⟩ heap

def push (value : α) (heap : Heap) : Store α → Effect (Store α) Unit
  | ⟨block, count⟩ =>
      if count = block.size then
        ((block.grow block.size (nextCapacity block.size) heap).within (Store.mk · count)).andThen
          fun _ store heap => store.put value heap
      else put value heap ⟨block, count⟩

def extend (store : Store α) (heap : Heap) : List α → Effect (Store α) Unit
  | [] => .done () store heap
  | value :: rest =>
      (store.push value heap).andThen fun _ store heap => store.extend heap rest

/-- A refused release has taken the block, and the count stays. -/
def free (heap : Heap) : Store α → Effect (Store α) Unit
  | ⟨block, count⟩ =>
      ((block.release block.size heap).within (Store.mk · count)).andThen
        fun _ store heap => .done () ⟨store.block, 0⟩ heap

def same (left right : Store α) : Except Fault Bool := do
  let these ← left.items
  let those ← right.items
  return these.isEqv those Element.same

def inspect (store : Store α) : Except Fault String := do
  let items ← store.items
  return Inspect.record "DynArray"
    [("count", toString store.count), ("capacity", toString store.capacity),
      ("items", Inspect.list (items.map Element.inspect))]

end Store

end MeteredChunk
