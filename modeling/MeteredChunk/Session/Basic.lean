import MeteredChunk.Chunk.Basic

/-!
Sessions: a heap, named objects on it, and hooks that were taken out of its slot.
-/

namespace MeteredChunk

/-! ## Kinds of element

The kinds of element that a block or a store can be made of, by name. A session is
about some family of kinds; the one here has a kind for each plain type that is
asked for by name.
-/

/-- A family of kinds. No type takes an eighth of what a word can say, or more. -/
class Kinds (κ : Type) where
  Carrier : κ → Type
  decEq : DecidableEq κ
  element (kind : κ) : Element (Carrier kind)
  limited (kind : κ) : 8 * Element.bytes (Carrier kind) < Word.limit

attribute [reducible, instance] Kinds.decEq Kinds.element

inductive ElementKind where
  | u8
  | u16
  | u32
  | u64
  | value
  | code
  | unit
  deriving DecidableEq

namespace ElementKind

@[reducible]
def Carrier : ElementKind → Type
  | u8 => UInt8
  | u16 => UInt16
  | u32 => UInt32
  | u64 => UInt64
  | value => Value
  | code => CodeUnit
  | unit => Unit

instance (kind : ElementKind) : Element kind.Carrier :=
  match kind with
  | u8 => inferInstanceAs (Element UInt8)
  | u16 => inferInstanceAs (Element UInt16)
  | u32 => inferInstanceAs (Element UInt32)
  | u64 => inferInstanceAs (Element UInt64)
  | value => inferInstanceAs (Element Value)
  | code => inferInstanceAs (Element CodeUnit)
  | unit => inferInstanceAs (Element Unit)

instance : Kinds ElementKind where
  Carrier := Carrier
  decEq := inferInstance
  element := inferInstance
  limited kind := by cases kind <;> decide

end ElementKind

/-! ## Objects

The objects that a session keeps, and what can be done to them. An edit fits
some families of objects; asking for one that does not fit is not a fault.
-/

section Objects

inductive Family where
  | chunk
  | pool
  | store
  | block
  deriving DecidableEq

inductive Object (κ : Type := ElementKind) [Kinds κ] where
  | chunk (chunk : Chunk)
  | pool (pool : Pool)
  | store (kind : κ) (store : Store (Kinds.Carrier kind))
  | block (kind : κ) (block : Block (Kinds.Carrier kind))

inductive Blueprint (κ : Type := ElementKind) where
  | chunk
  | pool
  | store (kind : κ)
  | block (kind : κ)

inductive Edit (κ : Type := ElementKind) [Kinds κ] where
  | write (units : List CodeUnit)
  /-- Into a pool, or into that of a chunk. -/
  | add (values : List Value)
  | extend (kind : κ) (values : List (Kinds.Carrier kind))
  | free
  /-- Sizes in bytes. -/
  | reallocate (old new : Nat)
  /-- Lengths, as for `release`. -/
  | grow (old new : Nat)
  | release (old : Nat)
  | overwrite (kind : κ) (values : List (Kinds.Carrier kind))

inductive Reply where
  | done
  /-- Whether there was something before. -/
  | found (before : Bool)
  | numbers (numbers : List Nat)
  | missing
  | fault (fault : Fault)

variable {κ : Type}

namespace Blueprint

def family : Blueprint κ → Family
  | chunk => .chunk
  | pool => .pool
  | store _ => .store
  | block _ => .block

def build [Kinds κ] : Blueprint κ → Except Fault (Object κ)
  | chunk => .ok (.chunk {})
  | pool => .ok (.pool {})
  | store kind => (Store.create (Kinds.Carrier kind)).map (.store kind)
  | block kind => .ok (.block kind #[])

end Blueprint

namespace Object

variable [Kinds κ]

def ofFamily? : Family → Option (Object κ)
  | .chunk => some (.chunk {})
  | .pool => some (.pool {})
  | .store | .block => none

def edit : Object κ → Edit κ → Heap → Option (Effect (Object κ) Reply)
  | chunk it, .write units, heap =>
      some (((it.write units heap).map fun _ => .done).within chunk)
  | chunk it, .add values, heap => some (((it.addConstants values heap).map .numbers).within chunk)
  | chunk it, .free, heap => some (((it.free heap).map fun _ => .done).within chunk)
  | pool it, .add values, heap => some (((it.addAll heap values).map .numbers).within pool)
  | pool it, .free, heap => some (((it.free heap).map fun _ => .done).within pool)
  | store kind it, .extend other values, heap =>
      if same : other = kind then
        some (((it.extend heap (same ▸ values)).map fun _ => .done).within (store kind))
      else none
  | store kind it, .free, heap => some (((it.free heap).map fun _ => .done).within (store kind))
  | block kind it, .reallocate old new, heap =>
      some (((it.reallocate old new heap).map fun _ => .done).within (block kind))
  | block kind it, .grow old new, heap =>
      some (((it.grow old new heap).map fun _ => .done).within (block kind))
  | block kind it, .release old, heap =>
      some (((it.release old heap).map fun _ => .done).within (block kind))
  | block kind it, .overwrite other values, heap =>
      if same : other = kind then some (.done .done (block kind (it.overwrite (same ▸ values))) heap)
      else none
  | _, _, _ => none

/-- Gives an object up. A block on its own leaves without the heap being told. -/
def discard : Object κ → Heap → Except Fault Unit × Heap
  | chunk it, heap => it.discard heap
  | pool it, heap => let freed := it.free heap; (freed.answer, freed.heap)
  | store _ it, heap => let freed := it.free heap; (freed.answer, freed.heap)
  | block _ _, heap => (.ok (), heap)

end Object

end Objects

/-! ## Sessions

A session is a heap with named objects on it and a stack of hooks that were
taken out of the heap's slot. Each operation ends with a reply; a contained
fault is a reply like any other, and the session goes on with what is left.
-/

structure Place where
  family : Family
  name : String
  deriving DecidableEq

structure Session (κ : Type := ElementKind) [Kinds κ] where
  heap : Heap := {}
  objects : List (Place × Object κ) := []
  shelf : List Hook := []

inductive Operation (κ : Type := ElementKind) [Kinds κ] where
  | create (name : String) (blueprint : Blueprint κ)
  /-- Makes sure that there is a chunk or a pool to look at. -/
  | visit (place : Place)
  | edit (place : Place) (edit : Edit κ)
  | discard (place : Place)
  | installHook (plan : Plan)
  | takeHook
  | restoreHook
  | resetCounters

namespace Session

variable {κ : Type} [Kinds κ]

def object? (session : Session κ) (place : Place) : Option (Object κ) :=
  (session.objects.find? fun entry => entry.1 = place).map Prod.snd

def remove (session : Session κ) (place : Place) : Session κ :=
  { session with objects := session.objects.filter fun entry => entry.1 ≠ place }

def put (session : Session κ) (place : Place) (object : Object κ) : Session κ :=
  { session with objects := (place, object) :: (session.remove place).objects }

def current? (session : Session κ) (place : Place) : Option (Object κ) :=
  session.object? place <|> Object.ofFamily? place.family

/-- Gives an object up that is in no place any more; the reply is a fault or the given one. -/
def giveUp (session : Session κ) (object : Option (Object κ)) (reply : Reply) : Reply × Session κ :=
  match object with
  | none => (reply, session)
  | some object =>
      match object.discard session.heap with
      | (.ok (), heap) => (reply, { session with heap })
      | (.error fault, heap) => (.fault fault, { session with heap })

/-- The new object is in its place before the old one goes. -/
def create (session : Session κ) (name : String) (blueprint : Blueprint κ) : Reply × Session κ :=
  let place : Place := ⟨blueprint.family, name⟩
  match blueprint.build with
  | .error fault => (.fault fault, session)
  | .ok object => (session.put place object).giveUp (session.object? place) .done

def visit (session : Session κ) (place : Place) : Reply × Session κ :=
  match session.current? place with
  | some object => (.done, session.put place object)
  | none => (.missing, session)

def edit (session : Session κ) (place : Place) (edit : Edit κ) : Reply × Session κ :=
  match (session.current? place).bind (·.edit edit session.heap) with
  | none => (.missing, session)
  | some effect =>
      (match effect.answer with
        | .ok reply => reply
        | .error fault => .fault fault,
        { session.put place effect.object with heap := effect.heap })

def discard (session : Session κ) (place : Place) : Reply × Session κ :=
  let old := session.object? place
  (session.remove place).giveUp old (.found old.isSome)

def step (session : Session κ) : Operation κ → Reply × Session κ
  | .create name blueprint => session.create name blueprint
  | .visit place => session.visit place
  | .edit place edit => session.edit place edit
  | .discard place => session.discard place
  | .installHook plan =>
      (.found session.heap.slot.isSome, { session with heap := session.heap.enlist plan })
  | .takeHook =>
      match session.heap.slot with
      | some hook =>
          (.found true, { session with heap := session.heap.vacate, shelf := hook :: session.shelf })
      | none => (.found false, session)
  | .restoreHook =>
      match session.shelf with
      | [] => (.missing, session)
      | hook :: shelf =>
          (.found session.heap.slot.isSome,
            { session with heap := session.heap.install hook, shelf })
  | .resetCounters => (.done, { session with heap := session.heap.resetCounters })

end Session

end MeteredChunk
