import MeteredChunk.Chunk.Instruction
import MeteredChunk.Chunk.Listing

/-!
Reading a chunk from its contents, and iterations that are taken call by call.
-/

namespace MeteredChunk

/-! ## Iterations

Iterations that are taken call by call. A call gives an item and the state to go on from; where
it gives nothing the state stays, so that no later call gives anything either.
-/

namespace Iteration

variable {State Item : Type} {call? : State → Option (Item × State)} {state : State}
  {items others : List Item}

def calls (call? : State → Option (Item × State)) (state : State) : Nat → List (Option Item)
  | 0 => []
  | count + 1 =>
      match call? state with
      | some (item, later) => some item :: calls call? later count
      | none => none :: calls call? state count

inductive Gives (call? : State → Option (Item × State)) : State → List Item → Prop
  | done {state : State} (ends : call? state = none) : Gives call? state []
  | next {state later : State} {item : Item} {items : List Item}
      (called : call? state = some (item, later)) (behind : Gives call? later items) :
      Gives call? state (item :: items)

theorem Gives.unique (gives : Gives call? state items) (givesToo : Gives call? state others) :
    others = items := by
  induction gives generalizing others with
  | done ends =>
      cases givesToo with
      | done endsToo => rfl
      | next called behind => cases ends.symm.trans called
  | next called behind ih =>
      cases givesToo with
      | done ends => cases ends.symm.trans called
      | next calledToo behindToo =>
          cases calledToo.symm.trans called
          rw [ih behindToo]

theorem calls_done (ends : call? state = none) (count : Nat) :
    calls call? state count = List.replicate count none := by
  induction count with
  | zero => rfl
  | succ count ih => simp only [calls, ends, ih, List.replicate_succ]

theorem Gives.calls (gives : Gives call? state items) (count : Nat) :
    calls call? state count = (items.map some ++ List.replicate count none).take count := by
  induction gives generalizing count with
  | done ends => simp [calls_done ends]
  | @next state later item items called behind ih =>
      cases count with
      | zero => rfl
      | succ count =>
          -- Of the blanks there is one more than the calls behind the item can reach.
          have spare : (items.map some ++ List.replicate (count + 1) none).take count =
              (items.map some ++ List.replicate count none).take count := by
            rw [List.replicate_succ', ← List.append_assoc,
              List.take_append_of_le_length (by simp)]
          simp only [Iteration.calls, called, ih, List.map_cons, List.cons_append,
            List.take_succ_cons, spare]

end Iteration

/-! ## Reading

Reading a chunk whose storage is there. What a walk sees of such a chunk is its
contents, so its answer is a matter of the contents alone.
-/

def Store.Intact {α : Type} (store : Store α) : Prop := store.count ≤ store.capacity

instance {α : Type} (store : Store α) : Decidable store.Intact := Nat.decLe _ _

namespace Contents

def bytes (contents : Contents) : List UInt8 := contents.units.toList.map CodeUnit.byte

def lines (contents : Contents) : List UInt32 := contents.units.toList.map CodeUnit.line

variable {contents : Contents} {offset : Nat} {unit : CodeUnit}

theorem ext_lists {one other : Contents} (units : one.units.toList = other.units.toList)
    (constants : one.constants.toList = other.constants.toList) : one = other := by
  obtain ⟨units, constants⟩ := one
  obtain ⟨unitsToo, constantsToo⟩ := other
  rw [mk.injEq]
  exact ⟨Array.toList_inj.mp units, Array.toList_inj.mp constants⟩

theorem length_bytes (contents : Contents) : contents.bytes.length = contents.size := by
  rw [bytes, List.length_map, Array.length_toList, size]

theorem unitAt?_none : contents.unitAt? offset = none ↔ contents.size ≤ offset :=
  Array.getElem?_eq_none_iff

theorem byteAt?_eq (contents : Contents) (offset : Nat) :
    contents.byteAt? offset = contents.bytes[offset]? := by
  simp [byteAt?, unitAt?, bytes]

theorem length_lines (contents : Contents) : contents.lines.length = contents.size := by
  rw [lines, List.length_map, Array.length_toList, size]

theorem lineAt?_eq (contents : Contents) (offset : Nat) :
    contents.lineAt? offset = contents.lines[offset]? := by
  simp [lineAt?, unitAt?, lines]

theorem bytes_drop_end (ends : contents.unitAt? offset = none) :
    contents.bytes.drop offset = [] := by
  have beyond := unitAt?_none.mp ends
  rw [List.drop_eq_nil_iff]
  simpa [bytes, size] using beyond

theorem bytes_drop (found : contents.unitAt? offset = some unit) :
    contents.bytes.drop offset = unit.byte :: contents.bytes.drop (offset + 1) := by
  have there : contents.bytes[offset]? = some unit.byte := by
    rw [← byteAt?_eq, byteAt?, found]
    rfl
  obtain ⟨inside, same⟩ := List.getElem?_eq_some_iff.mp there
  rw [List.drop_eq_getElem_cons inside, same]

end Contents

namespace Chunk

structure Intact (chunk : Chunk) : Prop where
  code : chunk.code.Intact
  constants : chunk.constants.values.Intact

def contents (chunk : Chunk) : Contents := ⟨chunk.code.slots, chunk.constants.values.slots⟩

variable {chunk : Chunk}

theorem walk_intact {α : Type} (intact : chunk.Intact) (visit : Contents → α) (loads : α → Bool) :
    chunk.walk visit loads = .ok (visit chunk.contents) := by
  have code := intact.code
  have constants := intact.constants
  unfold Store.Intact at code constants
  simp only [walk, Store.read, code, constants, if_true]
  rfl

theorem units_intact (intact : chunk.Intact) : chunk.units = .ok chunk.contents.units.toList := by
  have code := intact.code
  unfold Store.Intact at code
  simp only [units, Store.items, Store.read, code, if_true]
  rfl

theorem bytes_intact (intact : chunk.Intact) : chunk.bytes = .ok chunk.contents.bytes := by
  rw [bytes, units_intact intact]
  rfl

theorem lines_intact (intact : chunk.Intact) : chunk.lines = .ok chunk.contents.lines := by
  rw [lines, units_intact intact]
  rfl

theorem instructions_intact (intact : chunk.Intact) :
    chunk.instructions = .ok chunk.contents.instructions :=
  walk_intact intact _ _

theorem decode_intact (intact : chunk.Intact) :
    chunk.decode = .ok (chunk.contents.instructions.mapM id) := by
  unfold decode
  rw [instructions_intact intact]
  rfl

theorem rows_intact (intact : chunk.Intact) : chunk.rows = .ok chunk.contents.rows :=
  walk_intact intact _ _

theorem listing_intact (intact : chunk.Intact) (title : String) :
    chunk.listing title = .ok (Row.listing title chunk.contents.rows) := by
  unfold listing
  rw [rows_intact intact]
  rfl

theorem unitAt?_intact (intact : chunk.Intact) (offset : Nat) :
    chunk.unitAt? offset = .ok (chunk.contents.unitAt? offset) := by
  have code := intact.code
  unfold Store.Intact at code
  have slot : chunk.code.slots[offset]? =
      if offset < chunk.code.count then chunk.code.block[offset]? else none := by
    rw [← Array.getElem?_toList]
    simp [Store.slots, List.getElem?_take]
  simp only [unitAt?, Store.get?, code, if_true, ← slot]
  rfl

theorem byteAt?_intact (intact : chunk.Intact) (offset : Nat) :
    chunk.byteAt? offset = .ok (chunk.contents.byteAt? offset) := by
  unfold byteAt?
  rw [unitAt?_intact intact]
  rfl

theorem lineAt?_intact (intact : chunk.Intact) (offset : Nat) :
    chunk.lineAt? offset = .ok (chunk.contents.lineAt? offset) := by
  unfold lineAt?
  rw [unitAt?_intact intact]
  rfl

theorem size_contents (intact : chunk.Intact) : chunk.contents.size = chunk.size := by
  have code := intact.code
  unfold Store.Intact Store.capacity at code
  simp [Contents.size, contents, Store.slots, size, code]

end Chunk

end MeteredChunk
