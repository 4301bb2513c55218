import MeteredChunk.Proofs.Store.Granted

/-!
Blocks: which requests are turned away, and what a block holds after any history of them.
-/

namespace MeteredChunk

/-! ## Rejection

Which requests a block turns away. Sizes are compared and converted before anything is
counted, so a request that is turned away leaves the heap as it was, with its meter and
its hook. Any other request goes through, unless the hook fails or memory runs out.
-/

/-- The operation ended with a fault that does not end the program. -/
def Effect.Breaks {σ α : Type} (effect : Effect σ α) : Prop :=
  ∃ fault, effect.answer = .error fault ∧ fault.isFatal = false

namespace Block

variable {α : Type} [Element α] {heap : Heap}

theorem elementSize_pos (α : Type) [Element α] : 0 < elementSize α :=
  Nat.lt_of_lt_of_le Nat.one_pos (Nat.le_max_right _ _)

theorem elementSize_sized (sized : Element.bytes α ≠ 0) : elementSize α = Element.bytes α :=
  Nat.max_eq_left (Nat.one_le_iff_ne_zero.mpr sized)

theorem elementSize_dvd (length : Nat) : elementSize α ∣ length * Element.bytes α := by
  by_cases roomless : Element.bytes α = 0
  · rw [roomless, Nat.mul_zero]
    exact Nat.dvd_zero _
  · rw [elementSize_sized roomless]
    exact Nat.dvd_mul_left _ _

structure Consistent (block : Block α) (old new : Nat) : Prop where
  own : old = block.bytes
  whole : elementSize α ∣ new

theorem checked_consistent {block : Block α} {old new : Nat}
    (consistent : block.Consistent old new) :
    block.checked old new = .ok ⟨old, new⟩ := by
  have whole := Nat.mod_eq_zero_of_dvd consistent.whole
  simp only [checked, consistent.own, whole, ne_eq, not_true_eq_false, if_false]

theorem checked_inconsistent {block : Block α} {old new : Nat}
    (inconsistent : ¬ block.Consistent old new) :
    ∃ fault, block.checked old new = .error fault ∧ fault.isFatal = false := by
  unfold checked
  split_ifs with own whole
  · exact ⟨_, rfl, rfl⟩
  · exact ⟨_, rfl, rfl⟩
  · exact absurd ⟨(not_not.mp own).symm, Nat.dvd_of_mod_eq_zero (not_not.mp whole)⟩ inconsistent

def TurnedAway (effect : Effect (Block α) Unit) (heap : Heap) : Prop :=
  ∃ fault, fault.isFatal = false ∧ effect = .fail fault #[] heap

theorem reallocate_inconsistent {block : Block α} {old new : Nat} (heap : Heap)
    (inconsistent : ¬ block.Consistent old new) :
    TurnedAway (block.reallocate old new heap) heap := by
  obtain ⟨fault, fails, contained⟩ := checked_inconsistent inconsistent
  refine ⟨fault, contained, ?_⟩
  rw [reallocate, fails]

theorem reallocate_calm {block : Block α} {old new : Nat} (consistent : block.Consistent old new)
    (calm : (block.reallocate old new heap).Calm heap) :
    (block.reallocate old new heap).answer = .ok () ∧
      (block.reallocate old new heap).object = block.resize (new / elementSize α) ∧
      (new ≤ block.bytes ∨ Element.bytes α = 0 ∨ new < heap.ceiling) := by
  have passes := checked_consistent consistent
  rw [← hold_reallocating] at calm ⊢
  obtain ⟨ended, -⟩ := Dialogue.hold_calm (reallocating_candid block old new) calm
  by_cases same : old = new
  · have kept : block.reallocating old new = .close (.ok ()) block := by
      rw [reallocating, passes]
      exact if_pos same
    have length : new / elementSize α = block.size := by
      rw [← same, consistent.own, bytes, Nat.mul_div_cancel _ (elementSize_pos α)]
    rw [kept, length, resize_self]
    exact ⟨rfl, rfl, .inl (same ▸ consistent.own.le)⟩
  · have granted : (block.reallocating old new).granted heap.ceiling =
        if block.exceeds heap.ceiling new then
          (.error (Heap.shortage new (Element.bytes α) (Element.align α)), #[])
        else (.ok (), block.resize (new / elementSize α)) := by
      simp only [reallocating, passes, same, if_false, Dialogue.granted]
      split <;> rfl
    rw [granted] at ended
    -- A block beyond memory would have ended the program.
    have enough : ¬ block.exceeds heap.ceiling new = true := by
      intro short
      rw [if_pos short] at ended
      cases calm.survived _ (congrArg Prod.fst ended)
    rw [if_neg enough] at ended
    refine ⟨congrArg Prod.fst ended, congrArg Prod.snd ended, ?_⟩
    simp only [exceeds, Bool.and_eq_true, decide_eq_true_eq] at enough
    omega

section Lengths
variable {block : Block α} {old new : Nat}

theorem arrayBytes_cases (α : Type) [Element α] (count : Nat) :
    (count * Element.bytes α < Word.limit ∧
        arrayBytes α count = .ok (count * Element.bytes α)) ∨
      (Word.limit ≤ count * Element.bytes α ∧
        arrayBytes α count = .error (.capacityOverflow count (Element.bytes α))) := by
  by_cases fits : count * Element.bytes α < Word.limit
  · exact .inl ⟨fits, arrayBytes_ok count fits⟩
  · have unfit : Word.fit? (count * Element.bytes α) = none := if_neg fits
    exact .inr ⟨Nat.not_lt.mp fits, by rw [arrayBytes, unfit]⟩

theorem release_grow (block : Block α) (old : Nat) (heap : Heap) :
    block.release old heap = block.grow old 0 heap := by
  rw [release, grow, arrayBytes_zero]
  cases arrayBytes α old <;> rfl

structure Convertible (block : Block α) (old new : Nat) : Prop where
  word : old * Element.bytes α < Word.limit
  wordToo : new * Element.bytes α < Word.limit
  own : old * Element.bytes α = block.bytes

theorem grow_cases (block : Block α) (old new : Nat) (heap : Heap) :
    (¬ block.Convertible old new ∧ TurnedAway (block.grow old new heap) heap) ∨
      (old * Element.bytes α < Word.limit ∧ new * Element.bytes α < Word.limit ∧
        block.grow old new heap =
          block.reallocate (old * Element.bytes α) (new * Element.bytes α) heap) := by
  unfold grow
  rcases arrayBytes_cases α old with ⟨fits, first⟩ | ⟨beyond, first⟩
  · rcases arrayBytes_cases α new with ⟨fitsToo, second⟩ | ⟨beyond, second⟩
    · right
      rw [first, second]
      exact ⟨fits, fitsToo, rfl⟩
    · left
      rw [first, second]
      exact ⟨fun convertible => absurd convertible.wordToo (Nat.not_lt.mpr beyond), _, rfl, rfl⟩
  · left
    rw [first]
    exact ⟨fun convertible => absurd convertible.word (Nat.not_lt.mpr beyond), _, rfl, rfl⟩

theorem grow_inconvertible (heap : Heap) (inconvertible : ¬ block.Convertible old new) :
    TurnedAway (block.grow old new heap) heap := by
  rcases block.grow_cases old new heap with ⟨-, turned⟩ | ⟨fits, fitsToo, same⟩
  · exact turned
  · rw [same]
    exact reallocate_inconsistent heap fun consistent =>
      inconvertible ⟨fits, fitsToo, consistent.own⟩

theorem grow_convertible (heap : Heap) (convertible : block.Convertible old new) :
    block.Consistent (old * Element.bytes α) (new * Element.bytes α) ∧
      block.grow old new heap =
        block.reallocate (old * Element.bytes α) (new * Element.bytes α) heap := by
  rcases block.grow_cases old new heap with ⟨inconvertible, -⟩ | ⟨-, -, same⟩
  · exact absurd convertible inconvertible
  · exact ⟨⟨convertible.own, elementSize_dvd new⟩, same⟩

theorem grow_calm (convertible : block.Convertible old new)
    (calm : (block.grow old new heap).Calm heap) : (block.grow old new heap).answer = .ok () := by
  obtain ⟨consistent, same⟩ := grow_convertible heap convertible
  rw [same] at calm ⊢
  exact (reallocate_calm consistent calm).1

theorem convertible_sized (sized : Element.bytes α ≠ 0) (word : block.bytes < Word.limit) :
    block.Convertible old new ↔ old = block.size ∧ new * Element.bytes α < Word.limit := by
  have own : block.bytes = block.size * Element.bytes α := by rw [bytes, elementSize_sized sized]
  constructor
  · intro convertible
    exact ⟨Nat.eq_of_mul_eq_mul_right (Nat.pos_of_ne_zero sized) (convertible.own.trans own),
      convertible.wordToo⟩
  · rintro ⟨rfl, fits⟩
    exact ⟨own ▸ word, fits, own.symm⟩

theorem convertible_roomless (roomless : Element.bytes α = 0) :
    block.Convertible old new ↔ block = #[] := by
  have single : elementSize α = 1 := by rw [elementSize, roomless]; rfl
  have own : block.bytes = block.size := by rw [bytes, single, Nat.mul_one]
  constructor
  · intro convertible
    have empty := convertible.own
    rw [roomless, Nat.mul_zero, own] at empty
    exact Array.eq_empty_of_size_eq_zero empty.symm
  · rintro rfl
    have zero (length : Nat) : length * Element.bytes α < Word.limit := by
      rw [roomless, Nat.mul_zero]
      exact Nat.two_pow_pos 64
    exact ⟨zero old, zero new, by rw [roomless, Nat.mul_zero, own]; rfl⟩

end Lengths

/-- The call fails and leaves the heap as it was if `inconsistent` holds. Where no hook fails and
memory suffices, it fails in no other case. -/
structure Rejects (heap : Heap) (effect : Effect (Block α) Unit) (inconsistent : Prop) : Prop where
  breaks_iff : effect.Calm heap → (effect.Breaks ↔ inconsistent)
  breaks : inconsistent → effect.Breaks
  heap_eq : inconsistent → effect.heap = heap

omit [Element α] in
theorem rejects_turnedAway {effect : Effect (Block α) Unit} {inconsistent : Prop}
    (turned : inconsistent → TurnedAway effect heap)
    (through : ¬ inconsistent → effect.Calm heap → effect.answer = .ok ()) :
    Rejects heap effect inconsistent := by
  have breaks (wrong : inconsistent) : effect.Breaks ∧ effect.heap = heap := by
    obtain ⟨fault, contained, same⟩ := turned wrong
    rw [same]
    exact ⟨⟨fault, rfl, contained⟩, rfl⟩
  refine ⟨fun calm => ⟨?_, fun wrong => (breaks wrong).1⟩, fun wrong => (breaks wrong).1,
    fun wrong => (breaks wrong).2⟩
  rintro ⟨fault, broken, -⟩
  by_contra right
  cases (through right calm).symm.trans broken

theorem reallocate_rejects (block : Block α) (old new : Nat) (heap : Heap) :
    Rejects heap (block.reallocate old new heap) (¬ block.Consistent old new) :=
  rejects_turnedAway (reallocate_inconsistent heap)
    fun consistent calm => (reallocate_calm (not_not.mp consistent) calm).1

theorem grow_rejects (block : Block α) (old new : Nat) (heap : Heap) :
    Rejects heap (block.grow old new heap) (¬ block.Convertible old new) :=
  rejects_turnedAway (grow_inconvertible heap)
    fun convertible calm => grow_calm (not_not.mp convertible) calm

/-- A request is rejected exactly if its sizes are not the block's own or not whole elements, and
for lengths if a size does not fit a word; then the heap is unchanged. Elements without room have
size zero in any number, so with them only an empty block is accepted. -/
theorem requests_rejected (block : Block α) (word : block.bytes < Word.limit) (old new : Nat)
    (heap : Heap) :
    Rejects heap (block.reallocate old new heap)
        (old ≠ block.size * elementSize α ∨ ¬ elementSize α ∣ new) ∧
      (Element.bytes α ≠ 0 →
        Rejects heap (block.grow old new heap)
            (old ≠ block.size ∨ Word.limit ≤ new * Element.bytes α) ∧
          Rejects heap (block.release old heap) (old ≠ block.size)) ∧
      (Element.bytes α = 0 →
        Rejects heap (block.grow old new heap) (block ≠ #[]) ∧
          Rejects heap (block.release old heap) (block ≠ #[])) := by
  have consistent : ¬ block.Consistent old new ↔
      old ≠ block.size * elementSize α ∨ ¬ elementSize α ∣ new := by
    rw [← not_and_or]
    exact not_congr ⟨fun ⟨own, whole⟩ => ⟨own, whole⟩, fun ⟨own, whole⟩ => ⟨own, whole⟩⟩
  have reallocates := block.reallocate_rejects old new heap
  have grows := block.grow_rejects old new heap
  have releases := block.grow_rejects old 0 heap
  rw [consistent] at reallocates
  rw [← release_grow] at releases
  refine ⟨reallocates, fun sized => ?_, fun roomless => ?_⟩
  · rw [convertible_sized sized word, not_and_or, Nat.not_lt] at grows
    rw [convertible_sized sized word, not_and_or, Nat.zero_mul] at releases
    refine ⟨grows, ?_⟩
    have fits : 0 < Word.limit := Nat.two_pow_pos 64
    simpa only [fits, not_true_eq_false, or_false] using releases
  · rw [convertible_roomless roomless] at grows releases
    exact ⟨grows, releases⟩

/-- Lengths whose sizes agree with the block modulo `2 ^ 64`, and elements without room. -/
theorem requests_rejected_wrapped :
    let block : Block UInt64 := #[1, 2]
    let roomless : Block Unit := #[(), ()]
    let heap : Heap := Heap.enlist {} .record
    (2 + 2 ^ 61) * 8 % Word.limit = block.bytes ∧
      (block.grow (2 + 2 ^ 61) 4 heap).Breaks ∧ (block.grow (2 + 2 ^ 61) 4 heap).heap = heap ∧
      (block.grow 2 (4 + 2 ^ 61) heap).Breaks ∧
      (block.reallocate 16 20 heap).Breaks ∧ (block.reallocate 16 20 heap).heap = heap ∧
      ¬ (block.release 2 heap).Breaks ∧ (roomless.release 2 heap).Breaks := by
  intro block roomless heap
  have word : block.bytes < Word.limit := by decide
  obtain ⟨-, lengths, -⟩ := requests_rejected block word (2 + 2 ^ 61) 4 heap
  obtain ⟨-, lengthsToo, -⟩ := requests_rejected block word 2 (4 + 2 ^ 61) heap
  obtain ⟨sizes, -, -⟩ := requests_rejected block word 16 20 heap
  obtain ⟨-, -, sizeless⟩ := requests_rejected roomless (by decide) 2 2 heap
  have wrapped := (lengths (by decide)).1
  have wrappedToo := (lengthsToo (by decide)).1
  have calm : (block.release 2 heap).Calm heap := by decide +kernel
  have released := (lengthsToo (by decide)).2.breaks_iff calm
  refine ⟨by decide, wrapped.breaks (.inl (by decide)), wrapped.heap_eq (.inl (by decide)),
    wrappedToo.breaks (.inr (by decide)), sizes.breaks (.inr (by decide)),
    sizes.heap_eq (.inr (by decide)), ?_, (sizeless rfl).2.breaks (by decide)⟩
  rw [released]
  decide

end Block

/-! ## Histories

Histories of a block. Whatever lengths it is brought to, and in whatever ways, a slot
that was cut off once is blank when it comes back, and a slot that never was cut off
keeps its element.
-/

inductive Resizing where
  /-- Sizes. -/
  | reallocate (old new : Nat)
  /-- Lengths, as for `release`. -/
  | grow (old new : Nat)
  | release (old : Nat)

namespace Block

variable {α : Type} [Element α] {heap : Heap}

def perform (block : Block α) (heap : Heap) : Resizing → Effect (Block α) Unit
  | .reallocate old new => block.reallocate old new heap
  | .grow old new => block.grow old new heap
  | .release old => block.release old heap

def wanted (α : Type) [Element α] : Resizing → Nat
  | .reallocate _ new => new / elementSize α
  | .grow _ new => new
  | .release _ => 0

def Accepts (block : Block α) : Resizing → Prop
  | .reallocate old new => old = block.size * elementSize α ∧ elementSize α ∣ new
  | .grow old new => old = block.size ∧ new * Element.bytes α < Word.limit
  | .release old => old = block.size

instance (block : Block α) (resizing : Resizing) : Decidable (block.Accepts resizing) :=
  match resizing with
  | .reallocate _ _ => inferInstanceAs (Decidable (_ ∧ _))
  | .grow _ _ => inferInstanceAs (Decidable (_ ∧ _))
  | .release old => inferInstanceAs (Decidable (old = block.size))

/-- The answers to requests that are each made on the heap beside it, and the block in the end. -/
def history (block : Block α) : List (Resizing × Heap) → List (Except Fault Unit) × Block α
  | [] => ([], block)
  | (resizing, heap) :: rest =>
      let effect := block.perform heap resizing
      let later := effect.object.history rest
      (effect.answer :: later.1, later.2)

def Smooth (block : Block α) : List (Resizing × Heap) → Prop
  | [] => True
  | (resizing, heap) :: rest =>
      block.Accepts resizing ∧ (block.perform heap resizing).Calm heap ∧
        (block.perform heap resizing).object.Smooth rest

instance smooth_decidable (block : Block α) :
    (requests : List (Resizing × Heap)) → Decidable (block.Smooth requests)
  | [] => isTrue trivial
  | (resizing, heap) :: rest =>
      have := smooth_decidable (block.perform heap resizing).object rest
      inferInstanceAs (Decidable (_ ∧ _ ∧ _))

theorem getElem?_resize (block : Block α) (length index : Nat) (inside : index < length) :
    (block.resize length)[index]? =
      if index < block.size then block[index]? else some Element.blank := by
  simp only [resize, Array.take_eq_extract, Array.getElem?_append, Array.size_extract,
    Nat.sub_zero]
  by_cases held : index < block.size
  · have kept : index < min length block.size := Nat.lt_min.mpr ⟨inside, held⟩
    rw [if_pos held, if_pos kept, Array.getElem?_extract, if_pos (by omega), Nat.zero_add]
  · have beyond : ¬ index < min length block.size := fun kept => held (Nat.lt_min.mp kept).2
    rw [if_neg held, if_neg beyond, Array.getElem?_replicate, if_pos (by omega)]

/-- A block of words stays one: what no memory has room for is never granted. -/
theorem reallocate_word {block : Block α} {old new : Nat} (word : block.bytes < Word.limit)
    (sized : Element.bytes α ≠ 0) (consistent : block.Consistent old new)
    (calm : (block.reallocate old new heap).Calm heap) :
    (block.resize (new / elementSize α)).bytes < Word.limit := by
  obtain ⟨-, -, reached⟩ := reallocate_calm consistent calm
  have bounded : heap.ceiling ≤ 2 ^ 63 := heap.bounded
  have limit : Word.limit = 2 ^ 64 := rfl
  rw [bytes, size_resize, Nat.div_mul_cancel consistent.whole]
  omega

/-- An accepted request brings the block to the length that is asked for. -/
theorem perform_calm {block : Block α} {resizing : Resizing} (sized : Element.bytes α ≠ 0)
    (word : block.bytes < Word.limit) (accepted : block.Accepts resizing)
    (calm : (block.perform heap resizing).Calm heap) :
    (block.perform heap resizing).answer = .ok () ∧
      (block.perform heap resizing).object = block.resize (wanted α resizing) ∧
      (block.resize (wanted α resizing)).bytes < Word.limit := by
  have lengths (old new : Nat) (convertible : block.Convertible old new)
      (calm : (block.grow old new heap).Calm heap) :
      (block.grow old new heap).answer = .ok () ∧
        (block.grow old new heap).object = block.resize new ∧
        (block.resize new).bytes < Word.limit := by
    obtain ⟨consistent, same⟩ := grow_convertible heap convertible
    have length : new * Element.bytes α / elementSize α = new := by
      rw [elementSize_sized sized, Nat.mul_div_cancel _ (Nat.pos_of_ne_zero sized)]
    rw [same] at calm ⊢
    have reached := reallocate_word word sized consistent calm
    obtain ⟨through, object, -⟩ := reallocate_calm consistent calm
    rw [length] at reached object
    exact ⟨through, object, reached⟩
  cases resizing with
  | reallocate old new =>
      have consistent : block.Consistent old new := ⟨accepted.1, accepted.2⟩
      obtain ⟨through, object, -⟩ := reallocate_calm consistent calm
      exact ⟨through, object, reallocate_word word sized consistent calm⟩
  | grow old new => exact lengths old new ((convertible_sized sized word).mpr accepted) calm
  | release old =>
      simp only [perform, release_grow] at calm ⊢
      exact lengths old 0 ((convertible_sized sized word).mpr ⟨accepted, empty_fits α⟩) calm

/-- Every accepted request goes through, and the block has the length that was asked for last. Slots
that all lengths reach keep their elements, and all others are blank. -/
theorem history_keeps (sized : Element.bytes α ≠ 0) (block : Block α)
    (word : block.bytes < Word.limit) (requests : List (Resizing × Heap))
    (smooth : block.Smooth requests) :
    let lengths := requests.map fun request => wanted α request.1
    let last := (block.history requests).2
    (∀ answer ∈ (block.history requests).1, answer = .ok ()) ∧
      last.size = lengths.getLastD block.size ∧
      ∀ index < last.size, last[index]? =
        if ∀ length ∈ block.size :: lengths, index < length then block[index]?
        else some Element.blank := by
  induction requests generalizing block with
  | nil =>
      refine ⟨fun answer member => (by cases member), rfl, fun index inside => ?_⟩
      exact (if_pos (List.forall_mem_singleton.mpr inside)).symm
  | cons request rest ih =>
      obtain ⟨resizing, heap⟩ := request
      obtain ⟨accepted, calm, later⟩ := smooth
      obtain ⟨through, object, wordToo⟩ := perform_calm sized word accepted calm
      rw [object] at later
      obtain ⟨answers, size, kept⟩ := ih _ wordToo later
      simp only [history, object, List.map_cons, List.getLastD_cons, List.forall_mem_cons,
        size_resize] at size kept ⊢
      refine ⟨⟨through, answers⟩, size, fun index inside => ?_⟩
      rw [kept index inside]
      by_cases first : index < wanted α resizing
      · -- The first request has not cut the slot off: it holds what it held before, or a blank.
        rw [getElem?_resize block _ index first]
        simp only [first, true_and]
        split_ifs <;> first | rfl | tauto
      · simp only [first, false_and, and_false, if_false]

/-- Two elements are cut off and come back blank, also when the block was freed in between. -/
theorem history_keeps_cut :
    let block : Block UInt16 := #[7, 8, 9, 10]
    let watched : Heap := Heap.enlist {} (.reenter 32)
    let shrunk : List (Resizing × Heap) := [(.grow 4 2, watched), (.reallocate 4 10, {})]
    let freed : List (Resizing × Heap) := [(.release 4, {}), (.grow 0 3, watched)]
    (block.history shrunk).2[1]? = some 8 ∧ (block.history shrunk).2[3]? = some 0 ∧
      (block.history freed).2.size = 3 ∧ (block.history freed).2[1]? = some 0 := by
  intro block watched shrunk freed
  have smooth : block.Smooth shrunk := by decide +kernel
  have smoothToo : block.Smooth freed := by decide +kernel
  obtain ⟨-, size, kept⟩ := history_keeps (by decide) block (by decide) shrunk smooth
  obtain ⟨-, sizeToo, keptToo⟩ := history_keeps (by decide) block (by decide) freed smoothToo
  refine ⟨(kept 1 (by rw [size]; decide)).trans rfl, (kept 3 (by rw [size]; decide)).trans rfl,
    sizeToo, (keptToo 1 (by rw [sizeToo]; decide)).trans rfl⟩

end Block

end MeteredChunk
