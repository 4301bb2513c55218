import MeteredChunk.Proofs.Store.Granted
import Mathlib.Algebra.BigOperators.Group.List.Basic
import Mathlib.Data.Nat.Log
import Mathlib.Order.Bounds.Basic

/-!
How a store gets larger. Its capacities are the rungs of a ladder, and a store that
began with nothing stands on the lowest rung that its elements fit on. What it asked
for on the way up is told by the ladder alone.
-/

namespace MeteredChunk

namespace Rung

def slots : Nat → Nat
  | 0 => 0
  | rung + 1 => 8 * 2 ^ rung

theorem eight_le (rung : Nat) : 8 ≤ slots (rung + 1) :=
  Nat.le_mul_of_pos_right 8 (Nat.two_pow_pos rung)

theorem slots_double (rung : Nat) : slots (rung + 2) = 2 * slots (rung + 1) := by
  simp only [slots, pow_succ]
  omega

theorem log2_slots (rung : Nat) : (slots (rung + 1) / 8).log2 = rung := by
  rw [slots, Nat.mul_div_cancel_left _ (Nat.zero_lt_succ 7), Nat.log2_two_pow]

theorem slots_lt_succ (rung : Nat) : slots rung < slots (rung + 1) := by
  have positive := eight_le rung
  cases rung with
  | zero => exact lt_of_lt_of_le (Nat.zero_lt_succ 7) positive
  | succ rung =>
      have before := eight_le rung
      rw [slots_double]
      omega

def lowest : (count : Nat) → Nat
  | 0 => 0
  | count + 1 => Nat.clog 2 ((count + 8) / 8) + 1

theorem lowest_le (count rung : Nat) : lowest count ≤ rung ↔ count ≤ slots rung := by
  cases count with
  | zero => simp [lowest]
  | succ count =>
      cases rung with
      | zero => simp [lowest, slots]
      | succ rung =>
          rw [lowest, slots, Nat.add_le_add_iff_right, Nat.clog_le_iff_le_pow Nat.one_lt_two]
          omega

theorem fits_lowest (count : Nat) : count ≤ slots (lowest count) := (lowest_le count _).mp le_rfl

/-- One more element takes the next rung where the lowest one is full. -/
theorem lowest_succ (count : Nat) :
    lowest (count + 1) =
      if count = slots (lowest count) then lowest count + 1 else lowest count := by
  have fits := fits_lowest count
  have monotone : lowest count ≤ lowest (count + 1) :=
    (lowest_le count _).mpr (Nat.le_of_succ_le (fits_lowest (count + 1)))
  by_cases full : count = slots (lowest count)
  · rw [if_pos full]
    apply Nat.le_antisymm
    · apply (lowest_le _ _).mpr
      exact Nat.succ_le_of_lt (lt_of_eq_of_lt full (slots_lt_succ _))
    · apply Nat.succ_le_of_lt
      apply lt_of_le_of_ne monotone
      intro same
      have more := fits_lowest (count + 1)
      rw [← same] at more
      omega
  · rw [if_neg full]
    exact Nat.le_antisymm ((lowest_le _ _).mpr (Nat.lt_of_le_of_ne fits full)) monotone

/-- The lowest rung has the fewest slots that are enough. -/
theorem slots_least (count : Nat) (positive : 0 < count) :
    IsLeast {capacity | count ≤ capacity ∧ ∃ doublings, capacity = 8 * 2 ^ doublings}
      (slots (lowest count)) := by
  constructor
  · refine ⟨fits_lowest count, ?_⟩
    obtain ⟨fewer, rfl⟩ := Nat.exists_eq_add_one_of_ne_zero positive.ne'
    exact ⟨_, rfl⟩
  · rintro capacity ⟨enough, doublings, rfl⟩
    have above := (lowest_le count (doublings + 1)).mpr enough
    have monotone : ∀ rung, slots rung ≤ 8 * 2 ^ (rung - 1) := fun rung => by
      cases rung with
      | zero => exact Nat.zero_le _
      | succ rung => exact le_rfl
    exact (monotone _).trans
      (Nat.mul_le_mul_left 8 (Nat.pow_le_pow_right Nat.two_pos (Nat.sub_le_of_le_add above)))

/-- Fewer than twice as many slots as elements, the first eight apart. -/
theorem slots_lt (count : Nat) (positive : 0 < count) : slots (lowest count) < 2 * count + 8 := by
  cases on : lowest count with
  | zero => exact Nat.zero_lt_of_lt (Nat.lt_add_left _ (Nat.zero_lt_succ 7))
  | succ lower =>
      have tooMany : slots lower < count := by
        by_contra enough
        have below := (lowest_le count lower).mpr (Nat.not_lt.mp enough)
        omega
      cases lower with
      | zero => simp only [slots, pow_zero]; omega
      | succ lower =>
          rw [slots_double]
          omega

def request (size rung : Nat) : Request := ⟨slots rung * size, slots (rung + 1) * size⟩

def requested (size count : Nat) : List Request :=
  if count = slots (lowest count) then [request size (lowest count)] else []

def climb (size rung : Nat) : List Request := (List.range rung).map (request size)

theorem climb_requested (size count : Nat) :
    (List.range count).flatMap (requested size) = climb size (lowest count) := by
  induction count with
  | zero => rfl
  | succ count ih =>
      rw [List.range_succ, List.flatMap_append, ih, List.flatMap_singleton, lowest_succ, requested]
      by_cases full : count = slots (lowest count)
      · rw [if_pos full, if_pos full, climb, climb, List.range_succ, List.map_append,
          List.map_singleton]
      · rw [if_neg full, if_neg full, List.append_nil]

def copied (request : Request) : Nat := if request.kind? = some .grow then request.old else 0

theorem kind_request (size rung : Nat) (room : 0 < size) :
    (request size rung).kind? = some (if rung = 0 then .allocate else .grow) := by
  have more : slots rung * size < slots (rung + 1) * size :=
    Nat.mul_lt_mul_of_pos_right (slots_lt_succ rung) room
  have changes : ¬ slots rung * size = slots (rung + 1) * size := more.ne
  have kept : ¬ slots (rung + 1) * size = 0 := Nat.ne_zero_of_lt more
  simp only [request, Request.kind?, changes, kept, more, if_false, if_true]
  cases rung with
  | zero =>
      rw [slots, Nat.zero_mul]
      rfl
  | succ rung =>
      have held : ¬ slots (rung + 1) * size = 0 :=
        Nat.mul_ne_zero (Nat.ne_zero_of_lt (eight_le rung)) room.ne'
      rw [if_neg held, if_neg (Nat.succ_ne_zero rung)]

theorem copied_request (size rung : Nat) (room : 0 < size) :
    copied (request size rung) = slots rung * size := by
  rw [copied, kind_request size rung room]
  cases rung with
  | zero => simp [slots]
  | succ rung => rfl

/-- The copying on the way up comes to all the slots but the first eight. -/
theorem copied_climb (size rung : Nat) (room : 0 < size) :
    ((climb size (rung + 1)).map copied).sum = (slots (rung + 1) - 8) * size := by
  induction rung with
  | zero => simp [climb, copied_request size 0 room, slots]
  | succ rung ih =>
      have first := eight_le rung
      rw [climb, List.range_succ, List.map_append, List.map_append, List.sum_append, ← climb, ih,
        List.map_singleton, List.map_singleton, List.sum_singleton, copied_request size _ room,
        ← Nat.add_mul, slots_double]
      congr 1
      omega

/-- Only the first step up is an allocation. -/
theorem kinds_climb (size rung : Nat) (room : 0 < size) :
    (climb size (rung + 1)).map Request.kind? =
      some .allocate :: List.replicate rung (some .grow) := by
  induction rung with
  | zero => simp [climb, kind_request size 0 room]
  | succ rung ih =>
      rw [climb, List.range_succ, List.map_append, List.map_append, ← climb, ih, List.map_singleton,
        List.map_singleton, kind_request size _ room, if_neg (Nat.succ_ne_zero rung),
        List.replicate_succ', List.cons_append]

end Rung

namespace Store

variable {α : Type} [Element α] {heap : Heap}

/-- The store holds `count` elements and has the least capacity for them. -/
structure Climbed (store : Store α) (count : Nat) : Prop where
  count_eq : store.count = count
  capacity_eq : store.capacity = Rung.slots (Rung.lowest count)
  small : store.block.bytes < 2 ^ 63

theorem climbed_new : ({} : Store α).Climbed 0 :=
  ⟨rfl, rfl, lt_of_eq_of_lt Block.bytes_empty (Nat.two_pow_pos 63)⟩

theorem nextCapacity_climbed (sized : Block.Sized α) {store : Store α} {count : Nat}
    (climbed : store.Climbed count) :
    nextCapacity store.capacity = Rung.slots (Rung.lowest count + 1) := by
  rw [capacity, nextCapacity_small sized store.block climbed.small, ← capacity,
    climbed.capacity_eq]
  cases Rung.lowest count with
  | zero => rfl
  | succ rung =>
      have first := Rung.eight_le rung
      rw [if_neg first.not_gt, Rung.slots_double, Nat.mul_comm]

theorem bytes_climbed (sized : Block.Sized α) {store : Store α} {count : Nat}
    (climbed : store.Climbed count) :
    store.block.bytes = Rung.slots (Rung.lowest count) * Element.bytes α := by
  rw [Block.bytes_sized sized, ← climbed.capacity_eq, capacity]

theorem needs_climbed (sized : Block.Sized α) {store : Store α} {count : Nat}
    (climbed : store.Climbed count) : store.needs = Rung.requested (Element.bytes α) count := by
  rw [needs, Rung.requested, nextCapacity_climbed sized climbed, climbed.count_eq,
    climbed.capacity_eq, bytes_climbed sized climbed]
  rfl

/-- An addition takes the store from the lowest rung to the lowest rung. -/
theorem push_climbed (sized : Block.Sized α) (value : α) {store : Store α} {count : Nat}
    (climbed : store.Climbed count) (calm : (push value heap store).Calm heap) :
    (push value heap store).answer = .ok () ∧
      (push value heap store).object.Climbed (count + 1) ∧
      (push value heap store).heap = heap.serveAll (Rung.requested (Element.bytes α) count) := by
  have intact : store.Intact := by
    rw [Intact, climbed.count_eq, climbed.capacity_eq]
    exact Rung.fits_lowest count
  have added := push_added sized value store intact climbed.small calm
  refine ⟨added.through, ⟨?_, ?_, added.small⟩, ?_⟩
  · rw [added.count_eq, climbed.count_eq]
  · rw [added.capacity_eq, nextCapacity_climbed sized climbed, climbed.count_eq,
      climbed.capacity_eq, Rung.lowest_succ]
    split <;> rfl
  · rw [added.heap_eq, needs_climbed sized climbed]

theorem releases_climbed (sized : Block.Sized α) {store : Store α} {count : Nat}
    (climbed : store.Climbed count) (positive : 0 < count) :
    store.releases = [⟨Rung.slots (Rung.lowest count) * Element.bytes α, 0⟩] := by
  have enough := Rung.fits_lowest count
  rw [releases, Block.bytes_sized sized, ← capacity, climbed.capacity_eq]
  exact if_neg (by omega)

end Store

end MeteredChunk
