import MeteredChunk.Proofs.Heap.Passage

/-!
The signed change that a hook is told of, and the protocol by which hooks are called.
-/

namespace MeteredChunk

/-! ## Deltas

The signed change of live bytes that a request stands for. Its sizes are read as signed
words. Where both lie in the same half of the range, the change is what it should be.
Across the halves it either does not fit, and a hook that works it out fails, or it is
off by the whole range, and then its sign is the wrong one.
-/

namespace Word

theorem signed_low (n : Nat) (low : n < 2 ^ 63) : signed n = n := by
  have range : limit = 2 ^ 64 := by decide
  rw [signed, range]
  exact Int.bmod_eq_of_le_mul_two (by omega) (by omega)

theorem signed_high (n : Nat) (high : 2 ^ 63 ≤ n) (word : n < 2 ^ 64) :
    signed n = (n : Int) - 2 ^ 64 := by
  have range : limit = 2 ^ 64 := by decide
  rw [signed, range, ← Int.sub_bmod_right]
  exact Int.bmod_eq_of_le_mul_two (by omega) (by omega)

theorem difference_eq (left right : Nat) :
    difference? left right =
      if -2 ^ 63 ≤ signed left - signed right ∧ signed left - signed right < 2 ^ 63 then
        some (signed left - signed right)
      else none := by
  have half : ((1 <<< 63 : Nat) : Int) = 2 ^ 63 := by decide
  simp only [difference?, half]

variable {left right : Nat}

theorem difference_alike (leftWord : left < 2 ^ 64) (rightWord : right < 2 ^ 64)
    (alike : left < 2 ^ 63 ↔ right < 2 ^ 63) :
    difference? left right = some ((left : Int) - right) := by
  have same : signed left - signed right = (left : Int) - right := by
    by_cases low : left < 2 ^ 63
    · rw [signed_low left low, signed_low right (alike.mp low)]
    · have high := mt alike.mpr low
      rw [signed_high left (Nat.not_lt.mp low) leftWord,
        signed_high right (Nat.not_lt.mp high) rightWord]
      omega
  rw [difference_eq, same]
  exact if_pos (by omega)

theorem difference_small (left right : Nat) (small : left < 2 ^ 63) (smallToo : right < 2 ^ 63) :
    difference? left right = some ((left : Int) - right) :=
  difference_alike (by omega) (by omega) (iff_of_true small smallToo)

/-- From the lower half to the upper one: only a change that is too large comes out at all. -/
theorem difference_up (leftWord : left < 2 ^ 64) (high : 2 ^ 63 ≤ left) (low : right < 2 ^ 63) :
    difference? left right =
      if (left : Int) - right < 2 ^ 63 then none else some ((left : Int) - right - 2 ^ 64) := by
  have around : (left : Int) - 2 ^ 64 - right = left - right - 2 ^ 64 := by omega
  rw [difference_eq, signed_high left high leftWord, signed_low right low, around]
  by_cases near : (left : Int) - right < 2 ^ 63
  · rw [if_neg (by omega), if_pos near]
  · rw [if_pos (by omega), if_neg near]

/-- From the upper half to the lower one the border is one further off. -/
theorem difference_down (rightWord : right < 2 ^ 64) (low : left < 2 ^ 63) (high : 2 ^ 63 ≤ right) :
    difference? left right =
      if (right : Int) - left ≤ 2 ^ 63 then none else some ((left : Int) - right + 2 ^ 64) := by
  have around : (left : Int) - (right - 2 ^ 64) = left - right + 2 ^ 64 := by omega
  rw [difference_eq, signed_low left low, signed_high right high rightWord, around]
  by_cases near : (right : Int) - left ≤ 2 ^ 63
  · rw [if_neg (by omega), if_pos near]
  · rw [if_pos (by omega), if_neg near]

end Word

namespace Request

variable (request : Request)

theorem enlarges_iff :
    request.kind? = some .allocate ∨ request.kind? = some .grow ↔ request.old < request.new := by
  unfold kind?
  split_ifs <;> simp <;> omega

theorem lessens_iff :
    request.kind? = some .shrink ∨ request.kind? = some .free ↔ request.new < request.old := by
  unfold kind?
  split_ifs <;> simp <;> omega

/-- The signed change of a request of words. It agrees with the kind of the request while both sizes
are in the same half of the range. Across the halves it is absent or has the wrong sign, and a plan
that works it out fails where it is absent. -/
theorem delta_ranges (oldWord : request.old < 2 ^ 64) (newWord : request.new < 2 ^ 64) :
    let change : Int := request.new - request.old
    let enlarges := request.kind? = some .allocate ∨ request.kind? = some .grow
    let lessens := request.kind? = some .shrink ∨ request.kind? = some .free
    ((request.old < 2 ^ 63 ↔ request.new < 2 ^ 63) →
      request.delta? = some change ∧ (0 < change ↔ enlarges) ∧ (change < 0 ↔ lessens) ∧
        (change = 0 ↔ request.kind? = none)) ∧
    (request.old < 2 ^ 63 → 2 ^ 63 ≤ request.new →
      enlarges ∧
      request.delta? = (if change < 2 ^ 63 then none else some (change - 2 ^ 64)) ∧
      ∀ delta, request.delta? = some delta → delta < 0) ∧
    (2 ^ 63 ≤ request.old → request.new < 2 ^ 63 →
      lessens ∧
      request.delta? = (if -change ≤ 2 ^ 63 then none else some (change + 2 ^ 64)) ∧
      ∀ delta, request.delta? = some delta → 0 < delta) ∧
    (request.delta? = none → ∀ acts call notice, notice.request = request →
      (Plan.weighing acts).acts call notice = [.fail .differenceOverflow]) := by
  intro change enlarges lessens
  have enlarging : enlarges ↔ request.old < request.new := request.enlarges_iff
  have lessening : lessens ↔ request.new < request.old := request.lessens_iff
  refine ⟨fun alike => ?_, fun low high => ?_, fun high low => ?_, ?_⟩
  · have exact : request.delta? = some change := Word.difference_alike newWord oldWord alike.symm
    refine ⟨exact, ?_, ?_, ?_⟩
    · rw [enlarging]
      omega
    · rw [lessening]
      omega
    · rw [request.kind?_eq_none]
      omega
  · have wrapped : request.delta? = if change < 2 ^ 63 then none else some (change - 2 ^ 64) :=
      Word.difference_up newWord high low
    refine ⟨enlarging.mpr (by omega), wrapped, fun delta weighed => ?_⟩
    rw [wrapped] at weighed
    split_ifs at weighed
    cases weighed
    omega
  · have wrapped : request.delta? = if -change ≤ 2 ^ 63 then none else some (change + 2 ^ 64) := by
      have same : -change = (request.old : Int) - request.new := by omega
      rw [same]
      exact Word.difference_down oldWord low high
    refine ⟨lessening.mpr (by omega), wrapped, fun delta weighed => ?_⟩
    rw [wrapped] at weighed
    split_ifs at weighed
    cases weighed
    omega
  · rintro weighed acts call notice rfl
    rw [Plan.acts_weighing, weighed]
    rfl

/-- On both sides of each border: a step up and a step down that fail, the next ones, that come out
with the wrong sign, and one within the upper half. -/
theorem delta_ranges_borders :
    delta? ⟨1, 2 ^ 63⟩ = none ∧ delta? ⟨0, 2 ^ 63⟩ = some (-2 ^ 63) ∧
      delta? ⟨2 ^ 63, 0⟩ = none ∧ delta? ⟨2 ^ 63 + 1, 0⟩ = some (2 ^ 63 - 1) ∧
      delta? ⟨2 ^ 63, 2 ^ 64 - 1⟩ = some (2 ^ 63 - 1) := by
  obtain ⟨-, upFails, -⟩ := delta_ranges ⟨1, 2 ^ 63⟩ (by decide) (by decide)
  obtain ⟨-, upWraps, -⟩ := delta_ranges ⟨0, 2 ^ 63⟩ (by decide) (by decide)
  obtain ⟨-, -, downFails, -⟩ := delta_ranges ⟨2 ^ 63, 0⟩ (by decide) (by decide)
  obtain ⟨-, -, downWraps, -⟩ := delta_ranges ⟨2 ^ 63 + 1, 0⟩ (by decide) (by decide)
  obtain ⟨alike, -⟩ := delta_ranges ⟨2 ^ 63, 2 ^ 64 - 1⟩ (by decide) (by decide)
  refine ⟨(upFails (by decide) (by decide)).2.1, (upWraps (by decide) (by decide)).2.1,
    (downFails (by decide) (by decide)).2.1, (downWraps (by decide) (by decide)).2.1,
    (alike (by decide)).1⟩

end Request

/-! ## The protocol

How hooks are to be called, as a protocol of happenings. A hook that is called leaves
the slot for the time of its call, so a request made in the call is told only where
the call has put in another hook; and what a hook is told it writes down at once.
-/

namespace Happening

def told? : Happening → Option (Nat × Notice)
  | counted notice (some hook) => some (hook, notice)
  | _ => none

def call? : Happening → Option (Nat × Notice)
  | noted hook (.seen notice _) => some (hook, notice)
  | _ => none

end Happening

mutual

/-- A request with this notice is served. The slot and the number of hooks that were made come
before the happenings and, as they are afterwards, after them. -/
inductive Served : Option Nat → Nat → Notice → List Happening → Option Nat → Nat → Prop
  | untold {made : Nat} {notice : Notice} : Served none made notice [.counted notice none] none made
  /-- The hook is back in the slot, unless its call left another one there. -/
  | returned {hook made later : Nat} {notice : Notice} {delta : Int} {inner : List Happening}
      {left : Option Nat} (weighed : notice.request.delta? = some delta)
      (inside : Inside hook none made inner left later)
      (calm : inner.filterMap Happening.refusal? = []) :
      Served (some hook) made notice
        (.counted notice (some hook) :: .noted hook (.seen notice delta) :: inner)
        (left.or (some hook)) later
  | failed {hook made later : Nat} {notice : Notice} {delta : Int} {inner : List Happening}
      {left : Option Nat} (weighed : notice.request.delta? = some delta)
      (inside : Inside hook none made inner left later) :
      Served (some hook) made notice
        (.counted notice (some hook) :: .noted hook (.seen notice delta) :: inner ++
          [.refused notice])
        left later

inductive Inside : Nat → Option Nat → Nat → List Happening → Option Nat → Nat → Prop
  | done {hook made : Nat} {slot : Option Nat} : Inside hook slot made [] slot made
  | noted {hook made later : Nat} {slot left : Option Nat} {entry : Entry} {rest : List Happening}
      (plain : (Happening.noted hook entry).call? = none) (more : Inside hook slot made rest left later) :
      Inside hook slot made (.noted hook entry :: rest) left later
  | zeroed {hook made later : Nat} {slot left : Option Nat} {rest : List Happening}
      (more : Inside hook slot made rest left later) :
      Inside hook slot made (.zeroed :: rest) left later
  | replaced {hook made later : Nat} {slot left : Option Nat} {rest : List Happening}
      (more : Inside hook (some made) (made + 1) rest left later) :
      Inside hook slot made (.noted hook (.replaced slot.isSome) :: rest) left later
  | asked {hook made between later : Nat} {slot middle left : Option Nat} {notice : Notice}
      {events rest : List Happening} (served : Served slot made notice events middle between)
      (more : Inside hook middle between rest left later) :
      Inside hook slot made (events ++ rest) left later

end

theorem Inside.trans {hook made between later : Nat} {slot middle left : Option Nat}
    {events rest : List Happening} :
    Inside hook slot made events middle between → Inside hook middle between rest left later →
      Inside hook slot made (events ++ rest) left later
  | .done, second => second
  | .noted plain more, second => .noted plain (more.trans second)
  | .zeroed more, second => .zeroed (more.trans second)
  | .replaced more, second => .replaced (more.trans second)
  | .asked served more, second => List.append_assoc _ _ _ ▸ .asked served (more.trans second)

def heir (slot : Option Nat) (made later : Nat) : Option Nat :=
  if made < later then some (later - 1) else slot

def Failed (hook : Nat) (events : List Happening) : Prop :=
  ∃ notice, (hook, notice) ∈ events.filterMap Happening.told? ∧ .refused notice ∈ events

/-- Every request that a hook is told of is logged once and in order, only the hook in the slot and
newer ones are told, and the slot is left to the newest hook, or empty if that one failed. -/
structure Orderly (slot : Option Nat) (made : Nat) (events : List Happening) (left : Option Nat)
    (later : Nat) : Prop where
  made_le : made ≤ later
  calls_eq : events.filterMap Happening.call? = events.filterMap Happening.told?
  told_among : ∀ call ∈ events.filterMap Happening.told?,
    slot = some call.1 ∨ made ≤ call.1 ∧ call.1 < later
  settled : left = heir slot made later ∨
    left = none ∧ ∃ hook, heir slot made later = some hook ∧ Failed hook events

theorem heir_self (slot : Option Nat) (made : Nat) : heir slot made made = slot :=
  if_neg (lt_irrefl made)

theorem heir_newer {slot : Option Nat} {made later : Nat} (more : made < later) :
    heir slot made later = some (later - 1) :=
  if_pos more

theorem heir_among {slot : Option Nat} {made later hook : Nat}
    (inherits : heir slot made later = some hook) :
    slot = some hook ∨ made ≤ hook ∧ hook < later := by
  unfold heir at inherits
  split at inherits
  · have newest := Option.some.inj inherits
    exact .inr ⟨by omega, by omega⟩
  · exact .inl inherits

theorem heir_heir (slot : Option Nat) {made between later : Nat} (early : made ≤ between)
    (late : between ≤ later) :
    heir (heir slot made between) between later = heir slot made later := by
  by_cases more : between < later
  · rw [heir_newer more, heir_newer (lt_of_le_of_lt early more)]
  · obtain rfl : between = later := Nat.le_antisymm late (Nat.not_lt.mp more)
    exact heir_self _ _

theorem Failed.mono {hook : Nat} {events whole : List Happening} (failed : Failed hook events)
    (part : events.Sublist whole) : Failed hook whole := by
  obtain ⟨notice, told, refused⟩ := failed
  exact ⟨notice, (part.filterMap _).subset told, part.subset refused⟩

theorem Orderly.left_among {slot left : Option Nat} {made later hook : Nat}
    {events : List Happening} (orderly : Orderly slot made events left later)
    (there : left = some hook) : slot = some hook ∨ made ≤ hook ∧ hook < later := by
  rcases orderly.settled with settled | ⟨vacant, -⟩
  · exact heir_among (settled.symm.trans there)
  · cases there.symm.trans vacant

theorem orderly_append {slot middle left : Option Nat} {made between later : Nat}
    {events rest : List Happening} (first : Orderly slot made events middle between)
    (second : Orderly middle between rest left later) :
    Orderly slot made (events ++ rest) left later := by
  have early := first.made_le
  have late := second.made_le
  refine ⟨early.trans late, ?_, ?_, ?_⟩
  · rw [List.filterMap_append, List.filterMap_append, first.calls_eq, second.calls_eq]
  · intro call member
    rw [List.filterMap_append] at member
    rcases List.mem_append.mp member with member | member
    · rcases first.told_among call member with there | ⟨lower, upper⟩
      · exact .inl there
      · exact .inr ⟨lower, upper.trans_le late⟩
    · rcases second.told_among call member with there | ⟨lower, upper⟩
      · rcases first.left_among there with before | ⟨lower, upper⟩
        · exact .inl before
        · exact .inr ⟨lower, upper.trans_le late⟩
      · exact .inr ⟨early.trans lower, upper⟩
  · have front := List.sublist_append_left events rest
    have back := List.sublist_append_right events rest
    by_cases more : between < later
    · -- The newest hook comes from the second part.
      rw [heir_newer (lt_of_le_of_lt early more)]
      have settled := second.settled
      rw [heir_newer more] at settled
      exact settled.imp id fun ⟨vacant, hook, newest, failed⟩ =>
        ⟨vacant, hook, newest, failed.mono back⟩
    · obtain rfl : between = later := Nat.le_antisymm late (Nat.not_lt.mp more)
      have settled := second.settled
      rw [heir_self] at settled
      rcases first.settled with before | ⟨vacant, hook, inherits, failed⟩
      · rw [before] at settled
        exact settled.imp id fun ⟨vacant, hook, inherits, failed⟩ =>
          ⟨vacant, hook, inherits, failed.mono back⟩
      · refine .inr ⟨?_, hook, inherits, failed.mono front⟩
        rcases settled with kept | ⟨vacantToo, -⟩
        · exact kept.trans vacant
        · exact vacantToo

theorem orderly_nil (slot : Option Nat) (made : Nat) : Orderly slot made [] slot made :=
  ⟨le_rfl, rfl, fun _ member => (by cases member), .inl (heir_self slot made).symm⟩

theorem orderly_cons {slot left : Option Nat} {made later : Nat} {happening : Happening}
    {rest : List Happening} (untold : happening.told? = none) (plain : happening.call? = none)
    (more : Orderly slot made rest left later) :
    Orderly slot made (happening :: rest) left later := by
  refine ⟨more.made_le, ?_, ?_, ?_⟩
  · rw [List.filterMap_cons_none untold, List.filterMap_cons_none plain]
    exact more.calls_eq
  · rw [List.filterMap_cons_none untold]
    exact more.told_among
  · exact more.settled.imp id fun ⟨vacant, hook, inherits, failed⟩ =>
      ⟨vacant, hook, inherits, failed.mono (List.sublist_cons_self _ _)⟩

theorem orderly_replaced {slot left : Option Nat} {made later : Nat} {rest : List Happening}
    (more : Orderly (some made) (made + 1) rest left later) :
    Orderly slot made rest left later := by
  have newer := more.made_le
  have same : heir slot made later = heir (some made) (made + 1) later := by
    unfold heir
    rw [if_pos (Nat.lt_of_succ_le newer)]
    split
    · rfl
    · congr 1
      omega
  refine ⟨by omega, more.calls_eq, ?_, same ▸ more.settled⟩
  intro call member
  rcases more.told_among call member with there | ⟨lower, upper⟩
  · have newest := Option.some.inj there
    exact .inr ⟨by omega, by omega⟩
  · exact .inr ⟨by omega, upper⟩

/-- A call as a whole, by what went on in it. -/
theorem orderly_called {hook made later : Nat} {left slot : Option Nat} {inner : List Happening}
    (notice : Notice) (delta : Int) (tail : List Happening)
    (inside : Orderly none made inner left later)
    (ended : tail.filterMap Happening.call? = [] ∧ tail.filterMap Happening.told? = [])
    (settled : slot = heir (some hook) made later ∨
      slot = none ∧ ∃ last, heir (some hook) made later = some last ∧
        Failed last (.counted notice (some hook) :: .noted hook (.seen notice delta) :: inner ++ tail)) :
    Orderly (some hook) made
      (.counted notice (some hook) :: .noted hook (.seen notice delta) :: inner ++ tail) slot
      later := by
  refine ⟨inside.made_le, ?_, ?_, settled⟩
  · simp only [List.cons_append, List.filterMap_cons, List.filterMap_append, Happening.call?,
      Happening.told?, ended.1, ended.2, inside.calls_eq]
  · intro call member
    simp only [List.cons_append, List.filterMap_cons, List.filterMap_append, Happening.told?,
      ended.2, List.append_nil] at member
    rcases List.mem_cons.mp member with same | member
    · exact .inl (congrArg (fun call => some call.1) same).symm
    · rcases inside.told_among call member with there | among
      · cases there
      · exact .inr among

theorem orderly_returned {hook made later : Nat} {left : Option Nat} {inner : List Happening}
    (notice : Notice) (delta : Int) (inside : Orderly none made inner left later)
    (calm : inner.filterMap Happening.refusal? = []) :
    Orderly (some hook) made
      (.counted notice (some hook) :: .noted hook (.seen notice delta) :: inner)
      (left.or (some hook)) later := by
  have settled : left.or (some hook) = heir (some hook) made later := by
    rcases inside.settled with settled | ⟨-, last, -, other, -, refused⟩
    · rw [settled]
      unfold heir
      split
      · rfl
      · rfl
    · cases List.filterMap_eq_nil_iff.mp calm _ refused
  have called := orderly_called notice delta [] inside ⟨rfl, rfl⟩ (.inl settled)
  rw [List.append_nil] at called
  exact called

theorem orderly_failed {hook made later : Nat} {left : Option Nat} {inner : List Happening}
    (notice : Notice) (delta : Int) (inside : Orderly none made inner left later) :
    Orderly (some hook) made
      (.counted notice (some hook) :: .noted hook (.seen notice delta) :: inner ++
        [.refused notice]) left later := by
  refine orderly_called notice delta [.refused notice] inside ⟨rfl, rfl⟩ ?_
  have settled := inside.settled
  by_cases more : made < later
  · rw [heir_newer more] at settled ⊢
    refine settled.imp id fun ⟨vacant, last, newest, failed⟩ => ⟨vacant, last, newest, ?_⟩
    exact failed.mono ((List.sublist_append_left _ _).trans
      ((List.sublist_cons_self _ _).trans (List.sublist_cons_self _ _)))
  · -- No other hook came, so the heir is the hook that failed itself.
    obtain rfl : made = later := Nat.le_antisymm inside.made_le (Nat.not_lt.mp more)
    rw [heir_self] at settled ⊢
    refine .inr ⟨?_, hook, rfl, notice, ?_, ?_⟩
    · rcases settled with vacant | ⟨vacant, -⟩
      · exact vacant
      · exact vacant
    · exact List.mem_cons_self
    · simp

mutual

theorem Served.orderly {slot left : Option Nat} {made later : Nat} {notice : Notice}
    {events : List Happening} :
    Served slot made notice events left later → Orderly slot made events left later
  | .untold => orderly_cons rfl rfl (orderly_nil none made)
  | .returned _ inside calm => orderly_returned _ _ inside.orderly calm
  | .failed _ inside => orderly_failed _ _ inside.orderly

theorem Inside.orderly {hook made later : Nat} {slot left : Option Nat}
    {events : List Happening} :
    Inside hook slot made events left later → Orderly slot made events left later
  | .done => orderly_nil slot made
  | .noted plain more => orderly_cons rfl plain more.orderly
  | .zeroed more => orderly_cons rfl rfl more.orderly
  | .replaced more => orderly_cons rfl rfl (orderly_replaced more.orderly)
  | .asked served more => orderly_append served.orderly more.orderly

end

/-- In a call that puts in no hook nobody is told of anything. -/
theorem Inside.silent {hook made : Nat} {left : Option Nat} {events : List Happening}
    (inside : Inside hook none made events left made) :
    left = none ∧ events.filterMap Happening.told? = [] := by
  have orderly := inside.orderly
  constructor
  · cases there : left with
    | none => rfl
    | some number =>
        rcases orderly.left_among there with before | ⟨lower, upper⟩
        · cases before
        · omega
  · apply List.eq_nil_iff_forall_not_mem.mpr
    intro call member
    rcases orderly.told_among call member with there | ⟨lower, upper⟩
    · cases there
    · omega

end MeteredChunk
