import MeteredChunk.Chunk.LineRuns
import MeteredChunk.Proofs.Chunk.Reading

/-!
The line runs of a chunk are the one way to write its lines down in runs that cannot be joined:
they fill the code from its beginning to its end, none is empty, and where one run ends the line
changes. Taken call by call they come one after the other, and then nothing comes.
-/

namespace MeteredChunk

namespace LineRun

def Holds (run : LineRun) (offset : Nat) : Prop := run.start ≤ offset ∧ offset < run.stop

def expand (run : LineRun) : List UInt32 := List.replicate (run.stop - run.start) run.line

/-- The runs fill the lines from an offset to the end: none is empty, all bytes of a run have its
line, and the next run has another one. -/
inductive Encodes (lines : List UInt32) : Nat → List LineRun → Prop
  | done : Encodes lines lines.length []
  | lay {run : LineRun} {rest : List LineRun} (filled : run.start < run.stop)
      (carried : ∀ offset, run.Holds offset → lines[offset]? = some run.line)
      (apart : ∀ next ∈ rest.head?, next.line ≠ run.line)
      (behind : Encodes lines run.stop rest) : Encodes lines run.start (run :: rest)

def call? (lines : List UInt32) (index : Nat) : Option (LineRun × Nat) :=
  lines[index]?.map fun line =>
    let stop := index + ((lines.drop index).takeWhile (· = line)).length
    (⟨index, stop, line⟩, stop)

variable {lines : List UInt32} {start offset : Nat} {run : LineRun} {runs : List LineRun}

namespace Encodes

theorem within (encodes : Encodes lines start runs) : start + runs.length ≤ lines.length := by
  induction encodes with
  | done => exact Nat.le_refl _
  | lay filled carried apart behind ih =>
      rw [List.length_cons]
      omega

theorem drop_run (inside : run.stop ≤ lines.length) (filled : run.start < run.stop)
    (carried : ∀ offset, run.Holds offset → lines[offset]? = some run.line) :
    lines.drop run.start = run.expand ++ lines.drop run.stop := by
  have front : (lines.drop run.start).take (run.stop - run.start) = run.expand := by
    apply List.ext_getElem
    · simp only [List.length_take, List.length_drop, LineRun.expand, List.length_replicate]
      omega
    · intro place early earlyToo
      rw [LineRun.expand, List.length_replicate] at earlyToo
      have here := carried (run.start + place) ⟨by omega, by omega⟩
      obtain ⟨there, same⟩ := List.getElem?_eq_some_iff.mp here
      simp [LineRun.expand, same]
  have back : (lines.drop run.start).drop (run.stop - run.start) = lines.drop run.stop := by
    rw [List.drop_drop]
    congr 1
    omega
  rw [← front, ← back, List.take_append_drop]

theorem expand (encodes : Encodes lines start runs) :
    runs.flatMap LineRun.expand = lines.drop start := by
  induction encodes with
  | done => rw [List.drop_length, List.flatMap_nil]
  | lay filled carried apart behind ih =>
      have inside := behind.within
      rw [List.flatMap_cons, ih, ← drop_run (by omega) filled carried]

theorem takeWhile_behind {line : UInt32} (encodes : Encodes lines start runs)
    (apart : ∀ next ∈ runs.head?, next.line ≠ line) :
    (lines.drop start).takeWhile (· = line) = [] := by
  cases encodes with
  | done => rw [List.drop_length, List.takeWhile_nil]
  | @lay first rest filled carried differ behind =>
      have other : first.line ≠ line := apart first rfl
      have here := carried first.start ⟨Nat.le_refl _, filled⟩
      obtain ⟨inside, same⟩ := List.getElem?_eq_some_iff.mp here
      rw [List.drop_eq_getElem_cons inside, same, List.takeWhile_cons_of_neg (by simpa using other)]

theorem takeWhile_run (inside : run.stop ≤ lines.length) (filled : run.start < run.stop)
    (carried : ∀ offset, run.Holds offset → lines[offset]? = some run.line)
    (apart : ∀ next ∈ runs.head?, next.line ≠ run.line) (behind : Encodes lines run.stop runs) :
    (lines.drop run.start).takeWhile (· = run.line) = run.expand := by
  have all : ∀ line ∈ run.expand, decide (line = run.line) = true := by
    intro line member
    exact decide_eq_true (List.eq_of_mem_replicate member)
  rw [drop_run inside filled carried, List.takeWhile_append_of_pos all,
    behind.takeWhile_behind apart, List.append_nil]

/-- The calls give the runs of any encoding, so there is no other one. -/
theorem gives (encodes : Encodes lines start runs) :
    Iteration.Gives (call? lines) start runs := by
  induction encodes with
  | done =>
      apply Iteration.Gives.done
      simp [call?]
  | @lay run rest filled carried apart behind ih =>
      have inside : run.stop ≤ lines.length := Nat.le_of_add_right_le behind.within
      have here := carried run.start ⟨Nat.le_refl _, filled⟩
      have onward : run.start + (run.stop - run.start) = run.stop := by omega
      apply Iteration.Gives.next _ ih
      simp only [call?, here, Option.map_some, takeWhile_run inside filled carried apart behind,
        LineRun.expand, List.length_replicate, onward]

theorem unique {others : List LineRun} (encodes : Encodes lines start runs)
    (encodesToo : Encodes lines start others) : others = runs :=
  encodes.gives.unique encodesToo.gives

theorem starts_within (encodes : Encodes lines start runs) (member : run ∈ runs) :
    start ≤ run.start := by
  induction encodes with
  | done => cases member
  | lay filled carried apart behind ih =>
      rcases List.mem_cons.mp member with rfl | later
      · exact Nat.le_refl _
      · exact Nat.le_trans (Nat.le_of_lt filled) (ih later)

theorem first_line (encodes : Encodes lines start runs) (member : run ∈ runs) :
    lines[run.start]? = some run.line := by
  induction encodes with
  | done => cases member
  | lay filled carried apart behind ih =>
      rcases List.mem_cons.mp member with rfl | later
      · exact carried _ ⟨Nat.le_refl _, filled⟩
      · exact ih later

theorem changes (encodes : Encodes lines start runs) (inside : start < lines.length)
    (last : lines[start - 1]? = some run.line) (apart : ∀ next ∈ runs.head?, next.line ≠ run.line) :
    lines[start - 1]? ≠ lines[start]? := by
  cases encodes with
  | done => exact absurd inside (Nat.lt_irrefl _)
  | @lay next rest filled carried differ behind =>
      have here := carried next.start ⟨Nat.le_refl _, filled⟩
      rw [last, here]
      intro same
      exact apart next rfl (Option.some.inj same).symm

/-- Runs begin at the first offset and wherever the line is not the one before. -/
theorem starts_iff (encodes : Encodes lines start runs) (above : start ≤ offset)
    (inside : offset < lines.length) :
    (∃ run ∈ runs, run.start = offset) ↔
      offset = start ∨ lines[offset - 1]? ≠ lines[offset]? := by
  induction encodes with
  | done => exact absurd inside (Nat.not_lt.mpr above)
  | @lay run rest filled carried apart behind ih =>
      by_cases first : offset = run.start
      · simp [first]
      by_cases within : offset < run.stop
      · -- Inside the run nothing begins, and the line before is its own.
        have here := carried offset ⟨above, within⟩
        have before := carried (offset - 1) ⟨by omega, by omega⟩
        have missed : ∀ next ∈ run :: rest, next.start ≠ offset := by
          intro next member
          rcases List.mem_cons.mp member with rfl | later
          · exact Ne.symm first
          · have bound := behind.starts_within later
            omega
        apply iff_of_false
        · rintro ⟨next, member, starts⟩
          exact missed next member starts
        · simp [first, here, before]
      · have beyond : run.stop ≤ offset := Nat.not_lt.mp within
        have later := ih beyond
        have stop : offset = run.stop → lines[offset - 1]? ≠ lines[offset]? := by
          rintro rfl
          exact behind.changes inside (carried _ ⟨by omega, by omega⟩) apart
        constructor
        · rintro ⟨next, member, starts⟩
          rcases List.mem_cons.mp member with rfl | among
          · exact absurd starts.symm first
          · rcases later.mp ⟨next, among, starts⟩ with last | differ
            · exact .inr (stop last)
            · exact .inr differ
        · rintro (starts | differ)
          · exact absurd starts first
          · obtain ⟨next, among, starts⟩ := later.mpr (.inr differ)
            exact ⟨next, List.mem_cons_of_mem _ among, starts⟩

theorem widen (here : lines[start]? = some run.line)
    (encodes : Encodes lines (start + 1) (run :: runs)) :
    Encodes lines start (⟨start, run.stop, run.line⟩ :: runs) := by
  generalize starts : start + 1 = second at encodes
  cases encodes with
  | lay filled carried apart behind =>
      have nonempty : start < run.stop := by omega
      refine @lay _ ⟨start, run.stop, run.line⟩ _ nonempty ?_ apart behind
      rintro offset ⟨low, high⟩
      by_cases first : offset = start
      · rw [first]
        exact here
      · have later : start ≤ offset := low
        exact carried offset ⟨by omega, high⟩

theorem single {line : UInt32} (here : lines[start]? = some line)
    (apart : ∀ next ∈ runs.head?, next.line ≠ line) (encodes : Encodes lines (start + 1) runs) :
    Encodes lines start (⟨start, start + 1, line⟩ :: runs) := by
  refine @lay _ ⟨start, start + 1, line⟩ _ (Nat.lt_succ_self _) ?_ apart encodes
  rintro offset ⟨low, high⟩
  obtain rfl : offset = start := Nat.le_antisymm (Nat.le_of_lt_succ high) low
  exact here

end Encodes

/-- By induction on the lines that are left, which are the last ones of all. -/
theorem ofLines_encodes (front back : List UInt32) :
    Encodes (front ++ back) front.length (ofLines front.length back) := by
  induction back generalizing front with
  | nil =>
      rw [ofLines, List.append_nil]
      exact .done
  | cons line rest ih =>
      have here : (front ++ line :: rest)[front.length]? = some line := by simp
      have behind := ih (front ++ [line])
      rw [List.append_assoc, List.singleton_append, List.length_append, List.length_singleton]
        at behind
      rw [ofLines]
      cases runs : ofLines (front.length + 1) rest with
      | nil =>
          rw [runs] at behind
          exact behind.single here (by simp)
      | cons run others =>
          rw [runs] at behind
          by_cases same : run.line = line
          · subst same
            simp only [if_true]
            exact behind.widen here
          · simp only [same, if_false]
            exact behind.single here (by simpa using same)

end LineRun

namespace Chunk

def lineRunCalls (chunk : Chunk) (count : Nat) : Except Fault (List (Option LineRun)) :=
  return Iteration.calls (LineRun.call? (← chunk.lines)) 0 count

variable {chunk : Chunk}

theorem lineRuns_intact (intact : chunk.Intact) :
    chunk.lineRuns = .ok (LineRun.ofLines 0 chunk.contents.lines) := by
  rw [lineRuns, lines_intact intact]
  rfl

theorem contents_encodes (chunk : Chunk) :
    LineRun.Encodes chunk.contents.lines 0 (LineRun.ofLines 0 chunk.contents.lines) :=
  LineRun.ofLines_encodes [] chunk.contents.lines

/-- The line runs are the only encoding of the lines. The iterator gives them one by one, and then
nothing. -/
theorem lineRuns_canonical (chunk : Chunk) (intact : chunk.Intact) :
    ∃ lines runs, chunk.lines = .ok lines ∧ lines.length = chunk.size ∧
      chunk.lineRuns = .ok runs ∧ LineRun.Encodes lines 0 runs ∧
      runs.flatMap LineRun.expand = lines ∧
      (∀ others, LineRun.Encodes lines 0 others → others = runs) ∧
      runs.length ≤ chunk.size ∧
      ∀ count, chunk.lineRunCalls count =
        .ok ((runs.map some ++ List.replicate count none).take count) := by
  have encodes := chunk.contents_encodes
  have size : chunk.contents.lines.length = chunk.size :=
    (Contents.length_lines _).trans (size_contents intact)
  refine ⟨_, _, lines_intact intact, size, lineRuns_intact intact, encodes, encodes.expand,
    fun others => encodes.unique, ?_, fun count => ?_⟩
  · have within := encodes.within
    omega
  · rw [lineRunCalls, lines_intact intact, ← encodes.gives.calls]
    rfl

def returning : Chunk := { code := ⟨#[⟨0, 1⟩, ⟨9, 1⟩, ⟨1, 2⟩, ⟨1, 1⟩, ⟨0, 0⟩], 4⟩ }

theorem lineRuns_canonical_returning :
    returning.Intact ∧ returning.lineRuns = .ok [⟨0, 2, 1⟩, ⟨2, 3, 2⟩, ⟨3, 4, 1⟩] ∧
      returning.lineRunCalls 5 =
        .ok [some ⟨0, 2, 1⟩, some ⟨2, 3, 2⟩, some ⟨3, 4, 1⟩, none, none] := by
  have intact : returning.Intact := ⟨by decide, by decide⟩
  have runs : returning.lineRuns = .ok [⟨0, 2, 1⟩, ⟨2, 3, 2⟩, ⟨3, 4, 1⟩] := rfl
  obtain ⟨lines, others, -, -, iterated, -, -, -, -, calls⟩ := lineRuns_canonical returning intact
  cases runs.symm.trans iterated
  exact ⟨intact, runs, calls 5⟩

end Chunk

end MeteredChunk
