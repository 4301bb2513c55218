import MeteredChunk.Proofs.Session.Conservation
import Mathlib.Data.List.DropRight
import Mathlib.Order.Bounds.Basic

/-!
The high-water mark over every run.
-/

namespace MeteredChunk

/-! ## Peaks of a heap

The high-water mark of a meter. The history of a heap tells its meter at every moment: it
starts at zero, moves with each request that is counted, and is back at zero where it was
zeroed. The mark is the highest reading since then, whoever made the request and whatever
became of it.
-/

namespace Happening

def meter (before : Counters) : Happening → Counters
  | counted notice _ => before.account notice.kind notice.request
  | zeroed => {}
  | _ => before

def reading? : Happening → Option Nat
  | counted notice _ => some notice.counters.live
  | _ => none

end Happening

namespace Heap

def meterAfter (past : List Happening) : Counters := past.foldl Happening.meter {}

def readingsAfter (past : List Happening) : List Nat :=
  (past.rtakeWhile fun happening => !happening.isZeroing).filterMap Happening.reading?

/-- Every notice has the meter as it was right after its request was counted. -/
def Witnessed (history : List Happening) : Prop :=
  ∀ past notice told, past ++ [.counted notice told] <+: history →
    notice.counters = meterAfter (past ++ [.counted notice told])

structure Metered (heap : Heap) : Prop where
  read : heap.counters = meterAfter heap.history.toList
  witnessed : Witnessed heap.history.toList

section Moments
variable {past : List Happening} {happening : Happening}

theorem meterAfter_concat (past : List Happening) (happening : Happening) :
    meterAfter (past ++ [happening]) = happening.meter (meterAfter past) := by
  simp only [meterAfter, List.foldl_append, List.foldl_cons, List.foldl_nil]

theorem readingsAfter_concat (past : List Happening) (happening : Happening) :
    readingsAfter (past ++ [happening]) =
      if happening.isZeroing then [] else readingsAfter past ++ happening.reading?.toList := by
  unfold readingsAfter
  rw [List.rtakeWhile_concat]
  cases happening <;> simp [Happening.isZeroing, Happening.reading?]

theorem witnessed_nil : Witnessed [] := by
  intro past notice told early
  cases List.append_eq_nil_iff.mp (List.prefix_nil.mp early) with
  | intro _ absurd => cases absurd

theorem Witnessed.before {history : List Happening} (witnessed : Witnessed history)
    (early : past <+: history) : Witnessed past :=
  fun earlier notice told before => witnessed earlier notice told (before.trans early)

theorem witnessed_concat (witnessed : Witnessed past)
    (truthful : ∀ notice told, happening = .counted notice told →
      notice.counters = happening.meter (meterAfter past)) :
    Witnessed (past ++ [happening]) := by
  intro earlier notice told early
  rcases List.prefix_concat_iff.mp early with whole | before
  · obtain ⟨-, last⟩ := List.append_inj' whole rfl
    rw [whole, meterAfter_concat]
    exact truthful notice told (List.singleton_inj.mp last).symm
  · exact witnessed earlier notice told before

end Moments

section Lasting
variable {heap : Heap}

theorem Metered.happens (metered : heap.Metered) {after : Heap} {happening : Happening}
    (longer : after.history.toList = heap.history.toList ++ [happening])
    (moved : after.counters = happening.meter heap.counters)
    (truthful : ∀ notice told, happening = .counted notice told →
      notice.counters = after.counters) :
    after.Metered := by
  constructor
  · rw [longer, meterAfter_concat, ← metered.read]
    exact moved
  · rw [longer]
    apply witnessed_concat metered.witnessed
    intro notice told same
    rw [← metered.read, ← moved]
    exact truthful notice told same

theorem metered_lasting : Lasting Metered where
  accounts _ metered := metered.happens (history_remember _ _) rfl fun notice told same => by
    cases same
    rfl
  writes _ _ metered := metered.happens (history_remember _ _) rfl fun _ _ same => by cases same
  refuses _ metered := metered.happens (history_remember _ _) rfl fun _ _ same => by cases same
  installs _ metered := ⟨metered.read, metered.witnessed⟩
  enlists _ metered := ⟨metered.read, metered.witnessed⟩
  vacates metered := ⟨metered.read, metered.witnessed⟩
  resets metered := metered.happens (history_remember _ _) rfl fun _ _ same => by cases same

end Lasting

section Peaks

/-- No happening but a zeroing lowers the mark. -/
theorem peak_le_meter (before : Counters) (happening : Happening)
    (kept : happening.isZeroing = false) : before.peak ≤ (happening.meter before).peak := by
  cases happening with
  | counted notice told =>
      rw [Happening.meter, Counters.peak_account]
      exact le_max_left _ _
  | noted hook entry => exact le_rfl
  | refused notice => exact le_rfl
  | zeroed => cases kept

theorem peak_mono (past since : List Happening)
    (kept : ∀ happening ∈ since, happening.isZeroing = false) :
    (meterAfter past).peak ≤ (meterAfter (past ++ since)).peak := by
  induction since generalizing past with
  | nil => rw [List.append_nil]
  | cons happening rest ih =>
      obtain ⟨first, others⟩ := List.forall_mem_cons.mp kept
      have one := peak_le_meter (meterAfter past) happening first
      rw [← meterAfter_concat] at one
      rw [List.append_cons]
      exact one.trans (ih _ others)

theorem live_le_peak (past : List Happening) :
    (meterAfter past).live ≤ (meterAfter past).peak := by
  induction past using List.reverseRecOn with
  | nil => exact le_rfl
  | append_singleton past happening ih =>
      rw [meterAfter_concat]
      cases happening with
      | counted notice told =>
          rw [Happening.meter, Counters.peak_account]
          exact le_max_right _ _
      | noted hook entry => exact ih
      | refused notice => exact ih
      | zeroed => exact le_rfl

/-- The mark is the greatest of zero and the readings since the meter was zeroed last. -/
theorem peak_greatest (past : List Happening) (witnessed : Witnessed past) :
    IsGreatest {reading | reading = 0 ∨ reading ∈ readingsAfter past} (meterAfter past).peak := by
  -- On the past from its end: a new reading joins the others, or all of them are gone.
  have zero : IsGreatest {reading | reading = 0 ∨ reading ∈ ([] : List Nat)} 0 :=
    ⟨.inl rfl, fun reading member => by simpa using member⟩
  induction past using List.reverseRecOn with
  | nil => exact zero
  | append_singleton past happening ih =>
      have before := ih (witnessed.before (List.prefix_append _ _))
      rw [readingsAfter_concat]
      cases happening with
      | counted notice told =>
          have read : notice.counters = (meterAfter past).account notice.kind notice.request :=
            (witnessed past notice told List.prefix_rfl).trans (meterAfter_concat _ _)
          have joined : {reading | reading = 0 ∨
              reading ∈ readingsAfter past ++ [notice.counters.live]} =
              insert notice.counters.live
                {reading | reading = 0 ∨ reading ∈ readingsAfter past} := by
            ext reading
            simp only [List.mem_append, List.mem_singleton, Set.mem_ofPred_eq, Set.mem_insert_iff]
            tauto
          rw [meterAfter_concat, Happening.meter, Counters.peak_account, ← read, max_comm]
          exact joined ▸ before.insert notice.counters.live
      | noted hook entry =>
          rw [meterAfter_concat]
          simpa [Happening.meter, Happening.reading?, Happening.isZeroing] using before
      | refused notice =>
          rw [meterAfter_concat]
          simpa [Happening.meter, Happening.reading?, Happening.isZeroing] using before
      | zeroed =>
          rw [meterAfter_concat]
          exact zero

end Peaks

end Heap

end MeteredChunk

namespace MeteredChunk.Session

/-! ## Peaks of a run

The high-water mark over every run. The history of a run has all its moments in it, those
between operations and those that only a hook could see: in the middle of a request, and
before a call that broke off.
-/

variable {κ : Type} [Kinds κ] {session : Session κ}

theorem fresh_metered (fresh : session.Fresh) : session.heap.Metered := by
  obtain ⟨zero, silent, -⟩ := fresh
  constructor
  · rw [zero, silent]
    rfl
  · rw [silent]
    exact Heap.witnessed_nil

theorem run_metered (fresh : session.Fresh) (operations : List (Operation κ)) :
    (session.run operations).2.heap.Metered :=
  run_lasting Heap.metered_lasting session operations (fresh_metered fresh)

/-- Between its operations a run is at moments of its history. -/
theorem history_early (session : Session κ) (early late : List (Operation κ)) :
    (session.run early).2.heap.history.toList <+:
      (session.run (early ++ late)).2.heap.history.toList := by
  rw [run_append]
  exact (run_later _ late).history_kept

/-- At every moment of every run, those inside of hook calls included, the peak is the greatest of
zero and the live bytes since the meter was zeroed last, and only zeroing lowers it. -/
theorem run_peaks (session : Session κ) (fresh : session.Fresh)
    (operations : List (Operation κ)) :
    let history := (session.run operations).2.heap.history.toList
    (∀ early late, early ++ late = operations →
      (session.run early).2.heap.history.toList <+: history ∧
        (session.run early).2.heap.counters =
          Heap.meterAfter (session.run early).2.heap.history.toList) ∧
      ∀ past, past <+: history →
        (Heap.meterAfter past).live ≤ (Heap.meterAfter past).peak ∧
        IsGreatest {reading | reading = 0 ∨ reading ∈ Heap.readingsAfter past}
          (Heap.meterAfter past).peak ∧
        (∀ earlier since, earlier ++ since = past →
          (∀ happening ∈ since, happening.isZeroing = false) →
            (Heap.meterAfter earlier).peak ≤ (Heap.meterAfter past).peak) ∧
        (∀ earlier notice told, earlier ++ [.counted notice told] = past →
          notice.counters = Heap.meterAfter past) := by
  intro history
  constructor
  · rintro early late rfl
    exact ⟨history_early session early late, (run_metered fresh early).read⟩
  · intro past moment
    have witnessed := (run_metered fresh operations).witnessed.before moment
    refine ⟨Heap.live_le_peak past, Heap.peak_greatest past witnessed, ?_, ?_⟩
    · rintro earlier since rfl kept
      exact Heap.peak_mono earlier since kept
    · rintro earlier notice told rfl
      exact witnessed earlier notice told List.prefix_rfl

def tides : List Operation :=
  [.installHook (.reenter 48), .edit ⟨.chunk, "main"⟩ (.write [⟨0, 1⟩]),
    .edit ⟨.pool, "main"⟩ (.add [⟨0⟩]), .edit ⟨.chunk, "main"⟩ .free, .installHook (.refuse 0),
    .edit ⟨.chunk, "main"⟩ (.write [⟨0, 1⟩])]

def ebb : List Operation :=
  [.takeHook, .resetCounters, .edit ⟨.pool, "main"⟩ (.add (List.replicate 8 ⟨0⟩)),
    .edit ⟨.pool, "main"⟩ .free]

theorem run_peaks_tides :
    let high := (({} : Session).run tides).2.heap
    let last := (({} : Session).run (tides ++ ebb)).2.heap
    Heap.readingsAfter high.history.toList = [64, 112, 64, 128, 176, 128, 64, 112, 64, 128] ∧
      high.counters.peak = 176 ∧
      (∀ reading ∈ Heap.readingsAfter high.history.toList, reading ≤ high.counters.peak) ∧
      Heap.readingsAfter last.history.toList = [128, 0] ∧ last.counters.peak = 128 ∧
      (∀ reading ∈ Heap.readingsAfter last.history.toList, reading ≤ last.counters.peak) := by
  obtain ⟨between, exact⟩ := run_peaks ({} : Session) ⟨rfl, rfl, rfl⟩ (tides ++ ebb)
  obtain ⟨moment, read⟩ := between tides ebb rfl
  obtain ⟨ended, readEnd⟩ := between (tides ++ ebb) [] (List.append_nil _)
  have first := (exact _ moment).2.1
  have second := (exact _ ended).2.1
  rw [← read] at first
  rw [← readEnd] at second
  refine ⟨by decide +kernel, by decide +kernel, fun reading since => first.2 (.inr since),
    by decide +kernel, by decide +kernel, fun reading since => second.2 (.inr since)⟩

end MeteredChunk.Session
