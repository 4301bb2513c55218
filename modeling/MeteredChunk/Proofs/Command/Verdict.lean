import MeteredChunk.Proofs.Chunk.Validation
import MeteredChunk.Proofs.Command.Assembly

/-!
How a run of the command ends. What is built before the raw bytes is a program that loads
no constant beyond the pool, so it is for the raw bytes alone to be decoded or validated.
A run fails on the first check that it is asked for and that fails, with nothing printed;
otherwise it prints all of it. Nobody watches its heap, so freeing goes through.
-/

namespace MeteredChunk

namespace Chunk

variable {chunk : Chunk} {heap : Heap} {units : List CodeUnit} {values : List Value} {ceiling : Nat}

theorem free_settled (settled : chunk.Settled units values ceiling heap) :
    (chunk.free heap).answer = .ok () := by
  have granted := freeing_granted chunk heap.ceiling settled.holds.smallCode
    settled.holds.smallConstants
  rw [← hold_freeing, Dialogue.hold_vacant _ settled.vacant, granted.1]

theorem bytes_holds (holds : chunk.Holds units values) :
    chunk.contents.bytes = units.map CodeUnit.byte :=
  congrArg (List.map CodeUnit.byte) holds.units_eq

end Chunk

namespace Command

def opening (count : Nat) : List Phrase :=
  (List.range count).map (fun number => .load (UInt8.ofNat number)) ++ [.ret]

theorem program_bytes (first count : Nat) (raw : List UInt8) :
    (program first count raw).map CodeUnit.byte = (opening count).flatMap Phrase.encode ++ raw := by
  have loaded : (loads first count).map CodeUnit.byte =
      (List.range count).flatMap fun number => [0, UInt8.ofNat number] := by
    rw [loads, List.map_flatMap]
    rfl
  have behind (line : UInt32) : (raw.map (CodeUnit.mk · line)).map CodeUnit.byte = raw := by
    rw [List.map_map]
    exact List.map_id raw
  rw [program_eq, prologue, List.map_append, List.map_append, behind, loaded, opening,
    List.flatMap_append, List.flatMap_map]
  rfl

theorem opening_within {count : Nat} (few : count ≤ 256) : Phrase.Within count (opening count) := by
  intro index member
  rcases List.mem_append.mp member with loaded | last
  · obtain ⟨number, below, load⟩ := List.mem_map.mp loaded
    have inside := List.mem_range.mp below
    rw [← Phrase.load.inj load, UInt8.toNat_ofNat', Nat.mod_eq_of_lt (by omega)]
    exact inside
  · cases List.mem_singleton.mp last

section Raw
variable {chunk : Chunk} {first : Nat} {values : List Value} {raw : List UInt8}

theorem raw_decodes (holds : chunk.Holds (program first values.length raw) values) :
    (∃ instructions, chunk.decode = .ok (.ok instructions)) ↔
      ∃ phrases : List Phrase, raw = phrases.flatMap Phrase.encode := by
  rw [Chunk.decodes_iff holds.intact, Chunk.bytes_holds holds, program_bytes]
  simp only [Phrase.encode_behind]
  constructor
  · rintro ⟨-, phrases, -, spelled⟩
    exact ⟨phrases, spelled⟩
  · rintro ⟨phrases, spelled⟩
    exact ⟨_, phrases, rfl, spelled⟩

theorem raw_validates (holds : chunk.Holds (program first values.length raw) values)
    (few : values.length ≤ 256) :
    chunk.validate = .ok (.ok ()) ↔
      ∃ phrases : List Phrase, raw = phrases.flatMap Phrase.encode ∧
        Phrase.Within values.length phrases := by
  have count : chunk.constants.size = values.length := (Chunk.reads_holds holds).constantCount_eq
  rw [Chunk.validates_iff holds.intact, Chunk.bytes_holds holds, program_bytes, count]
  simp only [Phrase.encode_behind]
  constructor
  · rintro ⟨-, ⟨phrases, rfl, spelled⟩, within⟩
    exact ⟨phrases, spelled, fun index member => within index (List.mem_append_right _ member)⟩
  · rintro ⟨phrases, spelled, within⟩
    refine ⟨_, ⟨phrases, rfl, spelled⟩, fun index member => ?_⟩
    rcases List.mem_append.mp member with before | behind
    · exact opening_within few index before
    · exact within index behind

end Raw

theorem new_bounded : 1 <<< 60 ≤ 1 <<< 63 := by decide

def built (settings : Settings) : Effect Chunk (Except AssemblyFault Unit) :=
  assemble settings.loaded settings.firstLine settings.raw { bounded := new_bounded }

def Fails (settings : Settings) : Prop :=
  (built settings).answer ≠ .ok (.ok ()) ∨
    settings.verify = true ∧ (built settings).object.validate ≠ .ok (.ok ()) ∨
    settings.json = true ∧
      ¬ ∃ instructions, (built settings).object.decode = .ok (.ok instructions)

/-- What is printed of a chunk, with the counters before and after freeing. -/
def Prints (settings : Settings) (chunk : Chunk) (before after : Counters) (output : String) :
    Prop :=
  if settings.json then
    ∃ instructions, chunk.decode = .ok (.ok instructions) ∧
      output = (report settings.listingTitle chunk.size settings.loaded instructions before).pretty 0
        ++ "\n"
  else
    ∃ listing, chunk.listing settings.listingTitle = .ok listing ∧
      output = listing ++ constantsLine settings.loaded ++
        if settings.stats then heapLine "built" before ++ heapLine "freed" after else ""

section Stages
variable {settings : Settings} {chunk : Chunk} {units : List CodeUnit} {heap : Heap}

theorem verify_ok (settings : Settings) (chunk : Chunk) :
    (∃ marks, verify settings chunk = .ok marks) ↔
      (settings.verify = true → chunk.validate = .ok (.ok ())) := by
  unfold verify contained
  cases settings.verify with
  | false => simp [pure, Except.pure]
  | true =>
      rcases chunk.validate with fault | fault | ⟨⟩ <;>
        simp [bind, Except.bind, pure, Except.pure, Except.mapError]

theorem present_json (json : settings.json = true) (counters : Counters)
    (holds : chunk.Holds units settings.loaded) :
    present settings chunk counters =
      match chunk.contents.instructions.mapM id with
      | .error fault => .error (.undecodable fault)
      | .ok instructions =>
          .ok ((report settings.listingTitle chunk.size settings.loaded instructions counters).pretty
            0 ++ "\n") := by
  have constants := (Chunk.reads_holds holds).constants_eq
  unfold present contained
  rw [constants, Chunk.decode_intact holds.intact, json]
  cases chunk.contents.instructions.mapM id <;> rfl

theorem present_listing (plain : settings.json = false) (counters : Counters)
    (holds : chunk.Holds units settings.loaded) :
    present settings chunk counters =
      .ok (Row.listing settings.listingTitle chunk.contents.rows ++ constantsLine settings.loaded ++
        if settings.stats then heapLine "built" counters else "") := by
  have constants := (Chunk.reads_holds holds).constants_eq
  unfold present contained
  rw [constants, Chunk.listing_intact holds.intact, plain]
  rfl

/-- What is shown and the last line are all that is to be printed, and only decoding can fail. -/
theorem present_prints (counters : Counters) (holds : chunk.Holds units settings.loaded) :
    ((∃ failure, present settings chunk counters = .error failure) ∧ settings.json = true ∧
        ¬ ∃ instructions, chunk.decode = .ok (.ok instructions)) ∨
      ∃ shown, present settings chunk counters = .ok shown ∧
        (settings.json = true → ∃ instructions, chunk.decode = .ok (.ok instructions)) ∧
        ∀ after, Prints settings chunk counters after
          (shown ++ if settings.stats && !settings.json then heapLine "freed" after else "") := by
  cases json : settings.json with
  | false =>
      have shown := present_listing json counters holds
      refine .inr ⟨_, shown, fun asked => (by cases asked), fun after => ?_⟩
      rw [Prints, json]
      refine ⟨_, Chunk.listing_intact holds.intact _, ?_⟩
      cases settings.stats <;> simp [String.append_assoc]
  | true =>
      have shown := present_json json counters holds
      have decoding := Chunk.decode_intact holds.intact
      cases decoded : chunk.contents.instructions.mapM id with
      | error fault =>
          rw [decoded] at shown decoding
          refine .inl ⟨⟨_, shown⟩, rfl, ?_⟩
          rintro ⟨instructions, through⟩
          cases decoding.symm.trans through
      | ok instructions =>
          rw [decoded] at shown decoding
          refine .inr ⟨_, shown, fun _ => ⟨_, decoding⟩, fun after => ?_⟩
          rw [Prints, json]
          refine ⟨_, decoding, ?_⟩
          simp

theorem finish_freed {events : List Event} {shown : String}
    (freed : (chunk.free heap).answer = .ok ()) :
    (finish settings events shown chunk heap).exit = 0 ∧
      (finish settings events shown chunk heap).output = shown ++
        if settings.stats && !settings.json then heapLine "freed" (chunk.free heap).heap.counters
        else "" := by
  constructor <;> simp only [finish, freed]

end Stages

inductive Ends (settings : Settings) : Execution → Prop
  | failed {execution : Execution} (fails : Fails settings) (exit : execution.exit = 1)
      (output : execution.output = "") : Ends settings execution
  | printed {execution : Execution} (passes : ¬ Fails settings) (exit : execution.exit = 0)
      (prints : Prints settings (built settings).object (built settings).heap.counters
        ((built settings).object.free (built settings).heap).heap.counters execution.output) :
      Ends settings execution

theorem execute_unbuilt (settings : Settings)
    (unbuilt : (built settings).answer ≠ .ok (.ok ())) : Ends settings (execute settings) := by
  have answer : (execute settings).exit = 1 ∧ (execute settings).output = "" := by
    unfold built at unbuilt
    cases answered : (assemble settings.loaded settings.firstLine settings.raw {}).answer with
    | error fault =>
        simp only [execute, answered]
        exact ⟨rfl, rfl⟩
    | ok verdict =>
        cases verdict with
        | error fault =>
            simp only [execute, answered]
            exact ⟨rfl, rfl⟩
        | ok done => exact absurd answered unbuilt
  exact .failed (.inl unbuilt) answer.1 answer.2

/-- A run with a chunk is a check, a presentation and a freeing, in this order. -/
theorem execute_built (settings : Settings) (through : (built settings).answer = .ok (.ok ())) :
    Ends settings (execute settings) := by
  obtain ⟨-, ceiling, settled⟩ := assemble_passes settings.loaded settings.firstLine settings.raw
    rfl (by decide) through
  have checked := verify_ok settings (built settings).object
  have listed := present_prints (built settings).heap.counters settled.holds
  have freed := Chunk.free_settled settled
  have answered := through
  unfold built at answered
  cases verified : verify settings (built settings).object with
  | error failure =>
      rw [verified] at checked
      have invalid := Classical.not_imp.mp (mt checked.mpr (by simp))
      have answer : (execute settings).exit = 1 ∧ (execute settings).output = "" := by
        unfold built at verified
        simp only [execute, answered, verified]
        exact ⟨rfl, rfl⟩
      exact .failed (.inr (.inl invalid)) answer.1 answer.2
  | ok marks =>
      have valid := checked.mp ⟨marks, verified⟩
      unfold built at verified
      rcases listed with ⟨⟨failure, hidden⟩, undecoded⟩ | ⟨shown, presented, decoded, prints⟩
      · have answer : (execute settings).exit = 1 ∧ (execute settings).output = "" := by
          unfold built at hidden
          simp only [execute, answered, verified, hidden]
          exact ⟨rfl, rfl⟩
        exact .failed (.inr (.inr undecoded)) answer.1 answer.2
      · unfold built at presented
        refine .printed ?_ ?_ ?_
        · rintro (unbuilt | ⟨asked, invalid⟩ | ⟨asked, undecoded⟩)
          · exact unbuilt through
          · exact invalid (valid asked)
          · exact undecoded (decoded asked)
        · simp only [execute, answered, verified, presented]
          exact (finish_freed freed).1
        · simp only [execute, answered, verified, presented]
          rw [(finish_freed freed).2]
          exact prints _

theorem execute_ends (settings : Settings) : Ends settings (execute settings) := by
  by_cases through : (built settings).answer = .ok (.ok ())
  · exact execute_built settings through
  · exact execute_unbuilt settings through

theorem execute_passes {settings : Settings} (zero : (execute settings).exit = 0) :
    ¬ Fails settings := by
  cases execute_ends settings with
  | failed fails exit output => cases zero.symm.trans exit
  | printed passes exit prints => exact passes

/-- The built code is decoded and validated exactly if the raw bytes are a program, for validation
one that loads no constant beyond the pool. A run exits with one, and prints nothing, exactly if
what it is asked for fails; otherwise it exits with zero and prints all of it. The command does as
the run, unless setting up its log panics, which comes before everything else. -/
theorem run_verdict (settings : Settings) :
    let chunk := (built settings).object
    let before := (built settings).heap
    let count := settings.loaded.length
    let execution := execute settings
    ((built settings).answer = .ok (.ok ()) →
      (chunk.validate = .ok (.ok ()) ↔ ∃ phrases : List Phrase,
        settings.raw = phrases.flatMap Phrase.encode ∧ Phrase.Within count phrases) ∧
      ((∃ instructions, chunk.decode = .ok (.ok instructions)) ↔ ∃ phrases : List Phrase,
        settings.raw = phrases.flatMap Phrase.encode) ∧
      (settings.raw = [] → chunk.validate = .ok (.ok ()) ∧
        ∃ instructions, chunk.decode = .ok (.ok instructions))) ∧
    (execution.exit = 1 ↔ Fails settings) ∧
    (execution.exit = 1 → execution.output = "") ∧
    (execution.exit ≠ 1 → execution.exit = 0 ∧
      Prints settings chunk before.counters (chunk.free before).heap.counters execution.output) ∧
    ∀ arguments environment, readArguments {} arguments = .ok settings →
      let chosen := LogFilter.choose? settings.filter environment settings.verbosity
      let outcome := invoke arguments environment
      (chosen = none → outcome.exit = 101 ∧ outcome.output = "") ∧
        (chosen ≠ none → outcome.exit = execution.exit ∧ outcome.output = execution.output) := by
  intro chunk before count execution
  have ends : Ends settings execution := execute_ends settings
  refine ⟨fun through => ?_, ?_, ?_, ?_, fun arguments environment read => ?_⟩
  · obtain ⟨few, ceiling, settled⟩ := assemble_passes settings.loaded settings.firstLine
      settings.raw rfl (by decide) through
    have validates := raw_validates settled.holds few
    have decodes := raw_decodes settled.holds
    refine ⟨validates, decodes, fun nothing => ?_⟩
    exact ⟨validates.mpr ⟨[], nothing, fun index member => by cases member⟩,
      decodes.mpr ⟨[], nothing⟩⟩
  · cases ends with
    | failed fails exit output => exact ⟨fun _ => fails, fun _ => exit⟩
    | printed passes exit prints =>
        rw [exit]
        exact ⟨fun same => (by cases same), fun fails => absurd fails passes⟩
  · intro one
    cases ends with
    | failed fails exit output => exact output
    | printed passes exit prints => cases one.symm.trans exit
  · intro other
    cases ends with
    | failed fails exit output => exact absurd exit other
    | printed passes exit prints => exact ⟨exit, prints⟩
  · intro chosen outcome
    have ran : outcome = run settings environment := by simp only [outcome, invoke, read]
    rw [ran]
    cases choice : chosen with
    | none =>
        have panicked : run settings environment = ⟨101, "", []⟩ := by
          simp only [run, show LogFilter.choose? _ _ _ = none from choice]
        rw [panicked]
        exact ⟨fun _ => ⟨rfl, rfl⟩, fun other => absurd rfl other⟩
    | some filter =>
        refine ⟨fun same => (by cases same), fun _ => ?_⟩
        rw [run, show LogFilter.choose? _ _ _ = some filter from choice]
        exact ⟨rfl, rfl⟩

theorem run_verdict_sample :
    let fine : Settings := { raw := [0, 0, 1], verify := true }
    let beyond : Settings := { raw := [0, 1], verify := true }
    (execute fine).exit = 0 ∧
      (∃ instructions, (built beyond).object.decode = .ok (.ok instructions)) ∧
      (invoke ["--raw", "0,1", "--verify"] none).exit = 1 ∧
      (invoke ["--raw", "0,1", "--verify"] none).output = "" := by
  intro fine beyond
  have through : (built fine).answer = .ok (.ok ()) := rfl
  have throughToo : (built beyond).answer = .ok (.ok ()) := rfl
  have within : Phrase.Within fine.loaded.length [.load 0, .ret] := by
    intro index member
    rcases List.mem_cons.mp member with load | other
    · cases load
      decide
    · cases List.mem_singleton.mp other
  obtain ⟨accepts, fails, -, ends, -⟩ := run_verdict fine
  obtain ⟨acceptsToo, failsToo, silent, -, invoked⟩ := run_verdict beyond
  have valid := (accepts through).1.mpr
    ⟨[.load 0, .ret], rfl, within⟩
  have passes : ¬ Fails fine := by
    rintro (unbuilt | ⟨-, invalid⟩ | ⟨asked, -⟩)
    · exact unbuilt through
    · exact invalid valid
    · cases asked
  obtain ⟨validates, decodes, -⟩ := acceptsToo throughToo
  have one : (execute beyond).exit = 1 := by
    refine failsToo.mpr (.inr (.inl ⟨rfl, fun same => ?_⟩))
    obtain ⟨phrases, spelled, within⟩ := validates.mp same
    have only : phrases = [.load 1] := Phrase.encode_inj _ _ spelled.symm
    rw [only] at within
    exact absurd (within 1 List.mem_cons_self) (by decide)
  have run := (invoked ["--raw", "0,1", "--verify"] none rfl).2 (by decide)
  exact ⟨(ends (mt fails.mp passes)).1, decodes.mpr ⟨[.load 1], rfl⟩, run.1.trans one,
    run.2.trans (silent one)⟩

/-- The number of constants takes part in the verdict, and a failure is told on the error stream.
Setting up the log panics on a filter that is cut inside of a character, also where the run would
succeed. -/
theorem verdict_unsettled :
    ((invoke ["--raw", "0,1", "--verify"] none).exit = 1 ∧
      (invoke ["--raw", "0,1", "--verify"] none).log = ["error: chunk invalide: " ++
        "constant index 1 at offset 3 is out of range (pool has 1)"] ∧
      (invoke ["--raw", "0,1", "--verify", "--constants", "1,2"] none).exit = 0) ∧
    ∃ settings, readArguments {} ["-v", "--log=\u00a0[\x7ba=(b\x7d]"] = .ok settings ∧
      ¬ Fails settings ∧ (execute settings).exit = 0 ∧ (execute settings).output ≠ "" ∧
      (invoke ["-v", "--log=\u00a0[\x7ba=(b\x7d]"] none).exit = 101 ∧
      (invoke ["-v", "--log=\u00a0[\x7ba=(b\x7d]"] none).output = "" ∧
      ¬ ∀ arguments environment settings, readArguments {} arguments = .ok settings →
        ¬ Fails settings → (invoke arguments environment).exit = 0 := by
  have read : readArguments {} ["-v", "--log=\u00a0[\x7ba=(b\x7d]"] =
      .ok { filter := some "\u00a0[\x7ba=(b\x7d]", verbosity := 1 } := rfl
  have panicked : (invoke ["-v", "--log=\u00a0[\x7ba=(b\x7d]"] none).exit = 101 := by
    decide +kernel
  have fine : ¬ Fails { filter := some "\u00a0[\x7ba=(b\x7d]", verbosity := 1 } :=
    execute_passes (by decide +kernel)
  refine ⟨⟨by decide +kernel, by decide +kernel, by decide +kernel⟩, _, read, fine,
    by decide +kernel, by decide +kernel, panicked, by decide +kernel, fun claimed => ?_⟩
  exact absurd (panicked.symm.trans (claimed _ none _ read fine)) (by decide)

end Command

end MeteredChunk
