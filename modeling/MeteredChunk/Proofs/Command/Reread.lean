import MeteredChunk.Proofs.Command.Verdict
import MeteredChunk.Proofs.Value.Reread

/-!
Constants that are given to the command again as it prints them. Texts with commas between them
are taken apart as they were put together, each is read as the value nearest to it, and this is
printed as the one before.
-/

namespace MeteredChunk

theorem Value.toList_general (value : Value) : value.general.toList = value.generalChars :=
  String.toList_ofList

namespace Command

/-! ## Parts -/

def fed (values : List Value) : String := ",".intercalate (values.map Value.general)

theorem parts_fed {values : List Value} (filled : values ≠ []) :
    parts (fed values) = values.map Value.general := by
  have texts : (fed values).toList = [','].intercalate (values.map Value.generalChars) := by
    rw [fed, String.toList_intercalate, List.map_map]
    congr 1
    apply List.map_congr_left
    intro value _
    exact value.toList_general
  have plain : ∀ text ∈ values.map Value.generalChars, ',' ∉ text := by
    intro text member
    obtain ⟨value, -, rfl⟩ := List.mem_map.mp member
    exact Value.mark_generalChars ',' (by decide) (by decide) value
  rw [parts, texts, splitCommas, List.splitOn_intercalate ',' plain (by simpa using filled),
    List.map_map]
  rfl

/-! ## Numbers -/

theorem decimal?_first {body : List Char} {decimal : Decimal}
    (read : Numeral.decimal? body = some decimal) :
    ∃ first rest, body = first :: rest ∧ (first.isDigit = true ∨ first = '.') := by
  cases body with
  | nil => cases read
  | cons first rest =>
      refine ⟨first, rest, rfl, ?_⟩
      by_contra neither
      obtain ⟨digitless, point⟩ := not_or.mp neither
      have digit : first.isDigit = false := Bool.not_eq_true _ ▸ digitless
      have front : Numeral.splitFraction (first :: rest) = ([], first :: rest) := by
        unfold Numeral.splitFraction
        split
        · rename_i same
          exact absurd (List.cons.inj same).1 point
        · rfl
      unfold Numeral.decimal? at read
      simp [List.takeWhile, List.dropWhile, digit, front] at read

theorem toLower_digit {char : Char} (digit : char.isDigit = true ∨ char = '.') :
    char.toLower = char := by
  have small : char.val < 'A'.val := by
    rcases digit with digit | rfl
    · simp only [Char.isDigit, Bool.and_eq_true, decide_eq_true_eq] at digit
      exact UInt32.lt_of_le_of_lt digit.2 (by decide)
    · decide
  exact dif_neg fun upper => UInt32.not_lt.mpr upper.1 small

/-- A numeral is not the name of a value that is no finite number. -/
theorem value?_decimal {text : String} {decimal : Decimal}
    (read : Numeral.decimal? (Numeral.splitSign text.toList).2 = some decimal) :
    value? text = some (Value.ofMagnitude (Numeral.splitSign text.toList).1
      (Binary.bitsOfDecimal decimal)) := by
  obtain ⟨first, rest, body, digit⟩ := decimal?_first read
  have named (name : String) (letter : Char) (others : List Char)
      (spelled : name.toList = letter :: others) (other : letter.isDigit = false)
      (pointless : letter ≠ '.') :
      String.ofList ((Numeral.splitSign text.toList).2.map Char.toLower) ≠ name := by
    intro same
    have letters := congrArg String.toList same
    rw [String.toList_ofList, body, List.map_cons, spelled, toLower_digit digit] at letters
    have equal := (List.cons.inj letters).1
    rcases digit with digit | point
    · rw [equal, other] at digit
      cases digit
    · exact pointless (equal.symm.trans point)
  have inf := named "inf" 'i' ['n', 'f'] (by decide) (by decide) (by decide)
  have infinity := named "infinity" 'i' "nfinity".toList (by decide) (by decide) (by decide)
  have nan := named "nan" 'n' ['a', 'n'] (by decide) (by decide) (by decide)
  simp only [value?, inf, infinity, nan, read, or_self, if_false, Option.map_some]

/-- A numeral is read as the value that is nearest to its number. -/
theorem value?_nearest {text : String} {number : ℚ}
    (read : Numeral.value? text.toList = some number) :
    ∃ value, value? text = some value ∧ value.Nearest number := by
  unfold Numeral.value? at read
  obtain ⟨decimal, found, same⟩ := Option.map_eq_some_iff.mp read
  have exact : (if (Numeral.splitSign text.toList).1 then -1 else 1) * decimal.toRat = number := by
    rw [← same, Decimal.toRat, mul_assoc]
  refine ⟨_, value?_decimal found, exact ▸ Value.nearest_ofMagnitude _ ?_ ?_ ?_⟩
  · exact mul_nonneg (Nat.cast_nonneg _) (zpow_nonneg (by norm_num) _)
  · exact Binary.bitsOfDecimal_within decimal
  · exact fun other within => Binary.bitsOfDecimal_beats decimal within

/-! ## Constants -/

def Rereads (value again : Value) : Prop :=
  ∃ number, Numeral.value? value.generalChars = some number ∧ again.Nearest number

variable {values again : List Value}

theorem rereads_exist (normal : ∀ value ∈ values, value.Normal) :
    ∃ again, (values.map Value.general).mapM value? = some again ∧
      List.Forall₂ Rereads values again := by
  induction values with
  | nil => exact ⟨[], rfl, .nil⟩
  | cons value rest ih =>
      obtain ⟨here, others⟩ := List.forall_mem_cons.mp normal
      obtain ⟨behind, through, nearest⟩ := ih others
      have read := here.ordinary.value?_general here.ordinary.rounds
      obtain ⟨first, taken, near⟩ := value?_nearest (value.toList_general ▸ read)
      refine ⟨first :: behind, ?_, .cons ⟨_, read, near⟩ nearest⟩
      rw [List.map_cons, List.mapM_cons, taken, through]
      rfl

theorem rereads_general (normal : ∀ value ∈ values, value.Normal)
    (reread : List.Forall₂ Rereads values again) :
    again.map Value.general = values.map Value.general := by
  induction reread with
  | nil => rfl
  | cons first rest ih =>
      obtain ⟨here, others⟩ := List.forall_mem_cons.mp normal
      obtain ⟨number, read, nearest⟩ := first
      rw [List.map_cons, List.map_cons, ih others, Value.general, (here.reread read nearest).2.1,
        ← Value.general]

theorem constantsLine_general (same : again.map Value.general = values.map Value.general) :
    constantsLine again = constantsLine values := by
  have lengths := congrArg List.length same
  rw [List.length_map, List.length_map] at lengths
  have texts : again.map (fun value => " " ++ value.general) =
      values.map fun value => " " ++ value.general := by
    simpa [List.map_map, Function.comp_def] using congrArg (List.map (" " ++ ·)) same
  cases again with
  | nil =>
      rw [List.eq_nil_of_length_eq_zero lengths.symm]
  | cons first rest =>
      cases values with
      | nil => cases lengths
      | cons value others => simp only [constantsLine, texts]

theorem readArguments_constants (settings : Settings) (text : String) (rest : List String)
    (read : (parts text).mapM value? = some values) :
    readArguments settings ("--constants" :: text :: rest) =
      readArguments { settings with constants := settings.constants ++ values } rest := by
  have option : Argument.ofText "--constants" = .option .constants none := rfl
  conv_lhs => unfold readArguments
  simp only [option, Setting.takes, Setting.assign, read, if_true]
  rfl

/-! ## Runs -/

theorem execute_prints {settings : Settings} (plain : settings.json = false)
    (exit : (execute settings).exit = 0) :
    ∃ listing tail, (built settings).object.listing settings.listingTitle = .ok listing ∧
      (execute settings).output = listing ++ constantsLine settings.loaded ++ tail ∧
      (settings.stats = false → tail = "") := by
  cases execute_ends settings with
  | failed fails one => cases one.symm.trans exit
  | printed passes zero prints =>
      unfold Prints at prints
      rw [plain] at prints
      obtain ⟨listing, listed, output⟩ := prints
      refine ⟨listing, _, listed, output, fun quiet => ?_⟩
      rw [quiet]
      rfl

/-- With nothing but constants to load a run goes through, as long as they can be numbered. -/
theorem execute_loads (filled : values ≠ []) (few : values.length ≤ 256) :
    (execute { constants := values }).exit = 0 := by
  have loaded : Settings.loaded { constants := values } = values := if_neg filled
  have through : (built { constants := values }).answer = .ok (.ok ()) := by
    have first : (123 : UInt32).toNat = 123 := rfl
    have lines : UInt32.size = 2 ^ 32 := rfl
    have settled : (assemble values 123 [] { bounded := new_bounded }).answer = _ :=
      (assemble_settled values 123 [] rfl (by decide)).1
    rw [verdict_ok few (by omega)] at settled
    rw [built, loaded]
    exact settled
  cases execute_ends { constants := values } with
  | printed passes zero prints => exact zero
  | failed fails one =>
      rcases fails with unbuilt | ⟨asked, -⟩ | ⟨asked, -⟩
      · exact absurd through unbuilt
      · cases asked
      · cases asked

/-- The text of a normal value reads as a value that is finite, close to the first one, and written
alike. So constants that are given to the command as it prints them are printed the same way. -/
theorem constants_reread :
    (∀ value : Value, value.Normal → ∃ number, Numeral.value? value.generalChars = some number ∧
      (∃ again, value? value.general = some again ∧ again.Nearest number) ∧
      ∀ again : Value, again.Nearest number → again.Ordinary ∧
        again.generalChars = value.generalChars ∧
        |again.toRat - value.toRat| < 10 ^ (-5 : Int) * |value.toRat|) ∧
    ∀ values : List Value, values ≠ [] → (∀ value ∈ values, value.Normal) →
      ∃ again, List.Forall₂ Rereads values again ∧
        (∀ settings rest, readArguments settings ("--constants" :: fed values :: rest) =
          readArguments { settings with constants := settings.constants ++ again } rest) ∧
        (∀ settings : Settings, settings.loaded = values ∨ settings.loaded = again →
          settings.json = false → (execute settings).exit = 0 → ∃ listing tail,
            (built settings).object.listing settings.listingTitle = .ok listing ∧
              (execute settings).output = listing ++ constantsLine values ++ tail) ∧
        (values.length ≤ 256 → ∀ environment filter,
          LogFilter.choose? none environment 0 = some filter →
            let outcome := invoke ["--constants", fed values] environment
            outcome.exit = 0 ∧ ∃ listing, outcome.output = listing ++ constantsLine values) := by
  constructor
  · intro value normal
    have read := normal.ordinary.value?_general normal.ordinary.rounds
    exact ⟨_, read, value?_nearest (value.toList_general ▸ read), fun again => normal.reread read⟩
  · intro values filled normal
    obtain ⟨again, through, reread⟩ := rereads_exist normal
    have general := rereads_general normal reread
    have line := constantsLine_general general
    have taken (settings : Settings) (rest : List String) :=
      readArguments_constants settings (fed values) rest ((parts_fed filled).symm ▸ through)
    refine ⟨again, reread, taken, fun settings loads plain exit => ?_,
      fun few environment filter chosen => ?_⟩
    · obtain ⟨listing, tail, listed, output, -⟩ := execute_prints plain exit
      refine ⟨listing, tail, listed, ?_⟩
      rcases loads with same | same <;> rw [output, same]
      rw [line]
    · have length : again.length = values.length := by
        simpa using congrArg List.length general
      have filledToo : again ≠ [] := by
        rintro rfl
        exact filled (List.eq_nil_of_length_eq_zero length.symm)
      have exit := execute_loads filledToo (length ▸ few)
      obtain ⟨listing, tail, -, output, quiet⟩ := execute_prints rfl exit
      have loaded : Settings.loaded { constants := again } = again := if_neg filledToo
      rw [quiet rfl, String.append_empty, loaded, line] at output
      have read : readArguments {} ["--constants", fed values] = .ok { constants := again } :=
        taken {} []
      simp only [invoke, read, run, chosen]
      exact ⟨exit, listing, output⟩

/-- The least normal value is written as a number below it, and read as one that is not normal. -/
theorem constants_reread_least :
    let least : Value := ⟨0x0010000000000000⟩
    let below : Value := ⟨0x000FFFFE2E8159D0⟩
    least.Normal ∧ value? least.general = some below ∧ ¬ below.Normal ∧
      below.generalChars = least.generalChars ∧
      (invoke ["--constants", "2.22507e-308"] none).exit = 0 ∧
      ∃ listing, (invoke ["--constants", "2.22507e-308"] none).output =
        listing ++ ";; constants: 2.22507e-308\n" := by
  intro least below
  have magnitude : |least.toRat| = 2 ^ (-1022 : Int) := by
    have bits : least.magnitude = 2 ^ 52 := by decide
    have shape : Binary.ofBits (2 ^ 52) = ⟨2 ^ 52, -1074⟩ := rfl
    have significand : ((2 ^ 52 : Nat) : ℚ) = 2 ^ (52 : Int) := by norm_num
    rw [Value.abs_bits, bits, shape, Binary.toRat, significand, ← zpow_add₀ (by norm_num)]
    rfl
  have normal : least.Normal := ⟨by decide, magnitude.ge⟩
  have short : ¬ below.Normal := by
    intro normalToo
    have less := Binary.ofBits_strictMono (show below.magnitude < least.magnitude by decide)
    simp only [← Value.abs_bits, magnitude] at less
    exact absurd normalToo.full (not_le.mpr less)
  have general : least.general = "2.22507e-308" := by decide +kernel
  have read : value? "2.22507e-308" = some below := by decide +kernel
  obtain ⟨one, many⟩ := constants_reread
  obtain ⟨number, -, ⟨again, taken, nearest⟩, alike⟩ := one least normal
  cases (general ▸ taken).symm.trans read
  obtain ⟨-, -, -, -, printed⟩ := many [least] (List.cons_ne_nil _ _) (by simpa using normal)
  obtain ⟨exit, listing, output⟩ := printed (by decide) none _ rfl
  have argument : fed [least] = "2.22507e-308" := general
  have line : constantsLine [least] = ";; constants: 2.22507e-308\n" := by
    simp only [constantsLine, List.map_cons, List.map_nil, general]
    rfl
  rw [argument] at exit output
  rw [line] at output
  exact ⟨normal, general ▸ read, short, (alike _ nearest).2.1, exit, listing, output⟩

end Command

end MeteredChunk
