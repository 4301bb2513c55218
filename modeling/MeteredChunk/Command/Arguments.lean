import MeteredChunk.Value

/-!
What a run of the command is asked for, and reading it from the arguments.
-/

namespace MeteredChunk.Command

/-! ## Lists

Lists on the command line are texts with commas between their parts. A text
without a comma is one part, and so is the empty text.
-/

def splitCommas (text : List Char) : List (List Char) := text.splitOn ','

def parts (text : String) : List String := (splitCommas text.toList).map String.ofList

/-! ## Settings

What a run of the command is asked for, and how the texts of its options read.
-/

structure Settings where
  constants : List Value := []
  line : Option UInt32 := none
  raw : List UInt8 := []
  title : Option String := none
  json : Bool := false
  stats : Bool := false
  verify : Bool := false
  filter : Option String := none
  verbosity : Nat := 0

namespace Settings

def firstLine (settings : Settings) : UInt32 := settings.line.getD 123

def listingTitle (settings : Settings) : String := settings.title.getD "test chunk"

/-- Without constants the sample is loaded. -/
def loaded (settings : Settings) : List Value :=
  if settings.constants = [] then [⟨0x3FF3333333333333⟩] else settings.constants

end Settings

/-- A number that reads as the nearest value, or the name of one beyond the finite ones. -/
def value? (text : String) : Option Value :=
  let (negative, body) := Numeral.splitSign text.toList
  let name := String.ofList (body.map Char.toLower)
  let magnitude :=
    if name = "inf" ∨ name = "infinity" then some Binary.infinityBits
    else if name = "nan" then some (Binary.infinityBits + 1 <<< 51)
    else (Numeral.decimal? body).map Binary.bitsOfDecimal
  magnitude.map (Value.ofMagnitude negative)

/-- A whole number below the limit; minus zero is one. -/
def below? (limit : Nat) (text : String) : Option Nat :=
  match Numeral.int? text.toList with
  | some n => if 0 ≤ n ∧ n < limit then some n.toNat else none
  | none => none

/-! ## Arguments

Reading the command's arguments. They are taken from left to right, and the
first that is wrong, or that asks for help or for the version, settles the
outcome. Options take a value, attached by an equals sign or as the next
argument; switches take none. Lists add up and `-v` counts; everything else
may be given once.
-/

inductive Stop where
  | help
  | version
  | misuse

inductive Setting where
  | constants
  | line
  | raw
  | name
  | log

inductive Switch where
  | json
  | stats
  | verify
  | verbose
  | help
  | version

namespace Setting

def ofName? : String → Option Setting
  | "constants" => some constants
  | "line" => some line
  | "raw" => some raw
  | "name" => some name
  | "log" => some log
  | _ => none

/-- Constants may start with a hyphen, and so take the next argument whatever it is. -/
def takes (setting : Setting) (argument : String) : Bool :=
  match setting, argument.toList with
  | constants, _ => true
  | _, '-' :: _ :: _ => false
  | _, _ => true

def once {α : Type} (current : Option α) (next : Option α) : Except Stop (Option α) :=
  match current, next with
  | none, some value => .ok (some value)
  | _, _ => .error .misuse

def assign (settings : Settings) (value : String) : Setting → Except Stop Settings
  | constants =>
      match (parts value).mapM value? with
      | some values => .ok { settings with constants := settings.constants ++ values }
      | none => .error .misuse
  | raw =>
      match (parts value).mapM (below? UInt8.size) with
      | some bytes => .ok { settings with raw := settings.raw ++ bytes.map UInt8.ofNat }
      | none => .error .misuse
  | line =>
      (once settings.line ((below? UInt32.size value).map UInt32.ofNat)).map
        fun line => { settings with line }
  | name => (once settings.title (some value)).map fun title => { settings with title }
  | log => (once settings.filter (some value)).map fun filter => { settings with filter }

end Setting

namespace Switch

def ofName? : String → Option Switch
  | "json" => some json
  | "stats" => some stats
  | "verify" => some verify
  | "verbose" => some verbose
  | "help" => some help
  | "version" => some version
  | _ => none

def ofLetter? : Char → Option Switch
  | 'v' => some verbose
  | 'h' => some help
  | 'V' => some version
  | _ => none

def turn (settings : Settings) : Switch → Except Stop Settings
  | json => if settings.json then .error .misuse else .ok { settings with json := true }
  | stats => if settings.stats then .error .misuse else .ok { settings with stats := true }
  | verify => if settings.verify then .error .misuse else .ok { settings with verify := true }
  | verbose => .ok { settings with verbosity := settings.verbosity + 1 }
  | help => .error .help
  | version => .error .version

def turnAll (settings : Settings) : List Char → Except Stop Settings
  | [] => .ok settings
  | letter :: rest =>
      match ofLetter? letter with
      | some switch => (switch.turn settings).bind (turnAll · rest)
      | none => .error .misuse

end Switch

inductive Argument where
  | option (setting : Setting) (value : Option String)
  | switch (switch : Switch)
  | letters (letters : List Char)
  /-- Two hyphens: what follows is no option, and nothing else is expected. -/
  | endOfOptions
  | unexpected

namespace Argument

def long (body : List Char) : Argument :=
  let name := String.ofList (body.takeWhile (· ≠ '='))
  let attached := match body.dropWhile (· ≠ '=') with
    | [] => none
    | _ :: value => some (String.ofList value)
  match Setting.ofName? name, Switch.ofName? name, attached with
  | some setting, _, value => .option setting value
  | none, some toggle, none => .switch toggle
  | _, _, _ => .unexpected

def ofText (text : String) : Argument :=
  match text.toList with
  | ['-', '-'] => .endOfOptions
  | '-' :: '-' :: body => long body
  | '-' :: first :: rest => .letters (first :: rest)
  | _ => .unexpected

end Argument

def readArguments (settings : Settings) : List String → Except Stop Settings
  | [] => .ok settings
  | text :: rest =>
      match Argument.ofText text, rest with
      | .option setting (some value), rest =>
          (setting.assign settings value).bind (readArguments · rest)
      | .option _ none, [] => .error .misuse
      | .option setting none, value :: rest =>
          if setting.takes value then (setting.assign settings value).bind (readArguments · rest)
          else .error .misuse
      | .switch switch, rest => (switch.turn settings).bind (readArguments · rest)
      | .letters letters, rest => (Switch.turnAll settings letters).bind (readArguments · rest)
      | .endOfOptions, [] => .ok settings
      | .endOfOptions, _ :: _ => .error .misuse
      | .unexpected, _ => .error .misuse

end MeteredChunk.Command
