import MeteredChunk.Chunk.Instruction
import MeteredChunk.Chunk.Listing
import MeteredChunk.Command.LogFilter

/-!
A run of the command.
-/

namespace MeteredChunk.Command

/-! ## Assembly

The program that the command builds: one load for each constant, each on a line
of its own, then a return on the last of these lines, then bytes taken as they
are. Lines are 32-bit words and operands are bytes, so there is an end to both.
-/

inductive AssemblyFault where
  | lineOutOfRange
  | constantNumber (number : Nat)
  deriving DecidableEq

namespace AssemblyFault

def message : AssemblyFault → String
  | lineOutOfRange => "numéro de ligne hors limites"
  | constantNumber number =>
      s!"l'index de constante {number} ne tient pas sur un octet (max 255)" ++
        ": number too large to fit in target type"

end AssemblyFault

def assembleLoads (next last : Nat) :
    List Value → Chunk → Heap → Effect Chunk (Except AssemblyFault Nat)
  | [], chunk, heap => .done (.ok last) chunk heap
  | value :: rest, chunk, heap =>
      if UInt32.size ≤ next then .done (.error .lineOutOfRange) chunk heap
      else
        (chunk.addConstant value heap).andThen fun number chunk heap =>
          if UInt8.size ≤ number then .done (.error (.constantNumber number)) chunk heap
          else
            let line := UInt32.ofNat next
            (chunk.writeOpcode .constant line heap).andThen fun _ chunk heap =>
              (chunk.writeByte (UInt8.ofNat number) line heap).andThen fun _ chunk heap =>
                assembleLoads (next + 1) next rest chunk heap

def assemble (values : List Value) (firstLine : UInt32) (raw : List UInt8) (heap : Heap) :
    Effect Chunk (Except AssemblyFault Unit) :=
  (assembleLoads firstLine.toNat firstLine.toNat values {} heap).andThen fun answer chunk heap =>
    match answer with
    | .error fault => .done (.error fault) chunk heap
    | .ok last =>
        let line := UInt32.ofNat last
        (chunk.writeOpcode .ret line heap).andThen fun _ chunk heap =>
          (chunk.write (raw.map (CodeUnit.mk · line)) heap).map .ok

/-! ## Runs

A run of the command: assemble a chunk, look at it, free it. What is printed
comes out only if all of it succeeds. The heap's history feeds the log. The chunk
of a run that fails is given up, so its storage is freed too.
-/

inductive Failure where
  | assembly (fault : AssemblyFault)
  | invalid (fault : CodeFault)
  | undecodable (fault : CodeFault)
  | heap (fault : Fault)

namespace Failure

def message : Failure → String
  | assembly fault => fault.message
  | invalid fault => "chunk invalide: " ++ fault.message
  | undecodable fault => "décodage des instructions: " ++ fault.message
  | heap fault => fault.message

end Failure

structure Outcome where
  exit : Nat
  output : String
  log : List String

def report (title : String) (size : Nat) (constants : List Value)
    (instructions : List Instruction) (counters : Counters) : Json :=
  .record
    [("name", .text title), ("bytes", .integer size),
      ("constants", .list (constants.map Value.toJson)),
      ("instructions", .list (instructions.map Instruction.toJson)),
      ("heap", counters.toJson)]

def constantsLine : List Value → String
  | [] => ""
  | values => ";; constants:" ++ String.join (values.map fun value => " " ++ value.general) ++ "\n"

def heapLine (stage : String) (counters : Counters) : String :=
  ";; heap (" ++ stage ++ "): " ++ counters.summary ++ "\n"

def contained {α : Type} (answer : Except Fault α) : Except Failure α := answer.mapError .heap

def present (settings : Settings) (chunk : Chunk) (counters : Counters) : Except Failure String := do
  let constants ← contained chunk.constants.items
  if settings.json then
    let instructions ← (← contained chunk.decode).mapError .undecodable
    return (report settings.listingTitle chunk.size constants instructions counters).pretty 0 ++ "\n"
  else
    let listing ← contained (chunk.listing settings.listingTitle)
    return listing ++ constantsLine constants ++
      if settings.stats then heapLine "built" counters else ""

def verify (settings : Settings) (chunk : Chunk) : Except Failure (List Event) := do
  if settings.verify then
    (← contained chunk.validate).mapError .invalid
    return [.validated]
  else return []

def sizes (event : Nat → Nat → Event) (chunk : Chunk) : Event :=
  event chunk.size chunk.constants.size

/-- What a run does: its exit code and output, the events on the way, and the lines that are
said after them whatever the filter. -/
structure Execution where
  exit : Nat
  output : String
  events : List Event
  closing : List String

/-- A run that fails: the chunk goes, and the failure is said last. -/
def abandon (events : List Event) (chunk : Chunk) (heap : Heap) (failure : Failure) : Execution :=
  ⟨1, "", events ++ Event.since heap (chunk.discard heap).2, ["error: " ++ failure.message]⟩

def finish (settings : Settings) (events : List Event) (shown : String) (chunk : Chunk)
    (heap : Heap) : Execution :=
  let freed := chunk.free heap
  let events := events ++ sizes .freeing chunk :: Event.since heap freed.heap
  match freed.answer with
  | .error fault => abandon events freed.object freed.heap (.heap fault)
  | .ok () =>
      let last := if settings.stats && !settings.json then
        heapLine "freed" freed.heap.counters else ""
      ⟨0, shown ++ last, events, []⟩

def execute (settings : Settings) : Execution :=
  let built := assemble settings.loaded settings.firstLine settings.raw {}
  let requests := Event.since {} built.heap
  match built.answer with
  | .error fault => abandon requests built.object built.heap (.heap fault)
  | .ok (.error fault) => abandon requests built.object built.heap (.assembly fault)
  | .ok (.ok ()) =>
      let events := requests ++ [sizes .built built.object]
      match verify settings built.object with
      | .error failure => abandon events built.object built.heap failure
      | .ok marks =>
          match present settings built.object built.heap.counters with
          | .error failure => abandon (events ++ marks) built.object built.heap failure
          | .ok shown => finish settings (events ++ marks) shown built.object built.heap

/-- The log filter is set up first. Where that panics the run exits with 101 and does nothing else;
the text of the panic is left out. -/
def run (settings : Settings) (environment : Option String) : Outcome :=
  match LogFilter.choose? settings.filter environment settings.verbosity with
  | none => ⟨101, "", []⟩
  | some filter =>
      let execution := execute settings
      let shown := execution.events.filter filter.shows
      ⟨execution.exit, execution.output, shown.map Event.line ++ execution.closing⟩

def usage : String :=
  "Sable — construit, désassemble et inspecte un chunk de bytecode\n\n" ++
  "Usage: sable [OPTIONS]\n\n" ++
  "Options:\n" ++
  "      --constants <CONSTANTS>  " ++
    "Constantes à charger, une instruction OP_CONSTANT chacune (défaut : 1.2)\n" ++
  "      --line <LINE>            " ++
    "Ligne source de la première instruction (les suivantes s'incrémentent) [default: 123]\n" ++
  "      --raw <RAW>              " ++
    "Octets bruts ajoutés après OP_RETURN (pour exercer --verify)\n" ++
  "      --name <NAME>            Titre du listing [default: \"test chunk\"]\n" ++
  "      --json                   " ++
    "Sortie JSON (instructions décodées + comptabilité du tas)\n" ++
  "      --stats                  " ++
    "Affiche la comptabilité du tas après construction puis après libération\n" ++
  "      --verify                 Valide le chunk (opcodes, opérandes, index de constantes)\n" ++
  "      --log <LOG>              Filtre de traces (syntaxe `RUST_LOG`), prioritaire sur -v\n" ++
  "  -v, --verbose...             Augmente la verbosité (-v, -vv, -vvv)\n" ++
  "  -h, --help                   Print help\n" ++
  "  -V, --version                Print version\n"

/-- The whole command, from its arguments and the filter of its environment. The text about a misuse
is left out. -/
def invoke (arguments : List String) (environment : Option String) : Outcome :=
  match readArguments {} arguments with
  | .error .help => ⟨0, usage, []⟩
  | .error .version => ⟨0, "sable 0.1.0\n", []⟩
  | .error .misuse => ⟨2, "", []⟩
  | .ok settings => run settings environment

end MeteredChunk.Command
