import MeteredChunk.Command.Arguments
import MeteredChunk.Text.Pattern

/-!
The log of the command: its levels, its events, and the filters that choose which of
them are shown.
-/

namespace MeteredChunk.Command

/-! ## Levels

Levels of a log. An event has one, and what is shown is chosen by them: a level
admits the events of its own and of every lower rank.
-/

inductive Level where
  | off
  | error
  | warn
  | info
  | debug
  | trace
  deriving DecidableEq

namespace Level

def rank : Level → Nat
  | off => 0
  | error => 1
  | warn => 2
  | info => 3
  | debug => 4
  | trace => 5

def admits (level other : Level) : Bool := Nat.ble other.rank level.rank

def ofRank? : Nat → Option Level
  | 0 => some off
  | 1 => some error
  | 2 => some warn
  | 3 => some info
  | 4 => some debug
  | 5 => some trace
  | _ => none

def ofName? (name : String) : Option Level :=
  match name with
  | "off" => some off
  | "error" => some error
  | "warn" => some warn
  | "info" => some info
  | "debug" => some debug
  | "trace" => some trace
  | _ => none

def withoutPlus : List Char → List Char
  | '+' :: digits => digits
  | digits => digits

def ofText? (text : List Char) : Option Level :=
  ofName? (String.ofList (text.map Char.toLower)) <|>
    (Numeral.nat? (withoutPlus text)).bind ofRank?

/-- Right-aligned, as log lines start. -/
def label : Level → String
  | off => "  OFF"
  | error => "ERROR"
  | warn => " WARN"
  | info => " INFO"
  | debug => "DEBUG"
  | trace => "TRACE"

def ofVerbosity : Nat → Level
  | 0 => warn
  | 1 => info
  | 2 => debug
  | _ => trace

end Level

/-! ## Events

What a run of the command tells its log.
-/

inductive Event where
  | reallocated (notice : Notice)
  | built (bytes constants : Nat)
  | validated
  | freeing (bytes constants : Nat)

namespace Event

def level : Event → Level
  | reallocated _ => .trace
  | built _ _ => .info
  | validated | freeing _ _ => .debug

def target : Event → String
  | reallocated _ => "sable::memory"
  | built _ _ | validated => "sable"
  | freeing _ _ => "sable::chunk"

/-- The names of its fields; the message is one of them. -/
def fields : Event → List String
  | reallocated _ => ["message", "kind", "old_size", "new_size", "live"]
  | built _ _ | freeing _ _ => ["message", "bytes", "constants"]
  | validated => ["message"]

def message : Event → String
  | reallocated notice =>
      s!"reallocate kind={notice.kind.name} old_size={notice.request.old}" ++
        s!" new_size={notice.request.new} live={notice.counters.live}"
  | built bytes constants => s!"chunk built bytes={bytes} constants={constants}"
  | validated => "chunk validated"
  | freeing bytes constants => s!"free chunk bytes={bytes} constants={constants}"

def line (event : Event) : String :=
  event.level.label ++ " " ++ event.target ++ ": " ++ event.message

def since (earlier later : Heap) : List Event :=
  (later.history.toList.drop earlier.history.size).filterMap fun
    | .counted notice _ => some (reallocated notice)
    | _ => none

end Event

/-! ## Directives

Directives of a log filter. One names a target, a span and one of its fields
between brackets, and a level; each of these may be left out, but not all. The
marks between them are found in the text without the blanks around it, while the
parts are cut at the same places out of the text with its blanks. Where such a
place is inside a character, reading breaks down.
-/

structure Directive where
  /-- Empty for every target. -/
  target : List Char
  /-- Empty where no field is asked for. -/
  field : List Char
  /-- Whether a span, or the value of a field in one, is asked for. -/
  spanned : Bool
  level : Level

inductive DirectiveFault where
  | malformed
  /-- A part would begin or end inside a character. -/
  | splitCharacter
  deriving DecidableEq

structure Unread where
  /-- What of the text without blanks follows; marks are looked for here. -/
  marks : List Char
  /-- The whole text with its blanks. -/
  text : List Char
  /-- How many bytes of the text without blanks are passed. -/
  place : Nat

namespace Unread

def ofText (text : List Char) : Unread := ⟨Text.trim text, text, 0⟩

def advance (unread : Unread) (count : Nat) : Unread :=
  { unread with
    marks := unread.marks.drop count
    place := unread.place + Text.byteLength (unread.marks.take count) }

def find (unread : Unread) (marks : List Char) : Unread :=
  unread.advance (unread.marks.takeWhile (!marks.contains ·)).length

def part (parted : Option (List Char)) : Except DirectiveFault (List Char) :=
  match parted with
  | some part => .ok part
  | none => .error .splitCharacter

def upTo (unread later : Unread) : Except DirectiveFault (List Char) :=
  part (Text.cut unread.text unread.place later.place)

def rest (unread : Unread) : Except DirectiveFault (List Char) :=
  part (Text.dropBytes unread.place unread.text)

end Unread

namespace Directive

def orMalformed {α : Type} (read : Option α) : Except DirectiveFault α :=
  match read with
  | some result => .ok result
  | none => .error .malformed

/-- An equals sign with nothing behind it leaves the level open. -/
def levelPart (unread : Unread) : Except DirectiveFault Level := do
  let text ← unread.rest
  if text = [] then return .trace
  else orMalformed (Level.ofText? text)

def afterBrackets (unread : Unread) : Except DirectiveFault Level :=
  match unread.marks with
  | [] => .ok .trace
  | '=' :: _ => levelPart (unread.advance 1)
  | _ => .error .malformed

def isValue (text : List Char) : Bool :=
  (value? (String.ofList text)).isSome || Pattern.wellFormed text

/-- The name of a field, and whether its value is asked for. What follows a second equals sign
does not count. -/
def field? (text : List Char) : Option (List Char × Bool) :=
  let name := text.takeWhile (· ≠ '=')
  match text.dropWhile (· ≠ '=') with
  | [] => if text = [] then none else some (name, false)
  | _ :: rest => if isValue (rest.takeWhile (· ≠ '=')) then some (name, true) else none

/-- A field between braces, which close in front of the closing bracket. -/
def braces (target : List Char) (spanned : Bool) (unread : Unread) :
    Except DirectiveFault Directive := do
  let closing := unread.find ['}']
  if closing.marks = [] then .error .malformed
  else
    let (field, valued) ← orMalformed (field? (← unread.upTo closing))
    match closing.marks with
    | _ :: ']' :: _ =>
        return ⟨target, field, spanned || valued, ← afterBrackets (closing.advance 2)⟩
    | _ => .error .malformed

/-- A span's name, which may be empty where no field follows. -/
def brackets (target : List Char) (unread : Unread) : Except DirectiveFault Directive := do
  let mark := unread.find [']', '{']
  match mark.marks with
  | [] => .error .malformed
  | '{' :: _ => braces target ((← unread.upTo mark) ≠ []) (mark.advance 1)
  | _ =>
      let _ ← unread.upTo mark
      return ⟨target, [], true, ← afterBrackets (mark.advance 1)⟩

/-- A level alone is for all targets, and a target alone is for all levels. -/
def word (text : List Char) : Directive :=
  match Level.ofText? text with
  | some level => ⟨[], [], false, level⟩
  | none => ⟨text, [], false, .trace⟩

def startsTarget (c : Char) : Bool :=
  Text.isLetterOrNumber c || c = '-' || c = ':' || c = '_'

def targeted (unread : Unread) : Except DirectiveFault Directive := do
  let mark := unread.find ['=', '[']
  match mark.marks with
  | [] => return word unread.text
  | '[' :: _ => brackets (← unread.upTo mark) (mark.advance 1)
  | _ => return ⟨← unread.upTo mark, [], false, ← levelPart (mark.advance 1)⟩

def ofText (text : List Char) : Except DirectiveFault Directive :=
  let unread := Unread.ofText text
  match unread.marks with
  | [] => .error .malformed
  | first :: _ =>
      if first = '[' then brackets [] (unread.advance 1)
      else if startsTarget first then targeted unread
      else .error .malformed

end Directive

/-! ## Filters

Log filters. A filter is a list of directives. Of those that concern an event the
most specific decides whether it is shown; where none does, it is not.
-/

namespace Directive

/-- A directive is for the targets that start with its own, and for events that have its field.
No event happens in a span. -/
def concerns (directive : Directive) (event : Event) : Bool :=
  !directive.spanned && directive.target.isPrefixOf event.target.toList &&
    (directive.field = [] || (event.fields.map String.toList).contains directive.field)

/-- The longer target is the more specific; for one target it is the greater field, no field
being the least. -/
def yieldsTo (directive other : Directive) : Bool :=
  directive.target.length < other.target.length ||
    directive.target.length = other.target.length &&
      String.ofList directive.field ≤ String.ofList other.field

end Directive

structure LogFilter where
  directives : List Directive

namespace LogFilter

def ofLevel (level : Level) : LogFilter := ⟨[⟨[], [], false, level⟩]⟩

/-- Empty directives are passed over; the first that cannot be read spoils the filter. -/
def ofText (text : String) : Except DirectiveFault LogFilter :=
  (((splitCommas text.toList).filter (· ≠ [])).mapM Directive.ofText).map LogFilter.mk

/-- Of equally specific directives the later one decides. -/
def decider? (filter : LogFilter) (event : Event) : Option Directive :=
  (filter.directives.filter (·.concerns event)).foldl
    (fun best directive =>
      if best.all (·.yieldsTo directive) then some directive else best) none

def shows (filter : LogFilter) (event : Event) : Bool :=
  (filter.decider? event).any (·.level.admits event.level)

def ofTextOr (text : Option String) (other : Option LogFilter) : Option LogFilter :=
  match text.map ofText with
  | some (.ok filter) => some filter
  | some (.error .splitCharacter) => none
  | _ => other

/-- The given filter, else that of the environment, else the level of the verbosity. -/
def choose? (given environment : Option String) (verbosity : Nat) : Option LogFilter :=
  ofTextOr given (ofTextOr environment (some (ofLevel (.ofVerbosity verbosity))))

end LogFilter

end MeteredChunk.Command
