import MeteredChunk.Text.Basic

/-!
The patterns that a log filter may match a field with, and whether one is well formed.
-/

namespace MeteredChunk.Pattern

/-! ## Syntax trees

Patterns: regular expressions without counted repetition, as trees. A pattern
nests to some depth, and it is matched in a mode that its flags change on the way.
The matcher at hand has no tables of characters. It finds characters by code point
and tells classes and word boundaries only where a pattern asks for bytes, of which
it must then find none beyond the first 128 characters.
-/

structure Letter where
  char : Char
  /-- Written as two hexadecimal digits, and so perhaps meant as a byte. -/
  asByte : Bool := false

inductive Flag where
  | ignoreCase
  | multiLine
  | dotAll
  | swapGreed
  | unicode
  | carriageReturn
  | verbose
  deriving DecidableEq

structure Flags where
  on : List Flag := []
  off : List Flag := []

inductive CharClass where
  | empty
  | letter (letter : Letter)
  | range (low high : Letter)
  /-- Digits, blanks or word characters, or the others. -/
  | shorthand (negated : Bool)
  /-- A class by its name, between colons. -/
  | named (negated : Bool)
  | union (items : List CharClass)
  /-- An intersection or a difference. -/
  | operation (left right : CharClass)
  | bracket (negated : Bool) (inner : CharClass)

inductive Term where
  | empty
  | letter (letter : Letter)
  | dot
  | anchor
  | wordBoundary
  | shorthand (negated : Bool)
  | bracket (negated : Bool) (inner : CharClass)
  /-- Flags that hold from here to the end of the group. -/
  | switch (flags : Flags)
  | repeated (term : Term)
  | group (flags : Flags) (term : Term)
  | sequence (terms : List Term)
  | choice (branches : List Term)

namespace Flags

def given (flags : Flags) (flag : Flag) : Bool :=
  flags.on.contains flag || flags.off.contains flag

def apply (flags : Flags) (flag : Flag) (state : Bool) : Bool :=
  if flags.on.contains flag then true else if flags.off.contains flag then false else state

end Flags

/-! ### Depth -/

namespace CharClass

mutual

def depth : CharClass → Nat
  | union items => depthOfAll items + 1
  | operation left right => max left.depth right.depth + 1
  | bracket _ inner => inner.depth + 1
  | _ => 0

def depthOfAll : List CharClass → Nat
  | [] => 0
  | item :: rest => max item.depth (depthOfAll rest)

end

end CharClass

namespace Term

mutual

/-- How deep a pattern nests; terms, branches and repetitions count as well as brackets. -/
def depth : Term → Nat
  | bracket _ inner => inner.depth + 1
  | repeated term => term.depth + 1
  | group _ term => term.depth + 1
  | sequence terms => depthOfAll terms + 1
  | choice branches => depthOfAll branches + 1
  | _ => 0

def depthOfAll : List Term → Nat
  | [] => 0
  | term :: rest => max term.depth (depthOfAll rest)

end

end Term

/-! ### What can be matched -/

/-- How characters are compared: without regard to case, and as characters or as bytes. -/
structure Mode where
  ignoreCase : Bool := false
  unicode : Bool := true

namespace Mode

def change (mode : Mode) (flags : Flags) : Mode :=
  { ignoreCase := flags.apply .ignoreCase mode.ignoreCase
    unicode := flags.apply .unicode mode.unicode }

/-- Other cases of a character are in tables; a byte beyond the first 128 is no character. -/
def admits (mode : Mode) (letter : Letter) : Bool :=
  if mode.unicode then !mode.ignoreCase else !(letter.asByte && Nat.ble 128 letter.char.toNat)

/-- A class of bytes has no members beyond the first 128. -/
def admitsMember (mode : Mode) (letter : Letter) : Bool :=
  if mode.unicode then !mode.ignoreCase else !Nat.ble 128 letter.char.toNat

end Mode

namespace CharClass

mutual

def matchable (mode : Mode) : CharClass → Bool
  | empty => true
  | letter written => mode.admitsMember written
  | range low high => mode.admitsMember low && mode.admitsMember high
  | shorthand negated => !mode.unicode && !negated
  | named negated => if mode.unicode then !mode.ignoreCase else !negated
  | union items => allMatchable mode items
  | operation left right => left.matchable mode && right.matchable mode
  | bracket negated inner => (mode.unicode || !negated) && inner.matchable mode

def allMatchable (mode : Mode) : List CharClass → Bool
  | [] => true
  | item :: rest => item.matchable mode && allMatchable mode rest

end

end CharClass

namespace Term

def guard (condition : Bool) (mode : Mode) : Option Mode := if condition then some mode else none

mutual

/-- The mode behind a pattern, if it can be matched from the given mode on. -/
def modeAfter (mode : Mode) : Term → Option Mode
  | empty | anchor => some mode
  | letter written => guard (mode.admits written) mode
  | dot => guard mode.unicode mode
  | wordBoundary => guard (!mode.unicode) mode
  | shorthand negated => guard (!mode.unicode && !negated) mode
  | bracket negated inner => guard ((CharClass.bracket negated inner).matchable mode) mode
  | switch changes => some (mode.change changes)
  | repeated term => term.modeAfter mode
  | group changes term => (term.modeAfter (mode.change changes)).map fun _ => mode
  | sequence terms => modeAfterAll mode terms
  | choice branches => modeAfterAll mode branches

def modeAfterAll (mode : Mode) : List Term → Option Mode
  | [] => some mode
  | term :: rest => (term.modeAfter mode).bind (modeAfterAll · rest)

end

end Term

/-! ## Escapes

Reading the small parts of a pattern: blanks and comments, which a verbose pattern
may hold between its parts, and what follows a backslash.
-/

def skipRemarks (comment : Bool) : List Char → List Char
  | [] => []
  | c :: rest =>
      if comment then skipRemarks (c ≠ '\n') rest
      else if Text.isBlank c then skipRemarks false rest
      else if c = '#' then skipRemarks true rest
      else c :: rest

def skip (verbose : Bool) (text : List Char) : List Char :=
  if verbose then skipRemarks false text else text

def hexDigit? (c : Char) : Option Nat :=
  if c.isDigit then some (c.toNat - '0'.toNat)
  else if 'a' ≤ c ∧ c ≤ 'f' then some (c.toNat - 'a'.toNat + 10)
  else if 'A' ≤ c ∧ c ≤ 'F' then some (c.toNat - 'A'.toNat + 10)
  else none

def hexNumber? (verbose : Bool) : Nat → Nat → List Char → Option (Nat × List Char)
  | 0, value, text => some (value, text)
  | count + 1, value, text =>
      match skip verbose text with
      | [] => none
      | c :: rest => (hexDigit? c).bind fun digit =>
          hexNumber? verbose count (value * 16 + digit) rest

inductive Escape where
  | letter (letter : Letter)
  | shorthand (negated : Bool)
  | anchor
  | wordBoundary

namespace Escape

def code? (verbose : Bool) (digits : Nat) (text : List Char) : Option (Escape × List Char) :=
  (hexNumber? verbose digits 0 text).bind fun (value, rest) =>
    if value.isValidChar then some (.letter ⟨Char.ofNat value, digits = 2⟩, rest) else none

/-- Any punctuation stands for itself, and so do blanks and control characters. -/
def standsForItself (c : Char) : Bool := !Nat.ble 128 c.toNat && !c.isAlphanum

def ofChar? (c : Char) : Option Escape :=
  match c with
  | 'a' => some (.letter ⟨Char.ofNat 7, false⟩)
  | 'f' => some (.letter ⟨Char.ofNat 12, false⟩)
  | 'n' => some (.letter ⟨'\n', false⟩)
  | 'r' => some (.letter ⟨'\r', false⟩)
  | 't' => some (.letter ⟨'\t', false⟩)
  | 'v' => some (.letter ⟨Char.ofNat 11, false⟩)
  | 'd' | 's' | 'w' => some (.shorthand false)
  | 'D' | 'S' | 'W' => some (.shorthand true)
  | 'A' | 'z' => some .anchor
  | 'b' | 'B' | '<' | '>' => some .wordBoundary
  | _ => if standsForItself c then some (.letter ⟨c, false⟩) else none

def read? (verbose : Bool) (text : List Char) : Option (Escape × List Char) :=
  match text with
  | [] => none
  | 'x' :: rest => code? verbose 2 rest
  | 'u' :: rest => code? verbose 4 rest
  | 'U' :: rest => code? verbose 8 rest
  | c :: rest => (ofChar? c).map (·, rest)

end Escape

end MeteredChunk.Pattern

namespace MeteredChunk.Pattern.CharClass

/-! ## Character classes

Reading classes of characters. Brackets nest; the reader keeps what it has read
behind each open one.
-/

def ofItems : List CharClass → CharClass
  | [] => empty
  | [item] => item
  | items => union items.reverse

structure Level where
  negated : Bool
  /-- What stands in front of the last operator. -/
  operand : Option CharClass
  /-- The last one first. -/
  items : List CharClass

namespace Level

def push (level : Level) (item : CharClass) : Level := { level with items := item :: level.items }

def inner (level : Level) : CharClass :=
  match level.operand with
  | none => ofItems level.items
  | some left => operation left (ofItems level.items)

def operate (level : Level) : Level := { level with operand := some level.inner, items := [] }

end Level

/-- The hyphens in front, with what may stand between them, and what follows. -/
def takeHyphens (verbose comment : Bool) : List Char → List CharClass × List Char
  | [] => ([], [])
  | c :: rest =>
      if comment then takeHyphens verbose (c ≠ '\n') rest
      else if verbose && Text.isBlank c then takeHyphens verbose false rest
      else if verbose && c = '#' then takeHyphens verbose true rest
      else if c = '-' then
        let (hyphens, rest) := takeHyphens verbose false rest
        (letter ⟨c, false⟩ :: hyphens, rest)
      else ([], c :: rest)

/-- Hyphens in front are members, and so is a closing bracket as the first item. -/
def openLevel (verbose : Bool) (text : List Char) : Level × List Char :=
  let (negated, text) := match skip verbose text with
    | '^' :: rest => (true, rest)
    | text => (false, text)
  match takeHyphens verbose false text with
  | ([], ']' :: rest) => (⟨negated, none, [letter ⟨']', false⟩]⟩, rest)
  | (hyphens, rest) => (⟨negated, none, hyphens⟩, rest)

def names : List String :=
  ["alnum", "alpha", "ascii", "blank", "cntrl", "digit", "graph", "lower", "print", "punct",
    "space", "upper", "word", "xdigit"]

def named? (text : List Char) : Option (CharClass × List Char) :=
  match text with
  | ':' :: text =>
      let (negated, text) := match text with
        | '^' :: rest => (true, rest)
        | text => (false, text)
      match text.dropWhile (· ≠ ':') with
      | ':' :: ']' :: rest =>
          if names.contains (String.ofList (text.takeWhile (· ≠ ':'))) then
            some (named negated, rest)
          else none
      | _ => none
  | _ => none

def member? (verbose : Bool) (c : Char) (rest : List Char) : Option (CharClass × List Char) :=
  if c = '\\' then
    match Escape.read? verbose rest with
    | some (.letter written, rest) => some (letter written, rest)
    | some (.shorthand negated, rest) => some (shorthand negated, rest)
    | _ => none
  else some (letter ⟨c, false⟩, rest)

def peek (verbose : Bool) (text : List Char) : Option Char :=
  if verbose then
    let ahead := text.dropWhile Text.isBlank
    match ahead with
    | '#' :: rest => (rest.dropWhile Text.isBlank).head?
    | _ => ahead.head?
  else text.head?

/-- Ranges do not run backwards. -/
def range? (low high : CharClass) : Option CharClass :=
  match low, high with
  | letter low, letter high => if low.char ≤ high.char then some (range low high) else none
  | _, _ => none

/-- A member, or a range from it to another one. A hyphen in front of a closing bracket or of
another hyphen makes no range. -/
def item? (verbose : Bool) (c : Char) (rest : List Char) : Option (CharClass × List Char) :=
  (member? verbose c rest).bind fun (first, rest) =>
    match skip verbose rest with
    | '-' :: text =>
        match peek verbose text, skip verbose text with
        | some ']', _ | some '-', _ => some (first, '-' :: text)
        | _, last :: text =>
            (member? verbose last text).bind fun (last, rest) =>
              (range? first last).map (·, rest)
        | _, [] => none
    | text => some (first, text)

def readFrom (verbose : Bool) :
    Nat → Level → List Level → List Char → Option (Level × List Char)
  | 0, _, _, _ => none
  | steps + 1, level, outer, text =>
      match skip verbose text with
      | [] => none
      | ']' :: rest =>
          match outer with
          | [] => some (level, rest)
          | next :: outer =>
              readFrom verbose steps (next.push (bracket level.negated level.inner)) outer rest
      | '[' :: rest =>
          match named? rest with
          | some (item, rest) => readFrom verbose steps (level.push item) outer rest
          | none =>
              let (inner, rest) := openLevel verbose rest
              readFrom verbose steps inner (level :: outer) rest
      | '&' :: '&' :: rest | '-' :: '-' :: rest | '~' :: '~' :: rest =>
          readFrom verbose steps level.operate outer rest
      | c :: rest =>
          match item? verbose c rest with
          | some (item, rest) => readFrom verbose steps (level.push item) outer rest
          | none => none

def read? (verbose : Bool) (text : List Char) : Option (Level × List Char) :=
  let (level, rest) := openLevel verbose text
  readFrom verbose (text.length + 1) level [] rest

end MeteredChunk.Pattern.CharClass

namespace MeteredChunk.Pattern

/-! ## The parser

Reading patterns. Groups nest; the reader keeps what it has read of each open one.
A pattern is well formed if it can be read, does not nest too deep, and can be
matched.
-/

def Term.ofTerms : List Term → Term
  | [] => .empty
  | [term] => term
  | terms => .sequence terms.reverse

structure Level where
  /-- Whether blanks and comments may stand between the parts. -/
  verbose : Bool
  /-- The last one first, without the one that is being read. -/
  branches : List Term := []
  /-- The last one first. -/
  terms : List Term := []

namespace Level

def push (level : Level) (term : Term) : Level := { level with terms := term :: level.terms }

def term (level : Level) : Term :=
  match level.branches with
  | [] => .ofTerms level.terms
  | branches => .choice (.ofTerms level.terms :: branches).reverse

/-- Flags are nothing that could be repeated. -/
def repeatLast (level : Level) : Option Level :=
  match level.terms with
  | [] | .switch _ :: _ => none
  | term :: terms => some { level with terms := .repeated term :: terms }

def nextBranch (level : Level) : Level :=
  { level with branches := .ofTerms level.terms :: level.branches, terms := [] }

end Level

structure Reader where
  level : Level
  /-- The levels around it, the nearest first, each with the flags of the group in it. -/
  outer : List (Flags × Level) := []
  names : List (List Char) := []

def Flag.ofChar? : Char → Option Flag
  | 'i' => some .ignoreCase
  | 'm' => some .multiLine
  | 's' => some .dotAll
  | 'U' => some .swapGreed
  | 'u' => some .unicode
  | 'R' => some .carriageReturn
  | 'x' => some .verbose
  | _ => none

/-- Flags up to the mark behind them. One minus sign turns what follows it off; something has to
follow it, and no flag is named twice. -/
def Flags.read? (flags : Flags) (negative owing : Bool) : List Char → Option (Flags × List Char)
  | [] => none
  | c :: rest =>
      if c = ':' ∨ c = ')' then if owing then none else some (flags, c :: rest)
      else if c = '-' then if negative then none else read? flags true true rest
      else
        match Flag.ofChar? c with
        | none => none
        | some flag =>
            if flags.given flag then none
            else if negative then read? { flags with off := flag :: flags.off } true false rest
            else read? { flags with on := flag :: flags.on } false false rest

/-- Names begin with a letter or an underscore. -/
def isName : List Char → Bool
  | [] => false
  | c :: rest =>
      (Text.isLetter c || c = '_') &&
        rest.all fun c => Text.isLetterOrNumber c || ['_', '.', '[', ']'].contains c

namespace Reader

def push (reader : Reader) (term : Term) : Reader :=
  { reader with level := reader.level.push term }

def setFlags (reader : Reader) (flags : Flags) : Reader :=
  let level := reader.level.push (.switch flags)
  { reader with level := { level with verbose := flags.apply .verbose level.verbose } }

def openGroup (reader : Reader) (flags : Flags) : Reader :=
  { reader with
    level := { verbose := flags.apply .verbose reader.level.verbose }
    outer := (flags, reader.level) :: reader.outer }

def closeGroup (reader : Reader) : Option Reader :=
  match reader.outer with
  | [] => none
  | (flags, level) :: outer =>
      some { reader with level := level.push (.group flags reader.level.term), outer }

/-- Names of groups differ from each other. -/
def openNamed (reader : Reader) (text : List Char) : Option (Reader × List Char) :=
  let name := text.takeWhile (· ≠ '>')
  match text.dropWhile (· ≠ '>') with
  | [] => none
  | _ :: rest =>
      if isName name && !reader.names.contains name then
        some ({ reader.openGroup {} with names := name :: reader.names }, rest)
      else none

/-- Flags stand at the head of a group, or alone between parentheses. -/
def openFlags (reader : Reader) (text : List Char) : Option (Reader × List Char) :=
  match Flags.read? {} false false text with
  | some (flags, ':' :: rest) => some (reader.openGroup flags, rest)
  | some (flags, _ :: rest) =>
      if flags.on = [] ∧ flags.off = [] then none else some (reader.setFlags flags, rest)
  | _ => none

def openAny (reader : Reader) (text : List Char) : Option (Reader × List Char) :=
  match text with
  | '?' :: 'P' :: '<' :: rest => reader.openNamed rest
  | '?' :: '<' :: rest => reader.openNamed rest
  | '?' :: rest => reader.openFlags rest
  | _ => some (reader.openGroup {}, text)

/-- A question mark right behind a repetition belongs to it. -/
def repeatLast (reader : Reader) (rest : List Char) : Option (Reader × List Char) :=
  let rest := match rest with
    | '?' :: rest => rest
    | _ => rest
  reader.level.repeatLast.map fun level => ({ reader with level }, rest)

def pushClass (reader : Reader) (text : List Char) : Option (Reader × List Char) :=
  (CharClass.read? reader.level.verbose text).map fun (level, rest) =>
    (reader.push (.bracket level.negated level.inner), rest)

def pushEscape (reader : Reader) (text : List Char) : Option (Reader × List Char) :=
  (Escape.read? reader.level.verbose text).map fun (escape, rest) =>
    (reader.push (match escape with
      | .letter written => .letter written
      | .shorthand negated => .shorthand negated
      | .anchor => .anchor
      | .wordBoundary => .wordBoundary), rest)

/-- One part of a pattern, which begins with the given character. Braces would count repetitions. -/
def step (reader : Reader) (c : Char) (rest : List Char) : Option (Reader × List Char) :=
  match c with
  | '(' => reader.openAny (skip reader.level.verbose rest)
  | ')' => reader.closeGroup.map (·, rest)
  | '|' => some ({ reader with level := reader.level.nextBranch }, rest)
  | '*' | '+' | '?' => reader.repeatLast rest
  | '[' => reader.pushClass rest
  | '\\' => reader.pushEscape rest
  | '{' => none
  | '.' => some (reader.push .dot, rest)
  | '^' | '$' => some (reader.push .anchor, rest)
  | _ => some (reader.push (.letter ⟨c, false⟩), rest)

def finish (reader : Reader) : Option Term :=
  match reader.outer with
  | [] => some reader.level.term
  | _ => none

def readFrom : Nat → Reader → List Char → Option Term
  | 0, _, _ => none
  | steps + 1, reader, text =>
      match skip reader.level.verbose text with
      | [] => reader.finish
      | c :: rest =>
          match reader.step c rest with
          | some (reader, rest) => readFrom steps reader rest
          | none => none

end Reader

def parse? (text : List Char) : Option Term :=
  Reader.readFrom (text.length + 1) { level := { verbose := false } } text

def wellFormed (text : List Char) : Bool :=
  match parse? text with
  | some term => Nat.ble term.depth 250 && (term.modeAfter {}).isSome
  | none => false

end MeteredChunk.Pattern
