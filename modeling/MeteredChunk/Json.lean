/-!
JSON values with their two written forms, compact on one line and indented by two
spaces a level, and the inspection form of values.
-/

namespace MeteredChunk.Inspect

/-! ## Inspection

The inspection form of a value: its kind by name, then what it holds.
-/

def wrapped (kind content : String) : String := kind ++ "(" ++ content ++ ")"

def list (items : List String) : String := "[" ++ ", ".intercalate items ++ "]"

def record (kind : String) (fields : List (String × String)) : String :=
  kind ++ " \x7b " ++ ", ".intercalate (fields.map fun field => field.1 ++ ": " ++ field.2) ++ " \x7d"

end MeteredChunk.Inspect

namespace MeteredChunk

/-! ## JSON

JSON values and their two written forms: compact on one line, and indented by
two spaces a level. Numbers that are not integers come as finished text, so
that their digits are chosen elsewhere.
-/

inductive Json where
  | null
  | integer (value : Int)
  | number (written : String)
  | text (value : String)
  | list (items : List Json)
  | record (fields : List (String × Json))

namespace Json

/-- Quotes, backslashes and the control characters below the blank are escaped. -/
def escape (c : Char) : List Char :=
  if c = '"' then ['\\', '"']
  else if c = '\\' then ['\\', '\\']
  else if c = '\n' then ['\\', 'n']
  else if c = '\r' then ['\\', 'r']
  else if c = '\t' then ['\\', 't']
  else if c.toNat = 8 then ['\\', 'b']
  else if c.toNat = 12 then ['\\', 'f']
  else if c.toNat < 32 then
    ['\\', 'u', '0', '0', Nat.digitChar (c.toNat / 16), Nat.digitChar (c.toNat % 16)]
  else [c]

def quote (s : String) : String :=
  String.ofList ('"' :: s.toList.flatMap escape ++ ['"'])

mutual

def compact : Json → String
  | null => "null"
  | integer value => toString value
  | number written => written
  | text value => quote value
  | list items => "[" ++ ",".intercalate (compactItems items) ++ "]"
  | record fields => "\x7b" ++ ",".intercalate (compactFields fields) ++ "\x7d"

def compactItems : List Json → List String
  | [] => []
  | item :: rest => compact item :: compactItems rest

def compactFields : List (String × Json) → List String
  | [] => []
  | (name, value) :: rest => (quote name ++ ":" ++ compact value) :: compactFields rest

end

def indented (depth : Nat) (opening closing : String) : List String → String
  | [] => opening ++ closing
  | items =>
      let margin := String.ofList (List.replicate (2 * depth) ' ')
      opening ++ "\n" ++ ",\n".intercalate (items.map fun item => margin ++ "  " ++ item) ++
        "\n" ++ margin ++ closing

mutual

/-- The indented form, for a value that stands at the given level. -/
def pretty (depth : Nat) : Json → String
  | null => "null"
  | integer value => toString value
  | number written => written
  | text value => quote value
  | list items => indented depth "[" "]" (prettyItems (depth + 1) items)
  | record fields => indented depth "\x7b" "\x7d" (prettyFields (depth + 1) fields)

def prettyItems (depth : Nat) : List Json → List String
  | [] => []
  | item :: rest => pretty depth item :: prettyItems depth rest

def prettyFields (depth : Nat) : List (String × Json) → List String
  | [] => []
  | (name, value) :: rest => (quote name ++ ": " ++ pretty depth value) :: prettyFields depth rest

end

end Json

end MeteredChunk
