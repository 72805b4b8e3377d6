import BasicToSharp.Number.Integer

/-!
# JSON

Values of the JSON format and their text, one item a line and indented by two spaces.
Empty lists and objects stay on one line. Inside strings only the quote, the backslash and
control characters are escaped.
-/

namespace BasicToSharp

/-- A JSON value. -/
inductive Json
  | text (value : String)
  | number (value : Nat)
  | list (items : List Json)
  | object (fields : List (String × Json))

namespace Json

/-- The hexadecimal digit of a number below sixteen. -/
def hexDigit (value : Nat) : Char := (Nat.toDigits 16 value).getLastD '0'

/-- A character as it stands in a string. -/
def escapeChar (c : Char) : List Char :=
  if c = '\x22' then ['\\', '\x22']
  else if c = '\\' then ['\\', '\\']
  else if c = '\n' then ['\\', 'n']
  else if c = '\r' then ['\\', 'r']
  else if c = '\t' then ['\\', 't']
  else if c = '\x08' then ['\\', 'b']
  else if c = '\x0c' then ['\\', 'f']
  else if c.toNat < 0x20 then
    ['\\', 'u', '0', '0', hexDigit (c.toNat / 16), hexDigit (c.toNat % 16)]
  else [c]

/-- A string in quotes. -/
def quoted (text : String) : String :=
  "\"" ++ String.ofList (text.toList.flatMap escapeChar) ++ "\""

/-- The start of a line at a depth. -/
def margin (depth : Nat) : String := String.join (List.replicate depth "  ")

/-- Items in brackets, one a line. -/
def bracket (left right : String) (depth : Nat) (items : List String) : String :=
  if items.isEmpty then left ++ right
  else
    left ++ "\n" ++ ",\n".intercalate (items.map (margin (depth + 1) ++ ·)) ++ "\n" ++
      margin depth ++ right

mutual

/-- The text of a value at a depth. -/
def render (depth : Nat) : Json → String
  | .text value => quoted value
  | .number value => Number.decimalText value
  | .list items => bracket "[" "]" depth (renderItems (depth + 1) items)
  | .object fields => bracket "\x7b" "\x7d" depth (renderFields (depth + 1) fields)

/-- The texts of the items of a list. -/
def renderItems (depth : Nat) : List Json → List String
  | [] => []
  | item :: rest => item.render depth :: renderItems depth rest

/-- The texts of the fields of an object. -/
def renderFields (depth : Nat) : List (String × Json) → List String
  | [] => []
  | (name, value) :: rest =>
    (quoted name ++ ": " ++ value.render depth) :: renderFields depth rest

end

/-- The text of a value. -/
def pretty (value : Json) : String := value.render 0

example : quoted "a\t\"\x01" = "\"a\\t\\\"\\u0001\"" := by decide

end Json

end BasicToSharp
