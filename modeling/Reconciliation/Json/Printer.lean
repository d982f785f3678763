import Reconciliation.Json.Number
import Reconciliation.Text.Quoted

namespace Reconciliation.Json

/-!
# Printing JSON

* `quote` — a string with its escapes;
* `compact` — a value on one line without spaces;
* `pretty` — a value with one item or field a line, each level two spaces further in.

Both print the fields of an object as they are listed.
-/

/-- One character inside a string. -/
def quoteChar (c : Char) : String :=
  if c = '"' then "\\\""
  else if c = '\\' then "\\\\"
  else if c = '\x08' then "\\b"
  else if c = '\x0c' then "\\f"
  else if c = '\n' then "\\n"
  else if c = '\r' then "\\r"
  else if c = '\t' then "\\t"
  else if c.toNat < 0x10 then "\\u000" ++ Text.hexDigits c.toNat
  else if c.toNat < 0x20 then "\\u00" ++ Text.hexDigits c.toNat
  else c.toString

/-- A string between quotation marks. -/
def quote (text : String) : String :=
  "\"" ++ String.join (text.toList.map quoteChar) ++ "\""

/-- Parts between brackets, separated by commas. -/
def enclose (opening closing : String) (parts : List String) : String :=
  opening ++ ",".intercalate parts ++ closing

/-- Parts between brackets, each on a line of its own that starts with `margin` and two spaces. -/
def encloseLines (opening closing margin : String) (parts : List String) : String :=
  match parts with
  | [] => opening ++ closing
  | _ =>
    opening ++ "\n" ++ ",\n".intercalate (parts.map fun part => margin ++ "  " ++ part) ++
      "\n" ++ margin ++ closing

mutual

/-- The value on one line. -/
def compact : Json → String
  | null => "null"
  | bool true => "true"
  | bool false => "false"
  | number value => value.text
  | string text => quote text
  | array items => enclose "[" "]" (compactItems items)
  | object fields => enclose "\x7b" "\x7d" (compactFields fields)

/-- Each item on one line. -/
def compactItems : List Json → List String
  | [] => []
  | item :: rest => compact item :: compactItems rest

/-- Each field on one line. -/
def compactFields : List (String × Json) → List String
  | [] => []
  | (name, value) :: rest => (quote name ++ ":" ++ compact value) :: compactFields rest

end

mutual

/-- The value on lines of which all but the first start with `margin`. -/
def prettyFrom (margin : String) : Json → String
  | array items => encloseLines "[" "]" margin (prettyItems (margin ++ "  ") items)
  | object fields => encloseLines "\x7b" "\x7d" margin (prettyFields (margin ++ "  ") fields)
  | value@(null) | value@(bool _) | value@(number _) | value@(string _) => compact value

/-- Each item on its lines. -/
def prettyItems (margin : String) : List Json → List String
  | [] => []
  | item :: rest => prettyFrom margin item :: prettyItems margin rest

/-- Each field on its lines. -/
def prettyFields (margin : String) : List (String × Json) → List String
  | [] => []
  | (name, value) :: rest =>
    (quote name ++ ": " ++ prettyFrom margin value) :: prettyFields margin rest

end

/-- The value with one item or field a line. -/
def pretty (value : Json) : String := prettyFrom "" value

end Reconciliation.Json
