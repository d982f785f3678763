import Reconciliation.Text.Printable

namespace Reconciliation.Text

/-!
# Quoted texts and value outlines

How a value is shown to a person who looks into the program:

* `quoted` — a text between quotation marks, with everything escaped that would not print;
* `Outline` — the shape of a shown value: a word, a record with named fields, a record of which only
  some fields are shown, a tagged tuple or a list of outlines;
* `Outline.flat` — an outline on one line;
* `Outline.pretty` — an outline with one part a line, each level four spaces further in.
-/

/-- Hexadecimal digits of a number, lowercase and without leading zeros. -/
def hexDigits (n : Nat) : String :=
  String.ofList (Nat.toDigits 16 n)

/-- One character of a quoted text. -/
def quotedChar (c : Char) : String :=
  if c = '\x00' then "\\0"
  else if c = '\t' then "\\t"
  else if c = '\r' then "\\r"
  else if c = '\n' then "\\n"
  else if c = '"' then "\\\""
  else if c = '\\' then "\\\\"
  else if isPrintable c then c.toString
  else "\\u\x7b" ++ hexDigits c.toNat ++ "\x7d"

/-- The text in quotation marks, its marks, backslashes and unprintable characters escaped. -/
def quoted (text : String) : String :=
  "\"" ++ String.join (text.toList.map quotedChar) ++ "\""

/-- The shape of a shown value. -/
inductive Outline where
  /-- A value shown as one word. -/
  | word (text : String)
  /-- A record: its name and its fields. -/
  | record (name : String) (fields : List (String × Outline))
  /-- A record that has more fields than the ones shown. -/
  | excerpt (name : String) (fields : List (String × Outline))
  /-- A tag with one argument. -/
  | tagged (name : String) (argument : Outline)
  /-- A list. -/
  | list (items : List Outline)

/-- A character at the start of a line moves four spaces in.  `fresh` says whether a line starts. -/
def indentFrom (fresh : Bool) : List Char → List Char
  | [] => []
  | c :: rest =>
    (if fresh then [' ', ' ', ' ', ' '] else []) ++ c :: indentFrom (c == '\n') rest

/-- Every line of the text four spaces further in. -/
def indent (text : String) : String :=
  String.ofList (indentFrom true text.toList)

namespace Outline

mutual

/-- The outline on one line. -/
def flat : Outline → String
  | word text => text
  | record name fields => name ++ " \x7b " ++ ", ".intercalate (flatFields fields) ++ " \x7d"
  | excerpt name fields =>
    name ++ " \x7b " ++ ", ".intercalate (flatFields fields ++ [".."]) ++ " \x7d"
  | tagged name argument => name ++ "(" ++ argument.flat ++ ")"
  | list items => "[" ++ ", ".intercalate (flatItems items) ++ "]"

/-- Each field on one line. -/
def flatFields : List (String × Outline) → List String
  | [] => []
  | (name, value) :: rest => (name ++ ": " ++ value.flat) :: flatFields rest

/-- Each item on one line. -/
def flatItems : List Outline → List String
  | [] => []
  | item :: rest => item.flat :: flatItems rest

end

mutual

/-- The outline with one part a line and a comma after each. -/
def pretty : Outline → String
  | word text => text
  | record name fields => name ++ " \x7b\n" ++ prettyFields fields ++ "\x7d"
  | excerpt name fields => name ++ " \x7b\n" ++ prettyFields fields ++ indent "..\n" ++ "\x7d"
  | tagged name argument => name ++ "(\n" ++ indent (argument.pretty ++ ",\n") ++ ")"
  | list [] => "[]"
  | list (item :: rest) => "[\n" ++ prettyItems (item :: rest) ++ "]"

/-- The fields, each on lines of its own. -/
def prettyFields : List (String × Outline) → String
  | [] => ""
  | (name, value) :: rest =>
    indent (name ++ ": " ++ value.pretty ++ ",\n") ++ prettyFields rest

/-- The items, each on lines of its own. -/
def prettyItems : List Outline → String
  | [] => ""
  | item :: rest => indent (item.pretty ++ ",\n") ++ prettyItems rest

end

end Outline

end Reconciliation.Text
