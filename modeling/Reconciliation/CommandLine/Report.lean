import Reconciliation.Directive
import Reconciliation.Object.Codec

namespace Reconciliation.CommandLine

/-!
# Reports

* `Ending` — what a run of the program leaves behind: a code, and what it printed;
* `exitCode` — the code that stands for a directive;
* `Report` — the summary of a command as JSON;
* `tableText` — objects as a table.
-/

/-- What a run of the program leaves behind. -/
structure Ending where
  code : Nat
  output : String
  errors : String
deriving DecidableEq, Repr

/-- The end of a run that could not do what it was asked for. -/
def Ending.failure (message : String) : Ending := ⟨1, "", "error: " ++ message ++ "\n"⟩

/-- The code that stands for a directive: success if there is nothing more to do, failure after an
    error, and a code of its own if the caller should come back. -/
def exitCode : Directive → Nat
  | .stop _ => 0
  | .retryNow | .retryAfter _ => 2
  | .error _ => 1

/-- The summary of a command: its directive, and what it read. -/
structure Report where
  directive : Directive
  object : Option Object
  items : Option (List Object)

namespace Report

/-- The report of a command that read nothing. -/
def ofDirective (directive : Directive) : Report := ⟨directive, none, none⟩

/-- The fields that tell about a directive. -/
def directiveFields : Directive → List (String × Json)
  | .stop reason => [("directive", .string "stop"), ("reason", .string reason.name)]
  | .retryNow => [("directive", .string "retry")]
  | .retryAfter delay =>
    [("directive", .string "retry-after"),
      ("retry_after_secs", .number (.double delay.secondsBits))]
  | .error failure => [("directive", .string "error"), ("error", .string failure.message)]

/-- The report as a value. -/
def toJson (report : Report) : Json :=
  .object <|
    directiveFields report.directive ++
    optionalField "object" (report.object.map fun object => .object object.toFields) ++
    optionalField "items"
      (report.items.map fun items => .array (items.map fun object => .object object.toFields))

/-- The end of a command with its report, as JSON or in words. -/
def finish (report : Report) (json : Bool) : Ending :=
  let code := exitCode report.directive
  if json then ⟨code, report.toJson.pretty ++ "\n", ""⟩
  else
    match report.directive with
    | .error failure => ⟨code, "", "error: " ++ failure.message ++ "\n"⟩
    | directive => ⟨code, directive.display ++ "\n", ""⟩

end Report

/-! ### Tables -/

/-- The text with blanks up to a width. -/
def padded (width : Nat) (text : String) : String :=
  text ++ String.ofList (List.replicate (width - text.length) ' ')

/-- A row of a table. -/
def row (scope name version : String) : String :=
  padded 24 scope ++ " " ++ padded 32 name ++ " " ++ version ++ "\n"

/-- Objects as a table. -/
def tableText (objects : List Object) : String :=
  row "NAMESPACE" "NAME" "VERSION" ++
    String.join (objects.map fun object =>
      row (object.metadata.scope.elim "-" (·.text)) object.metadata.name.text
        (object.metadata.version.elim "-" (·.text)))

end Reconciliation.CommandLine
