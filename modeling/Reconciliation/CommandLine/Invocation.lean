import Reconciliation.CommandLine.Arguments

namespace Reconciliation.CommandLine

/-!
# Invocations

* `Command` — what the program is asked to do;
* `Settings` — the options that all commands share;
* `Invocation.parse` — the command and the settings that words give.

The shared options may stand before or after the name of the command; those after it count if both
are there.
-/

/-- What the program is asked to do. -/
inductive Command where
  /-- Shows an object.  A bare name is looked up in the namespace `scope`. -/
  | get (type key scope : String)
  | list (type : String) (scope selector : Option String)
  /-- Creates the object in a file unless there is one, and then asks to come back after some
      seconds. -/
  | ensure (file : String) (requeueAfter : Option Nat)
  | delete (type key scope : String) (propagation : Option String) (ifPresent : Bool)
  /-- Shows who controls an object, one level up or at the top. -/
  | owner (type key scope : String) (root : Bool)
deriving DecidableEq, Repr

/-- The options that all commands share. -/
structure Settings where
  config : Option String
  storeConfig : Option String
  retries : Option Nat
  json : Bool
deriving DecidableEq, Repr

/-- What the program is asked to do, and how. -/
inductive Invocation where
  | command (command : Command) (settings : Settings)
  /-- Asks for the completions of a shell, which no settings concern. -/
  | completions (shell : String)
deriving DecidableEq, Repr

/-! ### What may be given -/

/-- An argument with a value. -/
def valued (name : String) (kind : ValueKind) : Argument := ⟨name, none, .value kind⟩

/-- An option with a value that also has a letter. -/
def lettered (letter : Char) (name : String) (kind : ValueKind) : Argument :=
  ⟨name, some letter, .value kind⟩

/-- A flag. -/
def flag (name : String) : Argument := ⟨name, none, .flag⟩

/-- The options that all commands share. -/
def sharedOptions : List Argument := [
  valued "config" .path,
  valued "store-config" .path,
  valued "retries" (.natural UInt32.size true),
  flag "json",
  ⟨"verbose", some 'v', .flag⟩,
  flag "trace",
  ⟨"help", some 'h', .help⟩]

/-- The options of a command besides the shared ones, and its parameters. -/
def commandArguments : String → List Argument × List Argument
  | "get" => ([namespaceOption], typeAndKey)
  | "list" => ([namespaceOption, lettered 'l' "selector" .text], [valued "resource" .text])
  | "ensure" => ([valued "requeue-after" (.natural UInt64.size false)], [valued "file" .path])
  | "delete" => ([namespaceOption, valued "propagation" .text, flag "if-present"], typeAndKey)
  | "owner" => ([namespaceOption, flag "root"], typeAndKey)
  | "completions" => ([], [valued "shell" (.oneOf ["bash", "elvish", "fish", "powershell", "zsh"])])
  | _ => ([], [])
where
  /-- The option for a namespace. -/
  namespaceOption : Argument := lettered 'n' "namespace" .text
  /-- The parameters that address an object. -/
  typeAndKey : List Argument := [valued "resource" .text, valued "key" .text]

/-- The names of all commands. -/
def commandNames : List String :=
  ["get", "list", "ensure", "delete", "owner", "completions", "help"]

/-- What may be given to the program as a whole. -/
def programLevel : Level :=
  ⟨sharedOptions ++ [⟨"version", some 'V', .version⟩], [], commandNames⟩

/-- What may be given to a command. -/
def commandLevel (name : String) : Level :=
  ⟨(commandArguments name).1 ++ sharedOptions, (commandArguments name).2, []⟩

/-! ### From values to invocations -/

/-- The values of arguments by their names; the first of a name counts. -/
abbrev Values := List (String × String)

namespace Values

/-- The value of an argument that has to be there. -/
def text (values : Values) (name : String) : String := (values.lookup name).getD ""

/-- Whether a flag was given. -/
def flag (values : Values) (name : String) : Bool := (values.lookup name).isSome

/-- The number given for an option. -/
def number? (values : Values) (name : String) (limit : Nat) (signed : Bool) : Option Nat :=
  (values.lookup name).bind (naturalOf? limit signed)

/-- The namespace for bare names. -/
def scope (values : Values) : String := (values.lookup "namespace").getD "default"

end Values

/-- The settings that values give. -/
def Settings.ofValues (values : Values) : Settings where
  config := values.lookup "config"
  storeConfig := values.lookup "store-config"
  retries := values.number? "retries" UInt32.size true
  json := values.flag "json"

/-- The invocation of a command by its name.  The settings may come from values that were given
    before the name, too. -/
def Invocation.ofValues (name : String) (inner outer : Values) : Invocation :=
  let resource := inner.text "resource"
  let key := inner.text "key"
  let settings := Settings.ofValues (inner ++ outer)
  match name with
  | "get" => command (.get resource key inner.scope) settings
  | "list" =>
    command (.list resource (inner.lookup "namespace") (inner.lookup "selector")) settings
  | "ensure" =>
    command (.ensure (inner.text "file") (inner.number? "requeue-after" UInt64.size false)) settings
  | "delete" =>
    command
      (.delete resource key inner.scope (inner.lookup "propagation") (inner.flag "if-present"))
      settings
  | "owner" => command (.owner resource key inner.scope (inner.flag "root")) settings
  | _ => completions (inner.text "shell")

/-- The answer to a request for help about the words. -/
def helpAbout : List String → Usage
  | [] => .help
  | [name] => if commandNames.contains name then .help else .unknownCommand
  | _ => .unknownCommand

/-- The values of a command.  Its parameters have to be there. -/
def commandValues (name : String) (words : List String) : Except Usage Values := do
  let level := commandLevel name
  let (p, _) ← level.walk .start words
  let values := (← p.resolve).values
  if level.parameters.any fun parameter => (values.lookup parameter.name).isNone then
    .error .missingParameter
  return values

/-- The invocation that words give. -/
def Invocation.parse (words : List String) : Except Usage Invocation := do
  match ← programLevel.walk .start words with
  | (p, none) =>
    let p ← p.resolve
    .error (if p.values.isEmpty then .helpOnMissing else .missingCommand)
  | (_, some ("help", rest)) => .error (helpAbout rest)
  | (p, some (name, rest)) =>
    let inner ← commandValues name rest
    return .ofValues name inner (← p.resolve).values

end Reconciliation.CommandLine
