import Reconciliation.Text.Blank
import Reconciliation.Text.Natural

namespace Reconciliation.CommandLine

/-!
# Arguments

How the words of a command line become values:

* `Usage` — why they do not;
* `Argument`, `Level` — what may be given, for the program as a whole or for one of its commands;
* `Progress` — what has been read of a level;
* `Level.walk` — reads words up to the name of a command.

A value is looked at only when the next argument begins, or when the words end.  Until then a
problem with anything that follows comes first.
-/

/-- Why words do not say what to do. -/
inductive Usage where
  | help
  | version
  /-- Nothing was given at all. -/
  | helpOnMissing
  | missingCommand
  | unknownCommand
  | unknownArgument
  | missingParameter
  /-- A value is missing, empty, or none of those allowed. -/
  | invalidValue
  /-- A value is no number in range. -/
  | invalidNumber
  /-- A flag was given a value. -/
  | surplusValue
  /-- An option was given twice. -/
  | repeated
deriving DecidableEq, Repr

namespace Usage

/-- The name of a usage problem. -/
def name : Usage → String
  | help => "DisplayHelp"
  | version => "DisplayVersion"
  | helpOnMissing => "DisplayHelpOnMissingArgumentOrSubcommand"
  | missingCommand => "MissingSubcommand"
  | unknownCommand => "InvalidSubcommand"
  | unknownArgument => "UnknownArgument"
  | missingParameter => "MissingRequiredArgument"
  | invalidValue => "InvalidValue"
  | invalidNumber => "ValueValidation"
  | surplusValue => "TooManyValues"
  | repeated => "ArgumentConflict"

/-- The code that the program ends with. -/
def code : Usage → Nat
  | help | version => 0
  | _ => 2

end Usage

/-! ### What may be given -/

/-- What a value has to be. -/
inductive ValueKind where
  | text
  /-- A path, which may not be empty. -/
  | path
  /-- A natural number below a limit.  If it is `signed`, zero may be written with a minus sign. -/
  | natural (limit : Nat) (signed : Bool)
  /-- One of some words. -/
  | oneOf (words : List String)
deriving DecidableEq, Repr

/-- The number that a text stands for as a natural number. -/
def naturalOf? (limit : Nat) (signed : Bool) (text : String) : Option Nat :=
  match Text.after? "-" text with
  | some digits => if signed && !digits.startsWith "+" then Text.natural? 1 digits else none
  | none => Text.natural? limit text

/-- Looks at a value. -/
def ValueKind.check (kind : ValueKind) (value : String) : Except Usage Unit :=
  match kind with
  | text => .ok ()
  | path => if value.isEmpty then .error .invalidValue else .ok ()
  | natural limit signed =>
    if (naturalOf? limit signed value).isSome then .ok () else .error .invalidNumber
  | oneOf words => if words.contains value then .ok () else .error .invalidValue

/-- What an argument is for. -/
inductive Role where
  | flag
  | value (kind : ValueKind)
  | help
  | version
deriving DecidableEq, Repr

/-- An option, which is given by its long name or its letter, or a parameter, which is given by its
    place. -/
structure Argument where
  name : String
  letter : Option Char
  role : Role
deriving DecidableEq, Repr

/-- What may be given at one place of the command line: to the program as a whole, or to one of its
    commands. -/
structure Level where
  options : List Argument
  parameters : List Argument
  commands : List String

/-! ### What a word looks like -/

/-- The form of a word. -/
inductive Word where
  /-- Everything after it stands for itself. -/
  | divider
  /-- The long name of an option, with a value if one is attached. -/
  | long (name : String) (value : Option String)
  /-- Letters of options. -/
  | letters (letters : List Char)
  | plain
deriving DecidableEq, Repr

/-- The form of a word. -/
def Word.ofText (text : String) : Word :=
  match text.toList with
  -- The order counts: a divider is no long name, and a lone dash no letter.
  | ['-', '-'] => divider
  | '-' :: '-' :: rest =>
    let name := String.ofList rest
    match Text.cutFirst? '=' name with
    | some (name, value) => long name (some value)
    | none => long name none
  | '-' :: c :: rest => letters (c :: rest)
  | _ => plain

/-! ### Reading words -/

/-- What has been read of a level. -/
structure Progress where
  /-- The values of arguments by their names. -/
  values : List (String × String)
  /-- The argument whose value is not looked at yet, and its value unless that is still to come. -/
  pending : Option (Argument × Option String)
  /-- Number of parameters given. -/
  filled : Nat
  /-- Whether the divider has been read. -/
  divided : Bool

namespace Progress

/-- Nothing has been read. -/
def start : Progress := ⟨[], none, 0, false⟩

/-- Whether the next word is the value of an option. -/
def awaitsValue (p : Progress) : Bool := p.pending.any fun pending => pending.2.isNone

/-- Keeps the value of an argument that has none so far. -/
def keep (p : Progress) (argument : Argument) (value : String) : Except Usage Progress := do
  if p.values.any (·.1 == argument.name) then .error .repeated
  match argument.role with
  | .value kind => kind.check value
  | .flag | .help | .version => pure ()
  return { p with values := p.values ++ [(argument.name, value)] }

/-- Looks at the value that is not looked at yet. -/
def resolve (p : Progress) : Except Usage Progress :=
  match p.pending with
  | none => .ok p
  | some (_, none) => .error .invalidValue
  | some (argument, some value) => { p with pending := none }.keep argument value

/-- Reads an option, with a value if one is attached. -/
def useOption (p : Progress) (option : Argument) (attached : Option String) :
    Except Usage Progress :=
  match option.role, attached with
  | .value _, some value => do (← p.resolve).keep option value
  | .value _, none => return { ← p.resolve with pending := some (option, none) }
  | .flag, none => do (← p.resolve).keep option "true"
  | .help, none => do
    let _ ← p.resolve
    .error .help
  | .version, none => do
    let _ ← p.resolve
    .error .version
  | .flag, some _ | .help, some _ | .version, some _ => .error .surplusValue

end Progress

namespace Level

/-- Reads options that are given by their letters.  What follows the letter of an option with a
    value is this value; a sign of equality in front does not count. -/
def useLetters (level : Level) (p : Progress) : List Char → Except Usage Progress
  | [] => .ok p
  | c :: rest =>
    match level.options.find? (·.letter == some c), rest with
    | none, _ => .error .unknownArgument
    | some ⟨name, letter, .value kind⟩, rest =>
      let attached := match rest with
        | [] => none
        | '=' :: value => some (String.ofList value)
        | value => some (String.ofList value)
      p.useOption ⟨name, letter, .value kind⟩ attached
    | some option, rest => do level.useLetters (← p.useOption option none) rest

/-- The problem with a word that is neither option nor parameter. -/
def surplus (level : Level) (divided : Bool) (word : String) : Usage :=
  if level.commands.isEmpty || (divided && level.commands.contains word) then .unknownArgument
  else .unknownCommand

/-- Reads a word as the next parameter. -/
def fill (level : Level) (p : Progress) (word : String) : Except Usage Progress :=
  match level.parameters[p.filled]? with
  | some parameter =>
    return { ← p.resolve with pending := some (parameter, some word), filled := p.filled + 1 }
  | none => .error (level.surplus p.divided word)

/-- Reads a word that names no command. -/
def read (level : Level) (p : Progress) (word : String) : Except Usage Progress :=
  if p.divided then level.fill p word
  else
    match Word.ofText word with
    | .divider => .ok { p with divided := true }
    | .long name value =>
      match level.options.find? (·.name == name) with
      | some option => p.useOption option value
      | none => .error .unknownArgument
    | .letters letters => level.useLetters p letters
    | .plain =>
      match p.pending with
      -- An option waits for its value.
      | some (option, none) => .ok { p with pending := some (option, some word) }
      | _ => level.fill p word

/-- Reads words up to the name of a command; the answer has this name and the words after it. -/
def walk (level : Level) (p : Progress) :
    List String → Except Usage (Progress × Option (String × List String))
  | [] => .ok (p, none)
  | word :: rest =>
    -- A command is named neither behind the divider nor where an option waits for its value.
    if level.commands.contains word && !p.divided && !p.awaitsValue then
      .ok (p, some (word, rest))
    else do level.walk (← level.read p word) rest

end Level

end Reconciliation.CommandLine
