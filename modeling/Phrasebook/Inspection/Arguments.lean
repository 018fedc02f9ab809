/-! # Words of a command line

The words behind the name of a program are options, positional values and the name
of a command (`Phrasebook.Inspection.Grammar`). Options are looked at from left to
right, but the value of an option is checked only when the next option or
positional value has been recognised (`Phrasebook.Inspection.scan`).
-/

namespace Phrasebook.Inspection

/-- Why a command line yields no command. -/
inductive Usage
  | valueValidation
  | unknownArgument
  | missingRequiredArgument
  | invalidValue
  | invalidSubcommand
  | missingSubcommand
  | argumentConflict
  | tooManyValues
  | displayHelp
  | displayVersion
  | displayHelpOnMissing
deriving DecidableEq, Repr

/-- The name of the reason. -/
def Usage.name : Usage → String
  | .valueValidation => "ValueValidation"
  | .unknownArgument => "UnknownArgument"
  | .missingRequiredArgument => "MissingRequiredArgument"
  | .invalidValue => "InvalidValue"
  | .invalidSubcommand => "InvalidSubcommand"
  | .missingSubcommand => "MissingSubcommand"
  | .argumentConflict => "ArgumentConflict"
  | .tooManyValues => "TooManyValues"
  | .displayHelp => "DisplayHelp"
  | .displayVersion => "DisplayVersion"
  | .displayHelpOnMissing => "DisplayHelpOnMissingArgumentOrSubcommand"

/-- What an option does: it is set, it takes a value once, it takes a value each
time, or it asks for a text about the program. -/
inductive Role
  | flag
  | single
  | repeated
  | help
  | version
deriving DecidableEq, Repr

/-- An option: its long name, its letter, its role, and which values it takes. -/
structure Switch where
  long : String
  letter : Option Char := none
  role : Role
  accepts : String → Bool := fun _ => true

/-- The options, the number of positional values and the commands of one level of a
command line. -/
structure Grammar where
  options : List Switch
  positionals : Nat := 0
  commands : List String := []

/-- What has been read of one level. The value of the `pending` option is not
checked yet, or has yet to come. -/
structure Reading where
  found : List (String × String) := []
  positionals : List String := []
  pending : Option (Switch × Option String) := none
  isTrailing : Bool := false

namespace Reading

/-- Whether the next word is the value of an option, unless it looks like an
option. -/
def awaits (reading : Reading) : Bool :=
  match reading.pending with
  | some (_, none) => true
  | _ => false

/-- Whether an option has been found. -/
def has (reading : Reading) (long : String) : Bool :=
  reading.found.any fun pair => pair.1 == long

/-- The last value of an option. -/
def last? (reading : Reading) (long : String) : Option String :=
  reading.found.reverse.lookup long

/-- Takes a value for an option. -/
def take (reading : Reading) (option : Switch) (value : String) : Except Usage Reading :=
  if option.role ≠ .repeated && reading.has option.long then .error .argumentConflict
  else if option.accepts value then
    .ok { reading with found := reading.found ++ [(option.long, value)] }
  else .error .valueValidation

/-- Checks the pending option. -/
def resolve (reading : Reading) : Except Usage Reading :=
  match reading.pending with
  | none => .ok reading
  | some (_, none) => .error .invalidValue
  | some (option, some value) => { reading with pending := none }.take option value

/-- Comes upon an option without a value of its own. -/
def set (reading : Reading) (option : Switch) : Except Usage Reading := do
  let reading ← reading.resolve
  match option.role with
  | .help => .error .displayHelp
  | .version => .error .displayVersion
  | _ => reading.take option ""

end Reading

namespace Grammar

/-- Comes upon a long option, which may have its value behind an equals sign. -/
def long (grammar : Grammar) (reading : Reading) (name : List Char) (value : Option String) :
    Except Usage Reading :=
  match grammar.options.find? fun option => option.long.toList = name with
  | none => .error .unknownArgument
  | some option =>
    if option.role = .single ∨ option.role = .repeated then
      match value with
      | some value => do
        let reading ← reading.resolve
        reading.take option value
      | none => do
        let reading ← reading.resolve
        .ok { reading with pending := some (option, none) }
    else if value.isSome then .error .tooManyValues
    else reading.set option

/-- Comes upon letters of options behind one hyphen. -/
def letters (grammar : Grammar) (reading : Reading) : List Char → Except Usage Reading
  | [] => .ok reading
  | letter :: rest =>
    match grammar.options.find? fun option => option.letter = some letter with
    | none => .error .unknownArgument
    | some option => do
      let reading ← reading.set option
      grammar.letters reading rest

/-- Why a word is no positional value. -/
def refuse (grammar : Grammar) (reading : Reading) (word : String) : Usage :=
  if grammar.commands.isEmpty then .unknownArgument
  else if reading.isTrailing && grammar.commands.contains word then .unknownArgument
  else .invalidSubcommand

/-- Comes upon a positional value. -/
def positional (grammar : Grammar) (reading : Reading) (word : String) :
    Except Usage Reading :=
  if reading.positionals.length < grammar.positionals then do
    let reading ← reading.resolve
    .ok { reading with positionals := reading.positionals ++ [word] }
  else .error (grammar.refuse reading word)

/-- Comes upon a word that is no command. -/
def word (grammar : Grammar) (reading : Reading) (word : String) : Except Usage Reading :=
  if reading.isTrailing then grammar.positional reading word
  else match word.toList with
    | ['-', '-'] => .ok { reading with isTrailing := true }
    | '-' :: '-' :: rest =>
      match rest.dropWhile (· != '=') with
      | [] => grammar.long reading rest none
      | _ :: value => grammar.long reading (rest.takeWhile (· != '=')) (String.ofList value)
    | '-' :: letter :: rest => grammar.letters reading (letter :: rest)
    | _ =>
      match reading.pending with
      | some (option, none) => .ok { reading with pending := some (option, some word) }
      | _ => grammar.positional reading word

end Grammar

/-- Reads the words of one level, up to the name of a command; the answer has that
name and the words behind it. -/
def scan (grammar : Grammar) (reading : Reading) :
    List String → Except Usage (Reading × Option (String × List String))
  | [] => .ok (reading, none)
  | word :: rest =>
    if !reading.isTrailing && !reading.awaits && grammar.commands.contains word then
      .ok (reading, some (word, rest))
    else do
      let reading ← grammar.word reading word
      scan grammar reading rest

end Phrasebook.Inspection
