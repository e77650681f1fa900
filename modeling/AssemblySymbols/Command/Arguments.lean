import AssemblySymbols.Command.Basic
import AssemblySymbols.Settings

/-! The command line. Arguments are taken from left to right; a value is checked only when the next
one has been recognized, and what follows the name of a command is checked before what precedes it. -/
namespace AssemblySymbols

/-- Why a command line names no command to run. -/
inductive ArgumentError where
  | helpRequested
  | nothingGiven
  | repeated
  | unknown
  | valueMissing
  | valueMalformed
  | valueNotWanted
  | argumentMissing
  | commandMissing
  | commandUnknown
deriving DecidableEq, Repr

namespace Arguments

inductive Parameter where
  | root
  | force
  | pause
  | help
  | name
  | file
  | line
  | column
deriving DecidableEq, Repr

namespace Parameter

/-- Options that stand alone. -/
def isFlag : Parameter → Bool
  | force | help => true
  | _ => false

def long? : Parameter → Option String
  | root => some "root"
  | force => some "force"
  | pause => some "debounce-ms"
  | help => some "help"
  | _ => none

def short? : Parameter → Option Char
  | root => some 'r'
  | help => some 'h'
  | _ => none

end Parameter

/-- A coordinate: a number of 32 bits in decimal digits after an optional sign. -/
def coordinate? (text : String) : Option Nat :=
  match text.toList with
  | '-' :: digits => (Json.digitsValue? digits).filter (· = 0)
  | _ => Settings.parseNatBelow? UInt32.size text

/-- Checks a value for a parameter. -/
def Parameter.check (parameter : Parameter) (value : String) : Except ArgumentError Unit :=
  match parameter with
  | root | file => if value.isEmpty then throw .valueMissing else pure ()
  | line | column => if (coordinate? value).isNone then throw .valueMalformed else pure ()
  | pause => if (Settings.parseNatBelow? UInt64.size value).isNone then throw .valueMalformed else pure ()
  | force | help | name => pure ()

/-- The names of the commands. One of them explains the others. -/
inductive CommandName where
  | init
  | scan
  | kind
  | goto
  | at
  | watch
  | help
deriving DecidableEq, Repr

namespace CommandName

def ofText? (text : String) : Option CommandName :=
  match text with
  | "init" => some init
  | "scan" => some scan
  | "kind" => some kind
  | "goto" | "def" => some goto
  | "at" => some .at
  | "watch" => some watch
  | "help" => some help
  | _ => none

def options : CommandName → List Parameter
  | init => [.force, .root, .help]
  | watch => [.pause, .root, .help]
  | _ => [.root, .help]

def positionals : CommandName → List Parameter
  | kind | goto => [.name]
  | .at => [.file, .line, .column]
  | _ => []

end CommandName

/-- What is accepted at one level: before the name of the command, or behind it. -/
structure Level where
  command : Option CommandName

namespace Level

def options (level : Level) : List Parameter :=
  match level.command with
  | none => [.root, .help]
  | some name => name.options

def positionals (level : Level) : List Parameter :=
  match level.command with
  | none => []
  | some name => name.positionals

end Level

/-- What has been read at one level. -/
structure Reading where
  /-- Parameters that have been checked, with their values. -/
  given : List (Parameter × String)
  /-- A parameter that is to be checked next, and its value if that has been read. -/
  pending : Option (Parameter × Option String)
  /-- The number of positional parameters read. -/
  position : Nat
  /-- Two hyphens have been read, behind which nothing is an option. -/
  escaped : Bool

namespace Reading

def start : Reading := ⟨[], none, 0, false⟩

/-- Accepts the value of a parameter, which may be given only once. -/
def accept (reading : Reading) (parameter : Parameter) (value : String) :
    Except ArgumentError Reading := do
  if (reading.given.lookup parameter).isSome then throw .repeated
  parameter.check value
  pure { reading with given := reading.given ++ [(parameter, value)], pending := none }

/-- Checks what is pending. -/
def settle (reading : Reading) : Except ArgumentError Reading :=
  match reading.pending with
  | none => pure reading
  | some (_, none) => throw .valueMissing
  | some (parameter, some value) => { reading with pending := none }.accept parameter value

/-- A value is due for an option. -/
def awaitsValue (reading : Reading) : Bool := reading.pending.any fun pending => pending.2.isNone

/-- Takes an option with the value that is attached to it. -/
def takeOption (reading : Reading) (parameter : Parameter) (value? : Option String) :
    Except ArgumentError Reading := do
  if parameter.isFlag then
    if value?.isSome then throw .valueNotWanted
    let reading ← reading.settle
    if parameter = .help then throw .helpRequested
    reading.accept parameter ""
  else
    let reading ← reading.settle
    match value? with
    | some value => reading.accept parameter value
    | none => pure { reading with pending := some (parameter, none) }

/-- Takes a long option, behind its hyphens, at which a value may hang by an equals sign. -/
def takeLong (reading : Reading) (level : Level) (text : List Char) :
    Except ArgumentError Reading :=
  let name := String.ofList (text.takeWhile (· != '='))
  let value? := match text.dropWhile (· != '=') with
    | [] => none
    | _ :: value => some (String.ofList value)
  match level.options.find? fun parameter => parameter.long? == some name with
  | none => throw .unknown
  | some parameter => reading.takeOption parameter value?

/-- Takes short options, behind their hyphen. Behind one with a value the rest is that value, with or
without an equals sign. -/
def takeShort (reading : Reading) (level : Level) : List Char → Except ArgumentError Reading
  | [] => pure reading
  | c :: rest =>
    match level.options.find? fun parameter => parameter.short? == some c with
    | none => throw .unknown
    | some parameter => do
      if parameter.isFlag then
        (← reading.takeOption parameter none).takeShort level rest
      else match rest with
        | [] => reading.takeOption parameter none
        | '=' :: value | value => reading.takeOption parameter (some (String.ofList value))

/-- What a superfluous argument is. Before the name of a command it can only be one itself. -/
def superfluous (reading : Reading) (level : Level) (argument : String) : ArgumentError :=
  if level.command.isSome then .unknown
  else if reading.escaped && (CommandName.ofText? argument).isSome then .unknown
  else .commandUnknown

/-- Takes a positional argument. -/
def takePositional (reading : Reading) (level : Level) (argument : String) :
    Except ArgumentError Reading := do
  match level.positionals[reading.position]? with
  | none => throw (reading.superfluous level argument)
  | some parameter =>
    let reading ← reading.settle
    pure { reading with
      pending := some (parameter, some argument)
      position := reading.position + 1 }

/-- Takes an argument that names no command. -/
def take (reading : Reading) (level : Level) (argument : String) : Except ArgumentError Reading :=
  if reading.escaped then reading.takePositional level argument
  else match argument.toList with
    | ['-', '-'] => pure { reading with escaped := true }
    | '-' :: '-' :: text => reading.takeLong level text
    | '-' :: c :: rest => reading.takeShort level (c :: rest)
    | _ =>
      match reading.pending with
      | some (parameter, none) => pure { reading with pending := some (parameter, some argument) }
      | _ => reading.takePositional level argument

/-- The name of a command, where one can stand. -/
def commandName? (reading : Reading) (argument : String) : Option CommandName :=
  if reading.escaped || reading.awaitsValue then none else CommandName.ofText? argument

end Reading

/-- What the help for the remaining arguments shows. No command has commands of its own. -/
def help : List String → ArgumentError
  | [] => .helpRequested
  | [argument] => if (CommandName.ofText? argument).isSome then .helpRequested else .commandUnknown
  | _ => .commandUnknown

/-- Reads the arguments behind the name of a command. -/
def readCommand (name : CommandName) (arguments : List String) : Except ArgumentError Reading := do
  let level : Level := ⟨some name⟩
  let reading ← arguments.foldlM (fun reading argument => reading.take level argument) Reading.start
  let reading ← reading.settle
  if reading.position < level.positionals.length then throw .argumentMissing
  pure reading

/-- The command that the arguments behind its name write. -/
def commandOf? (name : CommandName) (reading : Reading) : Option Command := do
  let value (parameter : Parameter) : Option String := reading.given.lookup parameter
  let number (parameter : Parameter) : Option UInt32 := do
    let n ← coordinate? (← value parameter)
    pure n.toUInt32
  match name with
  | .init => pure (.init (value .force).isSome)
  | .scan => pure .scan
  | .kind => pure (.kind (← value .name))
  | .goto => pure (.goto (← value .name))
  | .at => pure (.at (← value .file) (← number .line) (← number .column))
  | .watch =>
    let pause := (value .pause).bind (Settings.parseNatBelow? UInt64.size)
    pure (.watch (pause.getD 500).toUInt64)
  | .help => none

/-- Reads the arguments before the name of a command and, through `readCommand`, the rest. -/
def readTop (reading : Reading) : List String → Except ArgumentError Invocation
  | [] => do
    let reading ← reading.settle
    throw (if reading.given.isEmpty then .nothingGiven else .commandMissing)
  | argument :: rest =>
    match reading.commandName? argument with
    | some .help => throw (help rest)
    | some name => do
      let behind ← readCommand name rest
      let before ← reading.settle
      match commandOf? name behind with
      | none => throw .argumentMissing
      | some command =>
        pure ⟨((behind.given.lookup .root).or (before.given.lookup .root)).getD ".", command⟩
    | none => do readTop (← reading.take ⟨none⟩ argument) rest

end Arguments

/-- What a command line asks for. A root behind the name of the command replaces one before it. -/
def Invocation.parse (arguments : List String) : Except ArgumentError Invocation :=
  Arguments.readTop .start arguments

end AssemblySymbols
