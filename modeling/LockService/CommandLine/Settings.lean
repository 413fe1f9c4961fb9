/-!
# Settings on a command line

A command takes settings, each with a name, possibly a letter, and one value.  They are written
`--name value`, `--name=value`, `-l value`, `-lvalue` or `-l=value`, in any order and each at most
once.  Besides its own settings every command knows `--help` and `-h`.

A value that stands in an argument of its own is looked at only when the next setting begins, when
help is asked for, or when the arguments end.  That decides which of two faults is reported: an
argument that nobody knows is reported before a bad value in front of it, but a bad value joined
to its setting is reported at once.
-/

namespace LockService.CommandLine

/-- Why a command line is not a command: it asks for help or for the version; it names no command
or an unknown one; or an argument is unknown, a setting lacks its value, has a value that is none
of the words it knows, has a value that cannot be read, is given twice, or has a value that it
does not take. -/
inductive Stop
  | help
  | version
  | noCommand
  | unknownCommand
  | unknownArgument
  | missingValue
  | unknownWord
  | invalidValue
  | repeated
  | unwantedValue
deriving DecidableEq, Repr

/-- The exit code of a program stopped by its command line. -/
def Stop.exitCode : Stop → Nat
  | .help | .version => 0
  | _ => 2

/-- A setting of a command with the arguments `σ`: its name, possibly a letter, and what its value
does. -/
structure Setting (σ : Type) where
  name : String
  letter : Option Char
  store : String → σ → Except Stop σ

/-- Arguments read so far: what they say, the names of the settings in it, a setting whose value
was not looked at yet (or has still to come), and whether a lone `--` has ended the settings. -/
structure Reading (σ : Type) where
  args : σ
  given : List String := []
  waiting : Option (Setting σ × Option String) := none
  ended : Bool := false

namespace Reading

variable {σ : Type}

/-- Gives a setting its value. -/
def assign (r : Reading σ) (setting : Setting σ) (value : String) : Except Stop (Reading σ) :=
  if setting.name ∈ r.given then .error .repeated
  else (setting.store value r.args).map fun args => { r with args, given := setting.name :: r.given }

/-- Looks at a value that is waiting. -/
def settle (r : Reading σ) : Except Stop (Reading σ) :=
  match r.waiting with
  | none => .ok r
  | some (_, none) => .error .missingValue
  | some (setting, some value) => { r with waiting := none }.assign setting value

/-- Begins a setting, with the value joined to it if there is one. -/
def begin (r : Reading σ) (setting : Setting σ) (joined : Option String) :
    Except Stop (Reading σ) :=
  match r.settle, joined with
  | .error stop, _ => .error stop
  | .ok r, some value => r.assign setting value
  | .ok r, none => .ok { r with waiting := some (setting, none) }

/-- Help ends the reading, unless a waiting value is bad. -/
def help (r : Reading σ) : Except Stop (Reading σ) :=
  match r.settle with
  | .error stop => .error stop
  | .ok _ => .error .help

/-- Reads an argument that begins with two dashes, of which `body` follows them. -/
def long (settings : List (Setting σ)) (r : Reading σ) (body : List Char) :
    Except Stop (Reading σ) :=
  let name := String.ofList (body.takeWhile (· ≠ '='))
  let joined :=
    match body.dropWhile (· ≠ '=') with
    | [] => none
    | _ :: value => some (String.ofList value)
  match settings.find? (·.name = name) with
  | some setting => r.begin setting joined
  | none =>
    if name = "help" then if joined.isSome then .error .unwantedValue else r.help
    else .error .unknownArgument

/-- Reads an argument that begins with one dash, of which a letter and `joined` follow it. -/
def short (settings : List (Setting σ)) (r : Reading σ) (letter : Char) (joined : List Char) :
    Except Stop (Reading σ) :=
  match settings.find? (·.letter = some letter) with
  | some setting =>
    r.begin setting <|
      match joined with
      | [] => none
      | '=' :: value => some (String.ofList value)
      | value => some (String.ofList value)
  | none => if letter = 'h' then r.help else .error .unknownArgument

/-- Reads an argument that is no setting: the value that one waits for, or nothing known. -/
def plain (r : Reading σ) (arg : String) : Except Stop (Reading σ) :=
  match r.waiting with
  | some (setting, none) => .ok { r with waiting := some (setting, some arg) }
  | _ => .error .unknownArgument

/-- Reads one argument. -/
def step (settings : List (Setting σ)) (r : Reading σ) (arg : String) : Except Stop (Reading σ) :=
  if r.ended then .error .unknownArgument
  else
    match arg.toList with
    | ['-', '-'] => .ok { r with ended := true }
    | '-' :: '-' :: body => long settings r body
    | '-' :: letter :: joined => short settings r letter joined
    | _ => r.plain arg

end Reading

/-- Reads all arguments of a command, starting from what holds without any. -/
def readSettings {σ : Type} (settings : List (Setting σ)) (standard : σ) (args : List String) :
    Except Stop σ :=
  match args.foldlM (Reading.step settings) { args := standard } with
  | .error stop => .error stop
  | .ok r => r.settle.map (·.args)

end LockService.CommandLine
