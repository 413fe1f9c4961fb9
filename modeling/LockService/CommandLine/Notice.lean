import LockService.CommandLine.Basic

/-!
# What a stopped command line is told

Whoever asks for help gets the commands with their settings; whoever makes a mistake is told which
one, and the same help.
-/

namespace LockService.CommandLine

/-- The name that the program goes by. -/
def programName : String := "lock-service"

/-- The version of the program. -/
def versionText : String := "0.1.0"

/-- How a setting is written. -/
def Setting.form {σ : Type} (setting : Setting σ) : String :=
  match setting.letter with
  | none => "--" ++ setting.name
  | some letter => "--" ++ setting.name ++ "|-" ++ String.singleton letter

/-- A command and its settings on one line. -/
def commandForm {σ : Type} (name : String) (settings : List (Setting σ)) : String :=
  "  " ++ String.intercalate " " (name :: settings.map fun s => "[" ++ s.form ++ " VALUE]")

/-- All commands with their settings. -/
def helpText : List String :=
  ["Usage: " ++ programName ++ " COMMAND [SETTING VALUE]...", "",
    commandForm "serve" serveSettings, commandForm "client" clientSettings,
    commandForm "bench" benchSettings]

/-- What is wrong with a command line, if something is. -/
def Stop.fault? : Stop → Option String
  | .help | .version => none
  | .noCommand => some "no command given"
  | .unknownCommand => some "unknown command"
  | .unknownArgument => some "unknown argument"
  | .missingValue => some "a setting lacks its value"
  | .unknownWord => some "a value is none of the words that can stand there"
  | .invalidValue => some "a value cannot be read"
  | .repeated => some "a setting is given twice"
  | .unwantedValue => some "a value is given that is not taken"

/-- The lines that are printed when the command line stops the program. -/
def Stop.notice (stop : Stop) : List String :=
  match stop with
  | .version => [programName ++ " " ++ versionText]
  | _ => (stop.fault?.map ("error: " ++ ·)).toList ++ helpText

end LockService.CommandLine
