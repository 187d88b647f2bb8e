import ChartFeed.Command.Grammar

/-!
# The texts of the command line

`helpText` is the help about a command or about all of them, and `versionText` the version.  What a
variable is set to stands beside the option that it sets.

Summaries stand on lines of their own below the options, and are broken at `lineWidth`.
-/

set_option autoImplicit false

namespace ChartFeed.Command

/-- The name of the program. -/
def programName : String := "chartquery"

/-- The name and the version. -/
def versionText : String := programName ++ " 0.4.2\n"

/-- How long the lines of a summary may be. -/
def lineWidth : Nat := 90

/-- The word for a value. -/
def placeholder (p : Parameter) : String :=
  "<" ++ String.ofList (p.name.toList.map fun c ↦ if c = '-' then '_' else c.toUpper) ++ ">"

/-- Whether a value follows. -/
def takesValue (p : Parameter) : Bool :=
  match p.action with
  | .assign _ => true
  | _ => false

/-- An option by its name. -/
def longForm (p : Parameter) : String :=
  "--" ++ p.name ++ (if takesValue p then " " ++ placeholder p else "")

/-- The first line about an option. -/
def optionLine (p : Parameter) : String :=
  match p.letter with
  | some c => "  -" ++ String.singleton c ++ ", " ++ longForm p
  | none => "      " ++ longForm p

/-- Puts words on lines; `line` is the line so far. -/
def fillLines (line : String) : List String → List String
  | [] => [line]
  | word :: rest =>
    if line.isEmpty then fillLines word rest
    else if line.length + 1 + word.length ≤ lineWidth then fillLines (line ++ " " ++ word) rest
    else line :: fillLines word rest

/-- The summary of an option with its variable and its choices. -/
def summaryWords (env : Dict String) (p : Parameter) : List String :=
  let setting := match p.setBy with
    | some name => " [env: " ++ name ++ "=" ++ (Dict.get? env name).getD "" ++ "]"
    | none => ""
  let choices :=
    if p.choices.isEmpty then "" else " [possible values: " ++ ", ".intercalate p.choices ++ "]"
  (p.summary ++ setting ++ choices).splitOn " "

/-- The lines about an option. -/
def optionLines (env : Dict String) (p : Parameter) : List String :=
  optionLine p :: (fillLines "" (summaryWords env p)).map ("          " ++ ·)

/-- Entries in two columns. -/
def tableLines (entries : List (String × String)) : List String :=
  let width := entries.foldl (fun n e ↦ max n e.1.length) 0
  entries.map fun (name, summary) ↦
    "  " ++ name ++ String.ofList (List.replicate (width + 2 - name.length) ' ') ++ summary

/-- The options of a command in the order of the help: those of the command come behind the one
that names a configuration file. -/
def listedOptions (f : CommandForm) : List Parameter :=
  everywhere.take 1 ++ f.options ++ everywhere.drop 1 ++ [helpOption]

/-- What a command takes, as a pattern. -/
def pattern (f : CommandForm) : String :=
  " ".intercalate (["[OPTIONS]"] ++ (f.options.filter Parameter.isRequired).map longForm
    ++ f.operands.map placeholder)

/-- The lines of a help text. -/
def joinHelp (about usage : String) (sections : List (String × List String)) : String :=
  "\n".intercalate ([about, "", "Usage: " ++ programName ++ " " ++ usage] ++
    sections.flatMap fun (title, lines) ↦ ["", title ++ ":"] ++ lines) ++ "\n"

/-- The summary of the command that gives help. -/
def helpSummary : String := "Print this message or the help of the given subcommand(s)"

/-- The help about a command. -/
def commandHelp (env : Dict String) (f : CommandForm) : String :=
  joinHelp f.summary (f.name ++ " " ++ pattern f) [
    ("Arguments", tableLines (f.operands.map fun p ↦ (placeholder p, p.summary))),
    ("Options", (listedOptions f).flatMap (optionLines env))]

/-- The help about all commands. -/
def programHelp (env : Dict String) : String :=
  joinHelp "Chart data query engine" "[OPTIONS] <COMMAND>" [
    ("Commands",
      tableLines (forms.map (fun f ↦ (f.name, f.summary)) ++ [(helpCommand, helpSummary)])),
    ("Options", (everywhere ++ [helpOption, versionOption]).flatMap (optionLines env))]

/-- The help about help. -/
def helpHelp : String :=
  joinHelp helpSummary (helpCommand ++ " [COMMAND]...") [
    ("Arguments", tableLines [("[COMMAND]...", "Print help for the subcommand(s)")])]

/-- The help about a command or about all. -/
def helpText (env : Dict String) : Option String → String
  | none => programHelp env
  | some command =>
    match form? command with
    | some f => commandHelp env f
    | none => helpHelp

end ChartFeed.Command
