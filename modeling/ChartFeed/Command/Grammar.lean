import ChartFeed.Cache.Memory
import ChartFeed.Configuration.Layer
import ChartFeed.Text.Digit

/-!
# The grammar of command lines

A command line names a command, with operands and options.  Options may stand before the command or
behind it, and most of them can be set by a variable instead.

* `Parameter` is an option or an operand, and `Action` what it does;
* `Grammar` is what may stand at one level of a command line: before the command (`Grammar.top`) or
  behind it (`CommandForm.grammar`);
* `Halt` lists why a command line is not carried out.
-/

set_option autoImplicit false

namespace ChartFeed.Command

/-- Why a command line is not carried out. -/
inductive Halt where
  /-- A value that cannot be read. -/
  | badValue
  /-- An option without a value, or with an empty one where that stands for nothing. -/
  | noValue
  /-- A value that is none of those allowed. -/
  | notAChoice
  /-- A value for an option that has none. -/
  | strayValue
  | unknownArgument
  | unknownCommand
  /-- An option that is given twice. -/
  | repeated
  | missingArgument
  | missingCommand
  /-- Nothing at all is given. -/
  | empty
  /-- The help for a command, or for all, is asked for. -/
  | help (command : Option String)
  | version
deriving DecidableEq

/-- The value of an option or an operand. -/
inductive Value where
  | path (path : String)
  | number (n : Nat)
  | truth (b : Bool)
  | eviction (e : Eviction)
  /-- The option is given. -/
  | on
deriving DecidableEq

namespace Value

/-- A path is not empty. -/
def readPath (s : String) : Except Halt Value :=
  if s.isEmpty then .error .noValue else .ok (.path s)

/-- A number of 64 bits; a plus sign may stand in front. -/
def readNumber (s : String) : Except Halt Value :=
  let digits := match s.toList with
    | '+' :: rest => rest
    | cs => cs
  match Text.naturalOf? digits with
  | some n => if n ≤ uint64Max then .ok (.number n) else .error .badValue
  | none => .error .badValue

/-- A truth value. -/
def readTruth (s : String) : Except Halt Value :=
  if s = "true" then .ok (.truth true)
  else if s = "false" then .ok (.truth false)
  else .error .notAChoice

/-- A rule for the eviction of entries, in small letters or capitals. -/
def readEviction (s : String) : Except Halt Value :=
  match Dict.get? Eviction.names (String.ofList (Text.lower s.toList)) with
  | some e => .ok (.eviction e)
  | none => .error .badValue

end Value

/-- What a parameter does. -/
inductive Action where
  /-- Sets a value. -/
  | assign (read : String → Except Halt Value)
  /-- Is on when it is given. -/
  | switch
  | help
  | version

/-- An option or an operand. -/
structure Parameter where
  name : String
  /-- The letter of an option. -/
  letter : Option Char := none
  /-- The variable that can set it. -/
  setBy : Option String := none
  isRequired : Bool := false
  action : Action
  /-- What the help says about it. -/
  summary : String
  /-- The values that the help lists. -/
  choices : List String := []

/-- What may stand at one level of a command line. -/
structure Grammar where
  options : List Parameter
  operands : List Parameter
  commands : List String

/-- The options that are allowed everywhere. -/
def everywhere : List Parameter := [
  { name := "config", letter := some 'c', setBy := some "CHARTQUERY_CONFIG",
    action := .assign Value.readPath, summary := "Path to config file" },
  { name := "row-limit", setBy := some "CHARTQUERY_ROW_LIMIT",
    action := .assign Value.readNumber,
    summary := "Row limit applied to queries that do not set one" },
  { name := "sip15", setBy := some "CHARTQUERY_SIP15", action := .assign Value.readTruth,
    summary := "Attach default time range endpoints to queries that carry none",
    choices := ["true", "false"] },
  { name := "cache-max-entries", setBy := some "CHARTQUERY_CACHE_MAX_ENTRIES",
    action := .assign Value.readNumber, summary := "Maximum number of cache entries" },
  { name := "cache-eviction-policy", setBy := some "CHARTQUERY_CACHE_EVICTION_POLICY",
    action := .assign Value.readEviction, summary := "Cache eviction policy (tinylfu or lru)" },
  { name := "cache-timeout-secs", setBy := some "CHARTQUERY_CACHE_TIMEOUT_SECS",
    action := .assign Value.readNumber, summary := "Default TTL for cached payloads, in seconds" }]

/-- The option that asks for help. -/
def helpOption : Parameter :=
  { name := "help", letter := some 'h', action := .help, summary := "Print help" }

/-- The option that asks for the version. -/
def versionOption : Parameter :=
  { name := "version", letter := some 'V', action := .version, summary := "Print version" }

/-- The file with the query. -/
def queryOperand : Parameter :=
  { name := "query", isRequired := true, action := .assign Value.readPath,
    summary := "JSON file holding one query object" }

/-- The file with the records. -/
def dataOption : Parameter :=
  { name := "data", letter := some 'd', isRequired := true, action := .assign Value.readPath,
    summary := "JSON file holding an array of records" }

/-- The option that leaves the cache unread. -/
def forceOption : Parameter :=
  { name := "force", letter := some 'f', action := .switch, summary := "Bypass cached payloads" }

/-- A command with what it takes. -/
structure CommandForm where
  name : String
  summary : String
  operands : List Parameter
  options : List Parameter

/-- The commands. -/
def forms : List CommandForm := [
  ⟨"normalize", "Normalize a query object and print its canonical form", [queryOperand], []⟩,
  ⟨"cache-key", "Print the cache key a query object resolves to", [queryOperand], []⟩,
  ⟨"run", "Execute a query against a JSON records file and print the payload", [queryOperand],
    [dataOption, forceOption]⟩]

/-- The command with this name. -/
def form? (name : String) : Option CommandForm := forms.find? fun f ↦ f.name == name

/-- The command that gives help about the others. -/
def helpCommand : String := "help"

/-- The names of all commands. -/
def commandNames : List String := forms.map CommandForm.name ++ [helpCommand]

/-- What may stand before the command. -/
def Grammar.top : Grammar := ⟨everywhere ++ [helpOption, versionOption], [], commandNames⟩

/-- What may stand behind the command. -/
def CommandForm.grammar (f : CommandForm) : Grammar :=
  ⟨f.options ++ everywhere ++ [helpOption], f.operands, []⟩

end ChartFeed.Command
