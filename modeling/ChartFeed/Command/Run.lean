import ChartFeed.Chart.Basic
import ChartFeed.Command.Help
import ChartFeed.Command.Line
import ChartFeed.Configuration.Load
import ChartFeed.Host.Variables

/-!
# Carrying out commands

`Command.run` is the whole program on a host: it loads the variables of a file, reads the command
line, loads the configuration and carries out the task.

* `Application` is what tasks need: a configuration and a cache;
* `Application.loadQuery` reads a query from a file;
* `Outcome` is what the program leaves: its texts and its exit code.
-/

set_option autoImplicit false

namespace ChartFeed

/-- Why a task is not carried out. -/
inductive TaskFault where
  | configuration (fault : ConfigurationFault)
  | cache (fault : CacheFault)
  | unreadableQuery (path : String)
  | malformedQuery (path : String)
  | rejected (r : Rejection)
  | chart (fault : ChartFault)
deriving DecidableEq

/-- The wording of a task fault. -/
def TaskFault.message : TaskFault → String
  | .configuration fault => fault.message
  | .cache fault => "Failed to initialize cache service: " ++ fault.message
  | .unreadableQuery path => "Failed to read query file: " ++ path
  | .malformedQuery path => "Failed to parse query file: " ++ path
  | .rejected r => r.message
  | .chart fault => fault.message

/-- What tasks need. -/
structure Application where
  configuration : Configuration
  cache : Cache Memory

namespace Application

section

variable {m : Type → Type} [Monad m]

/-- The application of a configuration. -/
def ofConfiguration (c : Configuration) : Except TaskFault Application :=
  match Cache.inMemory c.cache with
  | .ok cache => .ok ⟨c, cache⟩
  | .error fault => .error (.cache fault)

/-- The application that a command line and the files of a host make. -/
def load (h : Host m) (overrides : Overrides) : m (Except TaskFault Application) := do
  match ← Configuration.load h overrides with
  | .error fault => return .error (.configuration fault)
  | .ok c => return ofConfiguration c

/-- The query in the text of a file. -/
def queryOfText (app : Application) (now : Instant) (path text : String) : Except TaskFault Query :=
  match Json.parse text with
  | .error _ => .error (.malformedQuery path)
  | .ok v =>
    match Query.ofJson app.configuration.settings app.configuration.datasources now v with
    | .ok q => .ok q
    | .error r => .error (.rejected r)

/-- The query in a file. -/
def loadQuery (app : Application) (h : Host m) (path : String) : m (Except TaskFault Query) := do
  match ← h.read path with
  | .error _ => return .error (.unreadableQuery path)
  | .ok text => return app.queryOfText (← h.now) path text

/-- The payload of a query on the records in a file. -/
def execute (app : Application) (h : Host m) (q : Query) (data : String) (force : Bool) :
    m (Except TaskFault Payload) := do
  let service : ChartService Memory Unit := ⟨Source.ofRecords data (← h.read data), some app.cache⟩
  match (service.payload (← h.now) q force [] ()).1 with
  | .ok p => return .ok p
  | .error fault => return .error (.chart fault)

end

end Application

namespace Command

/-- What the program leaves. -/
structure Outcome where
  exitCode : Nat
  output : String
  errors : String
deriving DecidableEq

/-- The wording of what is wrong with a command line. -/
def Halt.message : Halt → String
  | .badValue => "invalid value for an option"
  | .noValue => "a value is required"
  | .notAChoice => "invalid value for an option with choices"
  | .strayValue => "unexpected value for an option"
  | .unknownArgument => "unexpected argument"
  | .unknownCommand => "unrecognized subcommand"
  | .repeated => "an option cannot be used multiple times"
  | .missingArgument => "a required argument was not provided"
  | .missingCommand => "a subcommand is required"
  | .empty | .help _ | .version => ""

/-- What is left when a command line is not carried out. -/
def Halt.outcome (env : Dict String) : Halt → Outcome
  | .help command => ⟨0, helpText env command, ""⟩
  | .version => ⟨0, versionText, ""⟩
  | .empty => ⟨2, "", helpText env none⟩
  | halt => ⟨2, "", "error: " ++ halt.message ++ "\n"⟩

section

variable {m : Type → Type} [Monad m]

/-- The variables among these names that a host has. -/
def collect (h : Host m) : List String → m (Dict String)
  | [] => return []
  | name :: rest => do
    let others ← collect h rest
    match ← h.valueOf? name with
    | some value => return (name, value) :: others
    | none => return others

/-- The variables that set options. -/
def environment (h : Host m) : m (Dict String) := collect h (everywhere.filterMap Parameter.setBy)

/-- Carries out a task; the result is printed. -/
def perform (h : Host m) (app : Application) : Task → m (Except TaskFault Json)
  | .normalize path => do
    return (← app.loadQuery h path).map fun q ↦ .obj q.canonicalMapping
  | .cacheKey path => do
    return (← app.loadQuery h path).map fun q ↦ .str (q.cacheKey [])
  | .run path data force => do
    match ← app.loadQuery h path with
    | .error fault => return .error fault
    | .ok q => return (← app.execute h q data force).map Payload.toJson

/-- Carries out what a command line asks for. -/
def invoke (h : Host m) (invocation : Invocation) : m (Except TaskFault Json) := do
  match ← Application.load h invocation.overrides with
  | .error fault => return .error fault
  | .ok app => perform h app invocation.task

/-- What is left when a task was tried. -/
def outcomeOf : Except TaskFault Json → Outcome
  | .ok v => ⟨0, v.prettyText ++ "\n", ""⟩
  | .error fault => ⟨1, "", "\nError: " ++ fault.message ++ "\n\n"⟩

/-- The program. -/
def run (h : Host m) (args : List String) : m Outcome := do
  let h := h.withVariables (← Variables.load h)
  let env ← environment h
  match Invocation.read env args with
  | .error halt => return halt.outcome env
  | .ok invocation => return outcomeOf (← invoke h invocation)

end

end Command

end ChartFeed
