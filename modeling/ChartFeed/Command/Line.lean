import ChartFeed.Command.Grammar

/-!
# Reading command lines

`Invocation.read` reads the arguments of a command line.  It goes through them from left to right;
the value of a parameter is checked when the next parameter begins or the level ends.  The level
behind the command is complete before the values before it are checked.

* `Reading` is what was read of one level, and `Reading.scan` reads arguments of it;
* at each level a variable sets an option that the arguments of the level do not;
* where both levels set an option, the inner one counts, unless it only has it from a variable.
-/

set_option autoImplicit false

namespace ChartFeed.Command

/-- Where a value comes from. -/
inductive Origin where
  | argument
  | environment
deriving DecidableEq

/-- Values with their origins, by the names of the parameters. -/
abbrev Values := Dict (Value × Origin)

/-- What was read of one level. -/
structure Reading where
  values : Values := []
  /-- A parameter that is not checked yet, with its text if that has come. -/
  pending : Option (Parameter × Option String) := none
  /-- The operands that may still come. -/
  operands : List Parameter
  /-- Whether only operands may follow. -/
  trailing : Bool := false

namespace Reading

/-! ## Parameters -/

/-- A parameter may be given once. -/
def add (r : Reading) (p : Parameter) (value : Except Halt Value) : Except Halt Reading :=
  if Dict.contains r.values p.name then .error .repeated
  else value.map fun value ↦ { r with values := Dict.insert r.values p.name (value, .argument) }

/-- Takes in a parameter with a text. -/
def give (r : Reading) (p : Parameter) (text : String) : Except Halt Reading :=
  match p.action with
  | .assign read => r.add p (read text)
  | .switch | .help | .version => .error .strayValue

/-- Checks the parameter that is not checked yet. -/
def settle (r : Reading) : Except Halt Reading :=
  match r.pending with
  | none => .ok r
  | some (_, none) => .error .noValue
  | some (p, some text) => ({ r with pending := none } : Reading).give p text

/-- Whether an option waits for its value. -/
def awaits (r : Reading) : Bool :=
  match r.pending with
  | some (_, none) => true
  | _ => false

/-- An option without an attached value. -/
def option (r : Reading) (p : Parameter) : Except Halt Reading := do
  let r ← r.settle
  match p.action with
  | .assign _ => return { r with pending := some (p, none) }
  | .switch => r.add p (.ok .on)
  | .help => .error (.help none)
  | .version => .error .version

/-- An option with an attached value. -/
def optionWith (r : Reading) (p : Parameter) (text : String) : Except Halt Reading :=
  match p.action with
  | .assign _ => do
    let r ← r.settle
    r.give p text
  | .switch | .help | .version => .error .strayValue

/-! ## Arguments -/

/-- An option by its name, which a value may follow behind an equals sign. -/
def long (g : Grammar) (cs : List Char) (r : Reading) : Except Halt Reading :=
  let name := String.ofList (cs.takeWhile (· != '='))
  match g.options.find? fun p ↦ p.name == name with
  | none => .error .unknownArgument
  | some p =>
    match cs.dropWhile (· != '=') with
    | [] => r.option p
    | _ :: text => r.optionWith p (String.ofList text)

/-- Options by their letters; what follows the letter of an option with a value is the value. -/
def letters (g : Grammar) : List Char → Reading → Except Halt Reading
  | [], r => .ok r
  | c :: rest, r =>
    match g.options.find? fun p ↦ p.letter == some c with
    | none => .error .unknownArgument
    | some p =>
      match p.action, rest with
      | .assign _, [] => r.option p
      | .assign _, '=' :: text => r.optionWith p (String.ofList text)
      | .assign _, text => r.optionWith p (String.ofList text)
      | _, rest => do
        let r ← r.option p
        letters g rest r

/-- An argument that is no option. -/
def operand (g : Grammar) (arg : String) (r : Reading) : Except Halt Reading :=
  match r.operands with
  | p :: operands => do
    let r ← r.settle
    return { r with pending := some (p, some arg), operands := operands }
  | [] =>
    if g.commands.isEmpty ∨ (r.trailing ∧ arg ∈ g.commands) then .error .unknownArgument
    else .error .unknownCommand

/-- An argument that is neither a command nor two dashes. -/
def argument (g : Grammar) (arg : String) (r : Reading) : Except Halt Reading :=
  match r.trailing, arg.toList with
  | false, '-' :: '-' :: cs => r.long g cs
  | false, '-' :: c :: cs => r.letters g (c :: cs)
  | trailing, _ =>
    match r.pending, trailing with
    | some (p, none), false => .ok { r with pending := some (p, some arg) }
    | _, _ => r.operand g arg

/-- Reads arguments up to a command, and gives it with the arguments behind it. -/
def scan (g : Grammar) :
    List String → Reading → Except Halt (Reading × Option (String × List String))
  | [], r => .ok (r, none)
  | arg :: rest, r =>
    if !r.trailing && !r.awaits && g.commands.contains arg then .ok (r, some (arg, rest))
    else if !r.trailing && arg == "--" then scan g rest { r with trailing := true }
    else do
      let r ← r.argument g arg
      scan g rest r

/-! ## Variables -/

/-- Sets the options that have no value from variables. -/
def fill (env : Dict String) : List Parameter → Values → Except Halt Values
  | [], values => .ok values
  | p :: rest, values =>
    match Dict.contains values p.name, p.setBy.bind (Dict.get? env), p.action with
    | false, some text, .assign read => do
      let value ← read text
      fill env rest (Dict.insert values p.name (value, .environment))
    | _, _, _ => fill env rest values

/-- The values of a level that has come to its end. -/
def finish (g : Grammar) (env : Dict String) (r : Reading) : Except Halt Values := do
  let r ← r.settle
  fill env g.options r.values

end Reading

/-! ## Invocations -/

/-- Of the values of both levels the inner one counts, unless it only comes from a variable. -/
def Values.over (outer inner : Values) : Values :=
  inner.foldl (fun values entry ↦
    match Dict.get? values entry.1, entry.2.2 with
    | some (_, .argument), .environment => values
    | _, _ => Dict.insert values entry.1 entry.2) outer

/-- The value of a path. -/
def Values.path? (values : Values) (name : String) : Option String :=
  match Dict.get? values name with
  | some (.path p, _) => some p
  | _ => none

/-- The value of a number. -/
def Values.number? (values : Values) (name : String) : Option Nat :=
  match Dict.get? values name with
  | some (.number n, _) => some n
  | _ => none

/-- The value of a truth value. -/
def Values.truth? (values : Values) (name : String) : Option Bool :=
  match Dict.get? values name with
  | some (.truth b, _) => some b
  | _ => none

/-- The value of an eviction rule. -/
def Values.eviction? (values : Values) (name : String) : Option Eviction :=
  match Dict.get? values name with
  | some (.eviction e, _) => some e
  | _ => none

/-- What the values say about the configuration. -/
def Values.overrides (values : Values) : Overrides where
  file := values.path? "config"
  rowLimit := values.number? "row-limit"
  endpoints := values.truth? "sip15"
  maxEntries := values.number? "cache-max-entries"
  eviction := values.eviction? "cache-eviction-policy"
  timeout := values.number? "cache-timeout-secs"

/-- What is to be done. -/
inductive Task where
  /-- Prints the canonical form of the query in a file. -/
  | normalize (query : String)
  /-- Prints its cache key. -/
  | cacheKey (query : String)
  /-- Executes it on the records in a file. -/
  | run (query data : String) (force : Bool)
deriving DecidableEq

/-- The task of a command with the values given to it. -/
def Task.ofValues (command : String) (values : Values) : Except Halt Task :=
  match command, values.path? queryOperand.name with
  | _, none => .error .missingArgument
  | "normalize", some query => .ok (.normalize query)
  | "cache-key", some query => .ok (.cacheKey query)
  | _, some query =>
    match values.path? dataOption.name with
    | none => .error .missingArgument
    | some data => .ok (.run query data (Dict.contains values forceOption.name))

/-- What a command line asks for. -/
structure Invocation where
  overrides : Overrides
  task : Task
deriving DecidableEq

namespace Invocation

/-- The help that is asked for. -/
def helpFor : List String → Halt
  | [] => .help none
  | [command] => if commandNames.contains command then .help (some command) else .unknownCommand
  | _ => .unknownCommand

/-- Help that is asked for behind a command is about it. -/
def aboutCommand (command : String) : Halt → Halt
  | .help none => .help (some command)
  | halt => halt

/-- The task of a command, and the values behind it. -/
def readCommand (env : Dict String) (f : CommandForm) (args : List String) :
    Except Halt (Task × Values) := do
  let (r, _) ← Reading.scan f.grammar args { operands := f.operands }
  let values ← r.finish f.grammar env
  let task ← Task.ofValues f.name values
  return (task, values)

/-- Nothing given is told apart from a missing command. -/
def withoutCommand (values : Values) : Halt := if values.isEmpty then .empty else .missingCommand

/-- Reads the arguments of a command line. -/
def read (env : Dict String) (args : List String) : Except Halt Invocation := do
  let (outer, command) ← Reading.scan .top args { operands := [] }
  match command with
  | none =>
    let values ← outer.finish .top env
    .error (withoutCommand values)
  | some (name, rest) =>
    match form? name with
    | none => .error (helpFor rest)
    | some f =>
      let (task, inner) ← (readCommand env f rest).mapError (aboutCommand name)
      let values ← outer.finish .top env
      return ⟨(values.over inner).overrides, task⟩

end Invocation

end ChartFeed.Command
