/-!
# Arguments of the command line

There are two commands: `sync` versions rows into a table, and `check-config` only looks at a
configuration. Both take the path of the configuration, and `sync` that of its input. This file
fixes

* what can be asked for (`Invocation`), and why arguments are refused (`UsageError`);
* the options of a command (`OptionName`), which come in any order and at most once (`Options`);
* how arguments are read (`Invocation.parse`). The first fault is reported; a value is looked at
  only when the next known option, or the end, shows that it is complete.
-/

namespace RowHistory

/-- What is to be done. -/
inductive Invocation where
  /-- Version the rows of an input, or of the standard input. -/
  | sync (config : String) (input : Option String)
  /-- Look at a configuration. -/
  | checkConfig (config : String)
deriving DecidableEq, Repr

/-- Why nothing is done. -/
inductive UsageError where
  /-- Nothing was asked for. -/
  | nothingAsked
  /-- Help was asked for. -/
  | help
  /-- The version was asked for. -/
  | version
  /-- There is no such command. -/
  | unknownCommand
  /-- There is no such option, or an argument is too many. -/
  | unknownArgument
  /-- An option has no value. -/
  | missingValue
  /-- An option comes twice. -/
  | repeatedOption
  /-- An option that takes no value has one. -/
  | surplusValue
deriving DecidableEq, Repr

/-- The exit code: only asking for help or the version is no failure. -/
def UsageError.exitCode : UsageError → Nat
  | .help => 0
  | .version => 0
  | _ => 2

namespace Arguments

/-- The options that take a value. -/
inductive OptionName where
  | config
  | input
deriving DecidableEq, Repr

/-- The option of a name. -/
def OptionName.ofName? : String → Option OptionName
  | "config" => some .config
  | "input" => some .input
  | _ => none

/-- The path of the configuration if none is given. -/
def defaultConfig : String := "./versioning.json"

/-- What was read so far. -/
structure State where
  config : Option String := none
  input : Option String := none
  /-- The option that was read last, whose value was not looked at. -/
  pending : Option (OptionName × Option String) := none
  /-- Only plain arguments follow. -/
  plainOnly : Bool := false
deriving DecidableEq, Repr

namespace State

/-- The value of an option. -/
def get? (s : State) : OptionName → Option String
  | .config => s.config
  | .input => s.input

/-- Sets an option to a value, which must not be empty, once. -/
def set (s : State) (name : OptionName) (value : String) : Except UsageError State :=
  if (s.get? name).isSome then .error .repeatedOption
  else if value.isEmpty then .error .missingValue
  else match name with
    | .config => .ok { s with config := some value }
    | .input => .ok { s with input := some value }

/-- Looks at the option that was read last. -/
def settle (s : State) : Except UsageError State :=
  match s.pending with
  | none => .ok s
  | some (_, none) => .error .missingValue
  | some (name, some value) => { s with pending := none }.set name value

end State

/-- The name and the value of a long option, without its two hyphens. -/
def splitValue (cs : List Char) : String × Option String :=
  let (name, rest) := cs.span (· ≠ '=')
  (String.ofList name, if rest.isEmpty then none else some (String.ofList (rest.drop 1)))

/-- Reads a long option. -/
def readLong (known : List OptionName) (s : State) (cs : List Char) : Except UsageError State :=
  let (name, value) := splitValue cs
  match (OptionName.ofName? name).filter known.contains with
  | some option => match value with
    | some value => s.settle.bind (·.set option value)
    | none => s.settle.map fun s => { s with pending := some (option, none) }
  | none =>
    if name = "help" then
      if value.isSome then .error .surplusValue else s.settle.bind fun _ => .error .help
    else .error .unknownArgument

/-- Reads an argument that is no option: the value of the option before it, or one too many. -/
def readPlain (s : State) (arg : String) : Except UsageError State :=
  match s.pending with
  | some (name, none) => .ok { s with pending := some (name, some arg) }
  | _ => .error .unknownArgument

/-- Reads one argument of a command. -/
def read (known : List OptionName) (s : State) (arg : String) : Except UsageError State :=
  if s.plainOnly then .error .unknownArgument
  else match arg.toList with
    | ['-', '-'] => .ok { s with plainOnly := true }
    | '-' :: '-' :: cs => readLong known s cs
    | '-' :: 'h' :: _ => s.settle.bind fun _ => .error .help
    | '-' :: _ :: _ => .error .unknownArgument
    | _ => readPlain s arg

/-- Reads the arguments of a command. -/
def readAll (known : List OptionName) (args : List String) : Except UsageError State :=
  (args.foldlM (read known) {}).bind State.settle

/-- Asks for help on commands, one inside the other; none of them has commands inside. -/
def help : List String → UsageError
  | [] => .help
  | [name] => if ["sync", "check-config", "help"].contains name then .help else .unknownCommand
  | _ => .unknownCommand

/-- Reads what stands before any command. -/
def readTop : List String → UsageError
  | [] => .nothingAsked
  | arg :: args => match arg.toList with
    | ['-', '-'] => match args with
      | [] => .nothingAsked
      | name :: _ =>
        if ["sync", "check-config", "help"].contains name then .unknownArgument
        else .unknownCommand
    | '-' :: '-' :: cs => match splitValue cs with
      | ("help", none) => .help
      | ("version", none) => .version
      | ("help", some _) => .surplusValue
      | ("version", some _) => .surplusValue
      | _ => .unknownArgument
    | '-' :: 'h' :: _ => .help
    | '-' :: 'V' :: _ => .version
    | '-' :: _ :: _ => .unknownArgument
    | _ => .unknownCommand

end Arguments

namespace Invocation

open Arguments

/-- What arguments ask for. -/
def parse : List String → Except UsageError Invocation
  | "sync" :: args => (readAll [.config, .input] args).map fun s =>
      .sync (s.config.getD defaultConfig) s.input
  | "check-config" :: args => (readAll [.config] args).map fun s =>
      .checkConfig (s.config.getD defaultConfig)
  | "help" :: args => .error (help args)
  | args => .error (readTop args)

end Invocation

end RowHistory
