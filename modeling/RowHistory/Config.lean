import RowHistory.Log.Basic
import RowHistory.Options

/-!
# Configurations

What a run of the command line is told: the database, what is run on a new connection, how much
is logged, and the options of the session. This file fixes

* the failures of a run (`RunError`);
* the configuration, its check and its JSON form (`Config`);
* which database it names (`Target`).
-/

namespace RowHistory

/-- The kinds of failures of a run. -/
inductive RunCode where
  /-- The configuration is unusable. -/
  | config
  /-- A file could not be read. -/
  | file
  /-- An input line is unusable. -/
  | input
  /-- The session failed. -/
  | sync
deriving DecidableEq, Repr

/-- The name of a kind. -/
def RunCode.name : RunCode → String
  | .config => "VERSIONING_CLI_CONFIG_ERROR"
  | .file => "VERSIONING_CLI_IO_ERROR"
  | .input => "VERSIONING_CLI_INPUT_ERROR"
  | .sync => "VERSIONING_CLI_SYNC_FAILED"

/-- Why a run failed. -/
structure RunError where
  code : RunCode
  message : String
deriving DecidableEq, Repr

namespace RunError

/-- The text of a failure. -/
def text (e : RunError) : String :=
  s!"{e.code.name}: {e.message}"

/-- The configuration is unusable. -/
def config (message : String) : RunError :=
  ⟨.config, message⟩

/-- An input line is unusable. -/
def input (line : Nat) (message : String) : RunError :=
  ⟨.input, s!"line {line}: {message}"⟩

/-- A failure of the session; unusable options are the configuration's fault. -/
def ofFailure : Failure → RunError
  | .config message => ⟨.config, message⟩
  | e => ⟨.sync, e.message⟩

end RunError

/-- A configuration. -/
structure Config where
  database : String
  /-- What is run on every new connection. -/
  initSql : Option String := none
  logLevel : String := "info"
  versioning : Options
deriving DecidableEq

/-- Where the tables are kept. -/
inductive Target where
  /-- In memory, for one connection. -/
  | memory
  /-- In a file. -/
  | file (path : String)
deriving DecidableEq, Repr

namespace Target

/-- The form of a target in messages. -/
def inspect : Target → String
  | .memory => "Memory"
  | .file path => s!"File({Text.inspect path})"

/-- The name of a target in logs. -/
def describe : Target → String
  | .memory => "sqlite::memory:"
  | .file path => s!"sqlite:{path}"

end Target

namespace Config

/-- The path that stands for a database in memory. -/
def memoryPath : String := ":memory:"

/-- The database that is named. -/
def target (c : Config) : Target :=
  if c.database = memoryPath then .memory else .file c.database

/-- The least severity that is logged. -/
def severity (c : Config) : Except RunError Severity :=
  (Severity.parse c.logLevel).mapError RunError.config

/-- The configuration is consistent; the first fault is reported. -/
def validate (c : Config) : Except RunError Unit :=
  if Text.allBlank c.database then .error (.config "database is required")
  else match c.severity with
    | .error e => .error e
    | .ok _ => c.versioning.validate.mapError RunError.ofFailure

/-- The members in order of declaration. -/
def memberNames : List String :=
  ["database", "init_sql", "log_level", "versioning"]

/-- A configuration from a record. -/
def ofJson? (j : Json) : Option Config := do
  match ← Json.record? memberNames j with
  | [database, initSql, logLevel, versioning] =>
    return {
      database := ← Json.required Json.text? database
      initSql := ← Json.defaulted (Json.nullable Json.text?) none initSql
      logLevel := ← Json.defaulted Json.text? "info" logLevel
      versioning := ← Json.required Options.ofJson? versioning }
  | _ => none

/-- A configuration as a record. -/
def toJson (c : Config) : Json :=
  .obj [("database", .str c.database), ("init_sql", (c.initSql.map Json.str).getD .null),
    ("log_level", .str c.logLevel), ("versioning", c.versioning.toJson)]

/-- What is wanted of a record of a configuration. -/
def demand : Json.Demand :=
  .fields (memberNames.map fun name =>
    (name, if name = "versioning" then Options.demand else .whole))

/-- The configuration that a text holds, if it is consistent. -/
def parse (text : String) : Except RunError Config :=
  match (Json.readWanted? demand text).bind ofJson? with
  | none => .error (.config "Failed to parse config")
  | some c => c.validate.map fun () => c

end Config

end RowHistory
