import RowHistory.Arguments
import RowHistory.Connection.Store
import RowHistory.Sync

/-!
# Workspaces

The files that the command line works with: plain ones, which hold bytes, and databases. Each may
be taken for the other: a database is no text, and what is no database cannot be used as one. This
file fixes

* the workspace (`Workspace`) and how a file is read;
* what a command prints and leaves behind (`Workspace.run`), also when its clock is set before each
  line (`Workspace.drive`).
-/

namespace RowHistory

/-- What a file holds. -/
inductive Content where
  | plain (bytes : List UInt8)
  | database (file : Sql.File)

namespace Content

/-- The bytes of a file. A database without tables is empty, and any other one is no text. -/
def bytes : Content → List UInt8
  | .plain bytes => bytes
  | .database file => if file.content.tables.isEmpty then [] else [0xFF]

/-- The file as a database. A single byte counts as nothing. -/
def asDatabase : Content → Sql.File
  | .plain bytes => { foreign := 1 < bytes.length }
  | .database file => file

end Content

/-- The files around the working directory. -/
abbrev Workspace := Folder Content

namespace Workspace

/-- What became of a command. -/
structure Report where
  /-- The lines that are printed. -/
  output : List Json := []
  error : Option RunError := none
  /-- The least severity that is logged. -/
  level : Severity := .info
  log : List LogEntry := []

/-- The bytes of the file that a path leads to. -/
def read (w : Workspace) (path : String) : Except PathError (List UInt8) :=
  match w.follow path with
  | .error e => .error e
  | .ok .folder => .error .isAFolder
  | .ok (.file content) => .ok content.bytes

/-- The configuration of a file. -/
def config (w : Workspace) (path : String) : Except RunError Config :=
  let unreadable (reason : String) : RunError :=
    .config s!"Failed to read config file {path}: {reason}"
  match w.read path with
  | .error e => .error (unreadable e.message)
  | .ok bytes => match Utf8.decode? bytes with
    | none => .error (unreadable "stream did not contain valid UTF-8")
    | some text => Config.parse text

/-- The bytes of the input: a file, or the standard input. A directory can be opened, but not
read. -/
def input (w : Workspace) (stdin : List UInt8) :
    Option String → Except RunError (Except String (List UInt8))
  | none => .ok (.ok stdin)
  | some path => match w.read path with
    | .ok bytes => .ok (.ok bytes)
    | .error .isAFolder => .ok (.error PathError.isAFolder.message)
    | .error e => .error ⟨.file, s!"cannot open {path}: {e.message}"⟩

/-- The database at a place; a new one is empty. -/
def database (w : Workspace) (place : List String) : Sql.File :=
  match w.files.lookup place with
  | some content => content.asDatabase
  | none => {}

/-- Puts a database in its place; what is no database is left alone. -/
def setDatabase (w : Workspace) (place : List String) (f : Sql.File) : Workspace :=
  if f.foreign then w else w.put place (.database f)

/-- The store that a configuration names. -/
def store (w : Workspace) (c : Config) : Store :=
  Store.among w w.database c.target c.initSql

/-- The workspace after a run on a store. -/
def afterRun (w : Workspace) (s : Store) : Workspace :=
  match s.target with
  | .memory => w
  | .file name => match Sql.openNamed? w name with
    | some ⟨.file place, _⟩ => w.setDatabase place s.file
    | _ => w

/-- Versions the rows of an input. -/
def sync {m : Type → Type} [Monad m] (set : Clock → m Clock) (w : Workspace) (clock : Clock)
    (id : String) (stdin : List UInt8) (config : String) (input : Option String) :
    m (Report × Workspace) :=
  match w.config config with
  | .error e => return ({ error := some e }, w)
  | .ok c => match c.severity with
    | .error e => return ({ error := some e }, w)
    | .ok level => match w.input stdin input with
      | .error e => return ({ error := some e, level }, w)
      | .ok bytes => do
        let r ← Sync.drive set c.versioning clock id bytes (w.store c)
        return ({ output := r.output, error := r.error, level, log := r.log },
          w.afterRun r.connection)

/-- What is printed for a good configuration. -/
def summary (c : Config) : Json :=
  .obj [("fields", .int c.versioning.fields.fields.length), ("purge", .bool c.versioning.purge),
    ("status", .str "ok"), ("table", .str c.versioning.layout.path)]

/-- Looks at a configuration. -/
def checkConfig (w : Workspace) (path : String) : Report :=
  match w.config path with
  | .error e => { error := some e }
  | .ok c => { output := [summary c] }

/-- Runs a command. -/
def drive {m : Type → Type} [Monad m] (set : Clock → m Clock) (w : Workspace) (clock : Clock)
    (id : String) (stdin : List UInt8) : Invocation → m (Report × Workspace)
  | .sync config input => w.sync set clock id stdin config input
  | .checkConfig config => return (w.checkConfig config, w)

/-- Runs a command with the readings of one clock. -/
def run (w : Workspace) (clock : Clock) (id : String) (stdin : List UInt8) (c : Invocation) :
    Report × Workspace :=
  Id.run (w.drive pure clock id stdin c)

end Workspace

end RowHistory
