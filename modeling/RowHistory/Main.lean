import RowHistory.Sql.Image
import RowHistory.Workspace
import Std.Time.DateTime.Timestamp

/-!
# The command line

Reads the files that a command names into a workspace, runs the command, writes the database back
and prints what is to be printed: results on the standard output, the log and errors on the
standard error. The time is read from the system before every tick of the clock.
-/

namespace RowHistory.CommandLine

/-- The bytes of a file, if it can be read. -/
def load (path : String) : IO (Option (List UInt8)) := do
  try
    return some (← IO.FS.readBinFile path).toList
  catch _ =>
    return none

/-- A file can be written; it is made if it is not there. -/
def canWrite (path : String) : IO Bool := do
  try
    let _ ← IO.FS.Handle.mk path .append
    return true
  catch _ =>
    return false

/-- The plain files that a command names. -/
def paths : Invocation → List String
  | .sync config input => config :: input.toList
  | .checkConfig config => [config]

/-- The workspace with the database of a name, if it can be opened. -/
def withDatabase (w : Workspace) (name : String) : IO Workspace := do
  let path := ((Sql.Locator.ofName? name).map Sql.Locator.path).getD name
  if ← canWrite path then
    let bytes := (← load path).getD []
    let text := Utf8.decode? bytes
    let content : Content := match (text.bind Json.read?).bind Sql.Database.ofJson? with
      | some database => .database { content := database }
      | none => .plain bytes
    return w.putAt path content
  else
    return w

/-- The workspace of a command, with the database that its configuration names. -/
def workspace (c : Invocation) : IO Workspace := do
  let mut w : Workspace := {}
  for path in paths c do
    if let some bytes ← load path then
      w := w.putAt path (.plain bytes)
  match c with
  | .checkConfig _ => return w
  | .sync config _ => match (Workspace.config w config).toOption.map Config.target with
    | some (.file name) => withDatabase w name
    | _ => return w

/-- All bytes of a stream, behind those that were read. -/
partial def readAll (s : IO.FS.Stream) (before : ByteArray) : IO ByteArray := do
  let chunk ← s.read 65536
  if chunk.isEmpty then
    return before
  else
    readAll s (before ++ chunk)

/-- The time as an instant. -/
def now : IO Instant := do
  let t ← Std.Time.Timestamp.now
  let nanos := t.toNanosecondsSinceUnixEpoch.val
  return (Instant.ofUnix? (nanos.fdiv 1000000000) (nanos.fmod 1000000000).toNat).getD
    (Instant.ofSeconds 0)

/-- Runs a command, and gives its exit code. -/
def run (c : Invocation) : IO UInt32 := do
  let w ← workspace c
  let stdin ← match c with
    | .sync _ none => readAll (← IO.getStdin) .empty
    | _ => pure .empty
  let id := String.ofList (Text.digits (← IO.monoNanosNow))
  let clock := Clock.system fun _ => Instant.ofSeconds 0
  let (report, w) ← w.drive (fun clock => return clock.reads (← now)) clock id stdin.toList c
  for (place, content) in w.files do
    if let .database file := content then
      IO.FS.writeFile ("/".intercalate place) file.content.toJson.render
  for entry in report.log.filter (LogEntry.isEnabled report.level) do
    IO.eprint entry.rendered
  for json in report.output do
    IO.println json.render
  match report.error with
  | some e =>
    IO.eprintln e.text
    return 1
  | none => return 0

/-- How the command line is used. -/
def usage : String :=
  "Usage:\n  sync [--config <path>] [--input <path>]\n  check-config [--config <path>]"

end RowHistory.CommandLine

open RowHistory in
/-- Reads the arguments and runs the command that they ask for. -/
def main (args : List String) : IO UInt32 := do
  match Invocation.parse args with
  | .ok c => CommandLine.run c
  | .error e =>
    if e.exitCode = 0 then
      IO.println CommandLine.usage
    else
      IO.eprintln CommandLine.usage
    return UInt32.ofNat e.exitCode
