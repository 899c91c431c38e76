import RowHistory.Connection.Store
import RowHistory.Options
import RowHistory.Proofs.Text.Bytes

/-!
# Evaluating stores

What happens on a given store can be computed, but most of the work is to read its statements. As
long as every character is one byte, the characters of a statement can be read off its bytes; and a
statement that is known is recognized by its bytes, and need not be read again. The store answers as
before. This file fixes

* reading with the characters read off, where some texts are known (`Sql.Command.readKnown`);
* statements on a store that are read in some way (`Store.reading`);
* that a store may be evaluated with the statements of a session known (`Store.connection_eq`).
-/

namespace RowHistory

open Sql

/-- The lexemes of a text whose characters are read off. -/
def Sql.scanBytes (sql : String) : List Lexeme :=
  scanFrom (Text.readOff sql).length 0 (Text.readOff sql)

theorem Sql.scan_eq : scan = scanBytes := by
  funext sql
  rw [scan, scanBytes, ← Text.toList_eq]

/-- Reads the first command of a text that is divided into lexemes in some way. -/
def Sql.Command.readBy (scan : String → List Lexeme) (sql : String) :
    Except SyntaxError Command.Reading := do
  let (command, cursor) ← Reader.command ⟨skipSemicolons (scan sql), 0⟩
  match cursor.rest with
  | [] => return ⟨command, cursor.parameters, ""⟩
  | l :: _ =>
    if l.token = .sign .semicolon then
      return ⟨command, cursor.parameters, String.ofList l.after⟩
    else
      throw (if l.token = .unknown then .unrecognized l else .near l)

/-- Reads the first command of a text, with the characters read off. If the text is among the
known ones, it is that one which is read, so that an evaluation reads it once. -/
def Sql.Command.readKnown (known : List String) (sql : String) : Except SyntaxError Command.Reading :=
  (known.find? fun text => Text.bytes text == Text.bytes sql).elim (readBy scanBytes sql)
    (readBy scanBytes)

theorem Sql.Command.read_eq (known : List String) : Command.read = readKnown known := by
  have hread : Command.read = readBy scanBytes := by
    rw [← scan_eq]
    rfl
  rw [hread]
  funext sql
  unfold readKnown
  cases hfound : known.find? fun text => Text.bytes text == Text.bytes sql with
  | none => rfl
  | some text =>
    have hbytes : Text.bytes text = Text.bytes sql := by simpa using List.find?_some hfound
    rw [Option.elim_some, Text.bytes_inj.mp hbytes]

/-- The texts of the statements that a session runs. -/
def Options.texts (o : Options) : List String :=
  (StatementKind.all.filterMap fun kind => (o.layout.statement kind).toOption.map Statement.sql) ++
    ((o.layout.purge o.purgeWhere).toOption.map Statement.sql).toList

/-- Prepares what a statement was read as. -/
def Sql.Access.prepareRead (a : Access) :
    Except SyntaxError Command.Reading → Except SqlError Unit × Access
  | .error e => (.error (.malformed e), a)
  | .ok r => match a.plan r.command with
    | (.error e, a) => (.error e, a)
    | (.ok _, a) => (.ok (), a)

/-- Runs what a statement was read as. -/
def Sql.Access.performRead (a : Access) (supplied : List Cell) :
    Except SyntaxError Command.Reading → Except SqlError Answer × Access
  | .error e => (.error (.malformed e), a.begin)
  | .ok r => match a.begin.plan r.command with
    | (.error e, a) => (.error e, a)
    | (.ok p, a) =>
      if supplied.length = r.parameters then a.run supplied p
      else (.error (.parameterCount (min supplied.length (r.parameters + 1)) r.parameters), a)

namespace Store

/-- The first row that a statement gives, after it was performed. -/
def queried (st : Statement) : Except SqlError Answer × Access → Except StorageError (Option Row) × Access
  | (.error e, a) => (.error (e.toStorage st.sql st.label), a)
  | (.ok (.row entries), a) => (.ok (some (rowOfCells entries)), a)
  | (.ok _, a) => (.ok none, a)

/-- How many rows a statement changed, after it was performed. -/
def executed (st : Statement) : Except SqlError Answer × Access → Except StorageError Nat × Access
  | (.error e, a) => (.error (e.toStorage st.sql st.label), a)
  | (.ok (.row _), a) => (.error (SqlError.returnedRows.toStorage st.sql st.label), a)
  | (.ok _, a) => (.ok a.link.changes, a)

/-- The connection to a store whose statements are read in some way. -/
@[reducible]
def reading (read : String → Except SyntaxError Command.Reading) : Connection Store where
  perform
    | .prepare st, s => s.withLink fun a =>
      let (answer, a) := a.prepareRead (read st.sql)
      (answer.mapError fun e => e.toStorage st.sql st.label, a)
    | .query st values, s => s.withLink fun a =>
      queried st (a.performRead (values.map Cell.ofValue) (read st.sql))
    | .execute st values, s => s.withLink fun a =>
      executed st (a.performRead (values.map Cell.ofValue) (read st.sql))
    | r, s => Connection.perform r s
  isOpen s := s.link.isSome
  release := disconnected
  describe s := s.target.describe

/-- **A store may be evaluated with the statements of a session known**, whatever its options. -/
theorem connection_eq (o : Options) : instConnection = reading (Command.readKnown o.texts) := by
  rw [← Command.read_eq, instConnection]
  congr
  funext α r s
  cases r <;> rfl

end Store

end RowHistory
