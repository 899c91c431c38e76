import RowHistory.Assoc
import RowHistory.Value

/-!
# Rows

A row maps field names to values. Its entries are sorted by name, and the type keeps them so. An
absent field reads as null.
-/

namespace RowHistory

/-- A record of named values. -/
structure Row where
  entries : List (String × Value)
  sorted : Assoc.Sorted entries
deriving DecidableEq

namespace Row

/-- The row without fields. -/
def empty : Row := ⟨[], Assoc.sorted_nil⟩

instance : Inhabited Row := ⟨empty⟩

/-- The value of a field, if the row has it. -/
def get? (r : Row) (name : String) : Option Value :=
  Assoc.find? name r.entries

/-- The value of a field; an absent field is null. -/
def value (r : Row) (name : String) : Value :=
  (r.get? name).getD .null

/-- The row with a field set. -/
def set (r : Row) (name : String) (v : Value) : Row :=
  ⟨Assoc.insert name v r.entries, Assoc.sorted_insert r.sorted⟩

/-- The row without a field. -/
def erase (r : Row) (name : String) : Row :=
  ⟨Assoc.erase name r.entries, Assoc.sorted_erase r.sorted⟩

/-- The row of a list of entries, the last one of each name. -/
def ofList (entries : List (String × Value)) : Row :=
  entries.foldl (fun r e => r.set e.1 e.2) empty

def contains (r : Row) (name : String) : Bool :=
  (r.get? name).isSome

def size (r : Row) : Nat :=
  r.entries.length

/-- The same fields with the same values. -/
def same (r s : Row) : Bool :=
  r.size = s.size &&
    (r.entries.zip s.entries).all fun (a, b) => a.1 = b.1 && a.2.same b.2

/-- The row as a JSON object. -/
def toJson (r : Row) : Json :=
  .obj (r.entries.map fun (name, v) => (name, v.toJson))

end Row

end RowHistory
