import RowHistory.Bookkeeping

/-!
# Classified fields

Every field of a versioned table has a kind, which says what a change of it means, and a declared
type, by which it is read and compared. This file fixes

* the kinds and the types (`FieldKind`, `FieldType`) and their names;
* a classification: the fields in the order in which they were declared (`Classification`);
* which classifications are sound beside given bookkeeping columns (`Classification.validate`),
  and the causes for which they are not (`FieldError`).
-/

namespace RowHistory

/-- What a field means for the versions of a row. -/
inductive FieldKind where
  /-- Part of the identifier. -/
  | id
  /-- A change opens a new version. -/
  | compare
  /-- A change rewrites the active version. -/
  | update
  /-- Written and never compared. -/
  | lazy
  /-- Left out altogether. -/
  | ignore
deriving DecidableEq, Repr

/-- The name of a kind. -/
def FieldKind.name : FieldKind → String
  | .id => "id"
  | .compare => "compare"
  | .update => "update"
  | .lazy => "lazy"
  | .ignore => "ignore"

/-- All kinds. -/
def FieldKind.all : List FieldKind :=
  [.id, .compare, .update, .lazy, .ignore]

/-- The kind of a name. -/
def FieldKind.ofName? (s : String) : Option FieldKind :=
  FieldKind.all.find? fun k => k.name = s

/-- The declared type of a field. -/
inductive FieldType where
  /-- Any integer. -/
  | integer
  /-- A fixed-point number with a number of fraction digits. -/
  | decimal (scale : Nat)
  /-- A floating-point number, compared up to the spacing of its width. -/
  | float
  | boolean
  /-- A text, compared exactly. -/
  | string
  /-- An instant, compared to the microsecond. -/
  | timestamp
deriving DecidableEq, Repr

/-- The name of a type. -/
def FieldType.name : FieldType → String
  | .integer => "integer"
  | .decimal _ => "decimal"
  | .float => "float"
  | .boolean => "boolean"
  | .string => "string"
  | .timestamp => "timestamp"

/-- A field with its kind and its type. -/
structure Field where
  name : String
  kind : FieldKind
  type : FieldType
deriving DecidableEq, Repr

/-- Why a classification is not sound, or a JSON value is no row of it. -/
inductive FieldError where
  /-- A field is classified more than once. -/
  | duplicate (name : String)
  /-- No field identifies a row. -/
  | noIdentifier
  /-- A field has the name of a bookkeeping column. -/
  | reserved (name : String)
  /-- A field has no name. -/
  | emptyName
  /-- A JSON value cannot be read as the declared type. -/
  | invalidValue (field : String) (expected : FieldType) (found : String)
  /-- A row is no JSON object. -/
  | notAnObject
deriving DecidableEq, Repr

/-- The wording of a cause. -/
def FieldError.message : FieldError → String
  | .duplicate name => s!"Field classified more than once: {name}"
  | .noIdentifier => "At least one id field is required"
  | .reserved name => s!"Field '{name}' collides with a versioning bookkeeping column"
  | .emptyName => "Field name must not be empty"
  | .invalidValue field expected found => s!"Field '{field}' expects {expected.name}, got JSON {found}"
  | .notAnObject => "Row must be a JSON object"

/-- The fields of a table, in the order of declaration. -/
structure Classification where
  fields : List Field
deriving DecidableEq, Repr

namespace Classification

/-- The classification of several names with one kind and one type. -/
def uniform (names : List String) (kind : FieldKind) (type : FieldType) : Classification :=
  ⟨names.map fun name => ⟨name, kind, type⟩⟩

/-- The first field of a name. -/
def get? (c : Classification) (name : String) : Option Field :=
  c.fields.find? fun f => f.name = name

/-- The classification with one more field. -/
def push (c : Classification) (f : Field) : Classification :=
  ⟨c.fields ++ [f]⟩

/-- The fields with another kind for the first one of a name. -/
def setKindIn (name : String) (kind : FieldKind) : List Field → List Field
  | [] => []
  | f :: rest => if f.name = name then { f with kind := kind } :: rest else f :: setKindIn name kind rest

/-- The classification with another kind for a field, if it has that field. -/
def setKind? (c : Classification) (name : String) (kind : FieldKind) : Option Classification :=
  (c.get? name).map fun _ => ⟨setKindIn name kind c.fields⟩

/-- The fields of a kind. -/
def ofKind (c : Classification) (kind : FieldKind) : List Field :=
  c.fields.filter fun f => f.kind = kind

/-- The names of the fields of a kind. -/
def names (c : Classification) (kind : FieldKind) : List String :=
  (c.ofKind kind).map Field.name

/-- The first fault of a list of fields that follows fields with the names `seen`. -/
def fault? (b : Bookkeeping) : List String → List Field → Option FieldError
  | _, [] => none
  | seen, f :: rest =>
    if f.name = "" then some .emptyName
    else if f.name ∈ seen then some (.duplicate f.name)
    else if f.kind ≠ .ignore ∧ f.name ∈ b.all then some (.reserved f.name)
    else fault? b (f.name :: seen) rest

/-- The fields have names of their own, none of a bookkeeping column unless the field is ignored,
and one of them identifies the row. -/
def validate (c : Classification) (b : Bookkeeping) : Except FieldError Unit :=
  match fault? b [] c.fields with
  | some e => .error e
  | none => if c.ofKind .id = [] then .error .noIdentifier else .ok ()

end Classification

end RowHistory
