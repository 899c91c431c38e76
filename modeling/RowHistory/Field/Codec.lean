import RowHistory.Field.Basic
import RowHistory.Json.Decode

/-!
# Fields and bookkeeping names in JSON

A field is an object with its name, its kind and, beside them, its type; a decimal type has a
scale. A type may also be given by its place in the list of types. Both directions stand here, so
that what is written is read back.
-/

namespace RowHistory

/-- The scales that a declaration may name. -/
def scaleBound : Nat := 2 ^ 32

namespace FieldType

/-- The names of the types, in order. -/
def kinds : List String :=
  ["integer", "decimal", "float", "boolean", "string", "timestamp"]

/-- The type of a name that needs no scale. -/
def ofName? : String → Option FieldType
  | "integer" => some .integer
  | "float" => some .float
  | "boolean" => some .boolean
  | "string" => some .string
  | "timestamp" => some .timestamp
  | _ => none

/-- The name that a JSON value gives to a type: the name itself, or its place. -/
def nameOfJson? : Json → Option String
  | .str s => some s
  | .int n => if 0 ≤ n then kinds[n.toNat]? else none
  | _ => none

/-- The type among the members of a field. Only a decimal looks at the scale. -/
def ofMembers? (members : List (String × Json)) : Option FieldType := do
  let name ← nameOfJson? (← (← Json.member? members "type"))
  if name = "decimal" then
    let scale ← Json.nat? scaleBound (← (← Json.member? members "scale"))
    return .decimal scale
  else ofName? name

/-- The members of a type. -/
def members : FieldType → List (String × Json)
  | .decimal scale => [("type", .str "decimal"), ("scale", .int scale)]
  | t => [("type", .str t.name)]

end FieldType

/-- The kinds by name. -/
def FieldKind.choices : List (String × FieldKind) :=
  FieldKind.all.map fun k => (k.name, k)

/-- A field from its object. -/
def Field.ofJson? : Json → Option Field
  | .obj members => do
    let name ← Json.text? (← (← Json.member? members "name"))
    let kind ← Json.choice? FieldKind.choices (← (← Json.member? members "kind"))
    let type ← FieldType.ofMembers? members
    return ⟨name, kind, type⟩
  | _ => none

/-- A field as an object. -/
def Field.toJson (f : Field) : Json :=
  .obj (("name", .str f.name) :: ("kind", .str f.kind.name) :: f.type.members)

namespace Classification

/-- A classification from an array of fields. -/
def ofJson? (j : Json) : Option Classification :=
  (Json.list? Field.ofJson? j).map fun fields => ⟨fields⟩

/-- A classification as an array of fields. -/
def toJson (c : Classification) : Json :=
  .arr (c.fields.map Field.toJson)

end Classification

namespace Bookkeeping

/-- The members in order of declaration. -/
def memberNames : List String :=
  ["valid_from", "valid_to", "version", "last_seen"]

/-- What is wanted of a record of bookkeeping names. -/
def demand : Json.Demand :=
  .named memberNames

/-- Bookkeeping names from a record; absent ones have their usual names. -/
def ofJson? (j : Json) : Option Bookkeeping := do
  match ← Json.record? memberNames j with
  | [validFrom, validTo, version, lastSeen] =>
    let usual : Bookkeeping := {}
    return {
      validFrom := ← Json.defaulted Json.text? usual.validFrom validFrom
      validTo := ← Json.defaulted Json.text? usual.validTo validTo
      version := ← Json.defaulted Json.text? usual.version version
      lastSeen := ← Json.defaulted (Json.nullable Json.text?) usual.lastSeen lastSeen }
  | _ => none

/-- The bookkeeping names that a text holds. -/
def parse? (text : String) : Option Bookkeeping :=
  (Json.readWanted? demand text).bind ofJson?

/-- Bookkeeping names as a record. -/
def toJson (b : Bookkeeping) : Json :=
  .obj [("valid_from", .str b.validFrom), ("valid_to", .str b.validTo),
    ("version", .str b.version), ("last_seen", (b.lastSeen.map Json.str).getD .null)]

end Bookkeeping

end RowHistory
