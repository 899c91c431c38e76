import RowHistory.Json.Reader

/-!
# Records in JSON

How settings are written as JSON. A record is an object, or an array of its fields in order of
declaration; unknown members are passed over, and a known one must not come twice. A choice
without content is its name, or an object with that name and null. This file fixes

* the fields of a record (`record?`) and the presence they need (`required`, `defaulted`);
* null for an absent value (`nullable`);
* the readers of texts, truth values and bounded numbers, and of a choice (`choice?`).
-/

namespace RowHistory.Json

variable {α : Type}

/-- The text of a string. -/
def text? : Json → Option String
  | .str s => some s
  | _ => none

/-- A truth value. -/
def bool? : Json → Option Bool
  | .bool b => some b
  | _ => none

/-- A whole number from zero up to a bound. -/
def nat? (bound : Nat) : Json → Option Nat
  | .int n => if 0 ≤ n ∧ n < bound then some n.toNat else none
  | _ => none

/-- The items of an array, each of them read. -/
def list? (read : Json → Option α) : Json → Option (List α)
  | .arr items => items.mapM read
  | _ => none

/-- A value, or null for none. -/
def nullable (read : Json → Option α) : Json → Option (Option α)
  | .null => some none
  | j => (read j).map some

/-- A field that must be there. -/
def required (read : Json → Option α) : Option Json → Option α
  | some j => read j
  | none => none

/-- A field that has a value when it is absent. -/
def defaulted (read : Json → Option α) (absent : α) : Option Json → Option α
  | some j => read j
  | none => some absent

/-- The only member of a name, if there is one; several are refused. -/
def member? (members : List (String × Json)) (name : String) : Option (Option Json) :=
  match members.filter fun m => m.1 = name with
  | [] => some none
  | [m] => some (some m.2)
  | _ => none

/-- The fields of a record with the given names: of an object by name, of an array by place. -/
def record? (names : List String) : Json → Option (List (Option Json))
  | .obj members => names.mapM (member? members)
  | .arr items =>
    if items.length ≤ names.length then
      some (items.map some ++ List.replicate (names.length - items.length) none)
    else none
  | _ => none

/-- A choice without content among named ones. -/
def choice? (choices : List (String × α)) : Json → Option α
  | .str s => Assoc.find? s choices
  | .obj [(s, .null)] => Assoc.find? s choices
  | _ => none

end RowHistory.Json
