import RowHistory.Assoc
import RowHistory.Binary.Printer

/-!
# JSON values

A JSON value keeps its members in the order in which they were written, and a whole number apart
from a number with a fraction. This file fixes

* the type (`Json`) and the names of its kinds (`Json.kindName`);
* the *plain* form of a value, whose objects are sorted by name and keep the last of several
  members of one name (`Json.plain`);
* the written form without blanks (`Json.render`).
-/

namespace RowHistory

/-- A JSON value. -/
inductive Json where
  | null
  | bool (b : Bool)
  | int (n : Int)
  | real (x : Double)
  | str (s : String)
  | arr (items : List Json)
  | obj (members : List (String × Json))
deriving Repr, Inhabited

namespace Json

/-- The kind of a value, as messages name it. -/
def kindName : Json → String
  | .null => "null"
  | .bool _ => "bool"
  | .int _ => "number"
  | .real _ => "number"
  | .str _ => "string"
  | .arr _ => "array"
  | .obj _ => "object"

mutual

/-- The value with the members of every object sorted by name, the last of each name. -/
def plain : Json → Json
  | .arr items => .arr (plainItems items)
  | .obj members => .obj (Assoc.ofList (plainMembers members))
  | j => j

/-- The plain forms of the items of an array. -/
def plainItems : List Json → List Json
  | [] => []
  | j :: rest => plain j :: plainItems rest

/-- The members of an object with their values in plain form. -/
def plainMembers : List (String × Json) → List (String × Json)
  | [] => []
  | (name, j) :: rest => (name, plain j) :: plainMembers rest

end

/-- A hexadecimal digit in lower case. -/
def hexDigit (n : Nat) : Char :=
  Nat.digitChar n

/-- A character inside a written string. -/
def escapeChar (c : Char) : List Char :=
  if c = '"' then ['\\', '"']
  else if c = '\\' then ['\\', '\\']
  else if c = '\x08' then ['\\', 'b']
  else if c = '\x0c' then ['\\', 'f']
  else if c = '\n' then ['\\', 'n']
  else if c = '\r' then ['\\', 'r']
  else if c = '\t' then ['\\', 't']
  else if c.toNat < 0x20 then
    ['\\', 'u', '0', '0', hexDigit (c.toNat / 16), hexDigit (c.toNat % 16)]
  else [c]

/-- A string in quotes. -/
def quoteChars (cs : List Char) : List Char :=
  '"' :: cs.flatMap escapeChar ++ ['"']

mutual

/-- The characters of a value. -/
def chars : Json → List Char
  | .null => ['n', 'u', 'l', 'l']
  | .bool true => ['t', 'r', 'u', 'e']
  | .bool false => ['f', 'a', 'l', 's', 'e']
  | .int n => Text.intDigits n
  | .real x => x.jsonText.toList
  | .str s => quoteChars s.toList
  | .arr [] => ['[', ']']
  | .arr (j :: rest) => '[' :: chars j ++ itemsChars rest
  | .obj [] => ['{', '}']
  | .obj ((name, j) :: rest) => '{' :: quoteChars name.toList ++ ':' :: chars j ++ membersChars rest

/-- The items after the first, and the end of the array. -/
def itemsChars : List Json → List Char
  | [] => [']']
  | j :: rest => ',' :: chars j ++ itemsChars rest

/-- The members after the first, and the end of the object. -/
def membersChars : List (String × Json) → List Char
  | [] => ['}']
  | (name, j) :: rest => ',' :: quoteChars name.toList ++ ':' :: chars j ++ membersChars rest

end

/-- The written form of a value, without blanks. -/
def render (j : Json) : String :=
  String.ofList j.chars

/-- A string in quotes, as JSON writes it. -/
def quoted (s : String) : String :=
  String.ofList (quoteChars s.toList)

end Json

end RowHistory
