import RowHistory.Folder
import RowHistory.Text.Utf8

/-!
# Places of databases

Where the database of a name is kept. A name is a path, or a reference that starts with `file:`
and may carry options. A path is made plain by its names alone: a `..` takes the name in front of
it away, whatever that leads to. This file fixes

* what a name asks for (`Locator`) and how a name is read (`Locator.ofName?`);
* where that leads among the files that are there (`Locator.open?`): a database is kept nowhere,
  or in a file, which must lie in a directory.
-/

namespace RowHistory.Sql

/-! ## 1. Names -/

/-- What may be done with the file of a database. -/
inductive OpenMode where
  /-- It is read. -/
  | read
  /-- It is read and written. -/
  | write
  /-- It is read and written, and made if it is not there. -/
  | create
deriving DecidableEq, Repr

/-- How much a mode allows. -/
def OpenMode.rank : OpenMode → Nat
  | .read => 0
  | .write => 1
  | .create => 2

/-- What a name asks for. -/
structure Locator where
  path : String
  /-- The database is kept in memory, whatever the path. -/
  inMemory : Bool := false
  mode : OpenMode := .create
  /-- The file is taken as one that never changes. -/
  frozen : Bool := false
deriving DecidableEq, Repr

namespace Locator

/-- The bytes of a text. -/
def bytes (s : String) : List UInt8 :=
  s.toUTF8.toList

/-- The value of a hexadecimal digit. -/
def hexValue? (b : UInt8) : Option UInt8 :=
  if 48 ≤ b && b ≤ 57 then some (b - 48)
  else if 65 ≤ b && b ≤ 70 then some (b - 55)
  else if 97 ≤ b && b ≤ 102 then some (b - 87)
  else none

/-- The bytes of a part of a reference. A percent sign and two digits stand for a byte, and the
byte zero ends the part. -/
def decoded : List UInt8 → List UInt8
  | [] => []
  | 37 :: a :: b :: rest =>
    match hexValue? a, hexValue? b with
    | some x, some y => if x * 16 + y = 0 then [] else (x * 16 + y) :: decoded rest
    | _, _ => 37 :: decoded (a :: b :: rest)
  | c :: rest => c :: decoded rest
termination_by bytes => bytes.length

/-- The text of a part of a reference. -/
def partText (part : List UInt8) : String :=
  Utf8.decodeLossy (decoded part)

/-- The parts between separators, behind what was read of the first one, the last byte first. -/
def splitOn (separator : UInt8) (current : List UInt8) : List UInt8 → List (List UInt8)
  | [] => [current.reverse]
  | b :: rest =>
    if b = separator then current.reverse :: splitOn separator [] rest
    else splitOn separator (b :: current) rest

/-- The options behind the question mark of a reference, with their values; one without a name is
passed over. -/
def options (query : List UInt8) : List (String × String) :=
  let pairs := (splitOn 38 [] query).map fun part =>
    (partText (part.takeWhile (· ≠ 61)), partText ((part.dropWhile (· ≠ 61)).drop 1))
  pairs.filter fun p => p.1 ≠ ""

/-- A value that means yes. -/
def isYes (value : String) : Bool :=
  let lower := value.toList.map Char.toLower
  let digits := lower.takeWhile Char.isDigit
  ["on", "yes", "true"].any (fun word => word.toList = lower) || digits.any (· ≠ '0')

/-- The ways of keeping files that are known. -/
def systems : List String :=
  ["unix", "unix-none", "unix-dotfile", "unix-excl"]

/-- Allows as much as a mode does, but no more than was allowed. -/
def limited (l : Locator) (mode : OpenMode) : Option Locator :=
  if l.inMemory || mode.rank ≤ l.mode.rank then some { l with mode, inMemory := false } else none

/-- The locator with an option; options that are not known have no effect. -/
def withOption (l : Locator) : String × String → Option Locator
  | ("mode", value) => match value with
    | "ro" => l.limited .read
    | "rw" => l.limited .write
    | "rwc" => l.limited .create
    | "memory" => some { l with inMemory := true, mode := .create }
    | _ => none
  | ("cache", value) => if value = "shared" ∨ value = "private" then some l else none
  | ("vfs", value) => if systems.contains value then some l else none
  | ("immutable", value) => some { l with frozen := isYes value }
  | _ => some l

/-- What follows the host of a reference, which is this one. -/
def afterHost? (reference : List UInt8) : Option (List UInt8) :=
  match reference with
  | 47 :: 47 :: rest =>
    let host := rest.takeWhile (· ≠ 47)
    if host = [] ∨ host = bytes "localhost" then some (rest.dropWhile (· ≠ 47)) else none
  | _ => some reference

/-- What a reference asks for, after its scheme. -/
def ofReference? (reference : List UInt8) : Option Locator := do
  let rest ← afterHost? reference
  let rest := rest.takeWhile (· ≠ 35)
  let path := partText (rest.takeWhile (· ≠ 63))
  (options ((rest.dropWhile (· ≠ 63)).drop 1)).foldlM withOption { path }

/-- The scheme of a reference. -/
def scheme : String := "file:"

/-- What a name asks for. -/
def ofName? (name : String) : Option Locator :=
  if name.toList.contains '\x00' then none
  else if name.startsWith scheme then ofReference? ((bytes name).drop scheme.utf8ByteSize)
  else some { path := name }

/-! ## 2. Places -/

/-- Nothing is kept of the database. -/
def isTransient (l : Locator) : Bool :=
  l.inMemory || l.path = "" || l.path = ":memory:"

/-- Nothing can be written. -/
def isReadOnly (l : Locator) : Bool :=
  !l.inMemory && (l.mode = .read || l.frozen)

end Locator

/-- Where a database is kept. -/
inductive Place where
  /-- Nowhere, and every connection has its own. -/
  | nowhere
  /-- In the file at a place. -/
  | file (place : List String)
deriving DecidableEq, Repr

/-- A database that can be opened. -/
structure Opening where
  place : Place
  readOnly : Bool := false
deriving DecidableEq, Repr

/-- The place of names from a place on. Every place on the way has to be there or not; what lies
behind a file is neither. -/
def settle? {α : Type} (t : Folder α) (place : List String) : List String → Option (List String)
  | [] => some place
  | name :: rest =>
    if name = "." then settle? t place rest
    else if name = ".." then settle? t (Folder.parent place) rest
    else match t.along [] (place ++ [name]) with
      | .error .notAFolder => none
      | .error .tooLong => none
      | _ => settle? t (place ++ [name]) rest

/-- The directory of a place is there. -/
def hasFolder {α : Type} (t : Folder α) (place : List String) : Bool :=
  match t.node? (Folder.parent place) with
  | some .folder => true
  | _ => false

namespace Locator

/-- Where a database is kept, if it can be opened. -/
def open? {α : Type} (t : Folder α) (l : Locator) : Option Opening :=
  if l.isTransient then some ⟨.nowhere, l.isReadOnly⟩
  else match settle? t (Folder.start l.path) (Folder.names l.path) with
    | none => none
    | some place => match t.node? place with
      | some .folder => none
      | some (.file _) => some ⟨.file place, l.isReadOnly⟩
      | none =>
        if l.mode = .create && hasFolder t place then some ⟨.file place, l.isReadOnly⟩ else none

end Locator

/-- The database of a name, if it can be opened. -/
def openNamed? {α : Type} (t : Folder α) (name : String) : Option Opening :=
  (Locator.ofName? name).bind fun l => l.open? t

end RowHistory.Sql
