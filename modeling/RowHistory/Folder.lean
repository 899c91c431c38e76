/-!
# Folders

The files around a working directory, and how a path leads to one of them. A place is the list of
names that lead there from the working directory; leading `..` names lead out of it, and the name
`/` stands for the root. Of what lies outside nothing is known but that the directories on the way
out are there. This file fixes

* what is at a place (`Folder.node?`);
* following a path name by name (`Folder.follow`), and why it may lead nowhere (`PathError`).
-/

namespace RowHistory

/-- Why a path leads to no file. -/
inductive PathError where
  /-- There is nothing. -/
  | missing
  /-- The path goes on behind a file. -/
  | notAFolder
  /-- There is a directory. -/
  | isAFolder
  /-- A name, or the whole path, is too long. -/
  | tooLong
  /-- The path holds the character zero. -/
  | zeroCharacter
deriving DecidableEq, Repr

/-- The wording of a cause. -/
def PathError.message : PathError → String
  | .missing => "No such file or directory (os error 2)"
  | .notAFolder => "Not a directory (os error 20)"
  | .isAFolder => "Is a directory (os error 21)"
  | .tooLong => "File name too long (os error 36)"
  | .zeroCharacter => "file name contained an unexpected NUL byte"

/-- What is at a place. -/
inductive Node (α : Type) where
  | file (content : α)
  | folder

/-- The files around a working directory, by their places. -/
structure Folder (α : Type) where
  files : List (List String × α) := []
  /-- Directories that hold no file. -/
  folders : List (List String) := []

namespace Folder

variable {α : Type}

/-! ## 1. Places -/

/-- The working directory, or a directory around it. -/
def encloses (place : List String) : Bool :=
  place.all fun name => name = ".." || name = "/"

/-- The directory in which a place lies. -/
def parent (place : List String) : List String :=
  if place = ["/"] then place
  else if place.all (· = "..") then ".." :: place
  else place.dropLast

/-- What is at a place. A directory is there if a file lies below it. -/
def node? (t : Folder α) (place : List String) : Option (Node α) :=
  if encloses place then some .folder
  else match t.files.lookup place with
    | some content => some (.file content)
    | none =>
      if t.folders.contains place || t.files.any fun f => place.isPrefixOf f.1 then some .folder
      else none

/-- Puts a file at a place. -/
def put (t : Folder α) (place : List String) (content : α) : Folder α :=
  { t with files := (place, content) :: t.files.filter fun f => f.1 ≠ place }

/-! ## 2. Paths -/

/-- Where a path starts. -/
def start (path : String) : List String :=
  if path.startsWith "/" then ["/"] else []

/-- The names of a path. -/
def names (path : String) : List String :=
  (path.splitOn "/").filter (· ≠ "")

/-- The longest name, in bytes. -/
def maxName : Nat := 255

/-- The longest path, in bytes. -/
def maxPath : Nat := 4095

/-- Goes from a place to a name in it. -/
def enter (t : Folder α) (place : List String) (name : String) : Except PathError (List String) :=
  match t.node? place with
  | some .folder =>
    if name = "." then .ok place
    else if name = ".." then .ok (parent place)
    else if maxName < name.utf8ByteSize then .error .tooLong
    else match t.node? (place ++ [name]) with
      | some _ => .ok (place ++ [name])
      | none => .error .missing
  | _ => .error .notAFolder

/-- Goes along names. -/
def along (t : Folder α) (place : List String) : List String → Except PathError (List String)
  | [] => .ok place
  | name :: rest => match t.enter place name with
    | .error e => .error e
    | .ok place => t.along place rest

/-- What a path leads to. A slash at its end asks for a directory. -/
def follow (t : Folder α) (path : String) : Except PathError (Node α) :=
  let last := if path.endsWith "/" then ["."] else []
  if path.toList.contains '\x00' then .error .zeroCharacter
  else if path = "" then .error .missing
  else if maxPath < path.utf8ByteSize then .error .tooLong
  else match t.along (start path) (names path ++ last) with
    | .error e => .error e
    | .ok place => match t.node? place with
      | some node => .ok node
      | none => .error .missing

/-- The place that a path names, read without looking at what is there, and the places on the
way to it. -/
def trail (path : String) : List String × List (List String) :=
  (names path).foldl
    (fun (place, before) name =>
      if name = "." then (place, before)
      else if name = ".." then (parent place, place :: before)
      else (place ++ [name], place :: before))
    (start path, [])

/-- Puts a file where a path leads, with the directories on the way. -/
def putAt (t : Folder α) (path : String) (content : α) : Folder α :=
  let (place, before) := trail path
  { t.put place content with folders := before ++ t.folders }

end Folder

end RowHistory
