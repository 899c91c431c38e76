import RowHistory.Json.Basic
import RowHistory.Binary.Reader

/-!
# Reading JSON

A recursive-descent reader over characters. Blanks are the four of the JSON grammar; a number
without point and exponent that fits 64 bits is an integer, any other number is a double, and one
that would be infinite is refused; arrays and objects nest at most `maxDepth` deep. This file
fixes

* the two lexical parts, strings (`takeString`) and numbers (`takeNumber`);
* what is wanted of a value (`Demand`), and how a value is passed over that nobody wants
  (`skipValue`): it has to be written as JSON, but its numbers may be of any size, its strings may
  hold half a pair, and it may nest as deep as it likes;
* the values (`takeValue`), whose recursion is bounded by the length of the text;
* the reading of a whole text (`Json.read?`), of the parts that are wanted (`Json.readWanted?`),
  and of its plain form (`Json.readPlain?`).
-/

namespace RowHistory.Json

open Text

/-- The deepest nesting of arrays and objects. -/
def maxDepth : Nat := 127

/-- A blank of the JSON grammar. -/
def isSpace (c : Char) : Bool :=
  c = ' ' || c = '\t' || c = '\n' || c = '\r'

/-- What follows the blanks. -/
def skipSpace (cs : List Char) : List Char :=
  cs.dropWhile isSpace

/-- The value of a hexadecimal digit. -/
def hexValue? (c : Char) : Option Nat :=
  if '0' ≤ c ∧ c ≤ '9' then some (c.toNat - '0'.toNat)
  else if 'a' ≤ c ∧ c ≤ 'f' then some (c.toNat - 'a'.toNat + 10)
  else if 'A' ≤ c ∧ c ≤ 'F' then some (c.toNat - 'A'.toNat + 10)
  else none

/-- The value of four hexadecimal digits. -/
def hex4? (a b c d : Char) : Option Nat := do
  let a ← hexValue? a
  let b ← hexValue? b
  let c ← hexValue? c
  let d ← hexValue? d
  return ((a * 16 + b) * 16 + c) * 16 + d

/-- The character that a letter after a backslash stands for. -/
def unescape? (c : Char) : Option Char :=
  if c = '"' ∨ c = '\\' ∨ c = '/' then some c
  else if c = 'b' then some '\x08'
  else if c = 'f' then some '\x0c'
  else if c = 'n' then some '\n'
  else if c = 'r' then some '\r'
  else if c = 't' then some '\t'
  else none

/-- `u` is the first half of a pair. -/
def isHighSurrogate (u : Nat) : Bool :=
  0xD800 ≤ u && u < 0xDC00

/-- `u` is the second half of a pair. -/
def isLowSurrogate (u : Nat) : Bool :=
  0xDC00 ≤ u && u < 0xE000

/-- A string after its opening quote, and what follows its closing one. -/
def takeString : List Char → Option (List Char × List Char)
  | [] => none
  | '"' :: rest => some ([], rest)
  | '\\' :: 'u' :: a :: b :: c :: d :: rest =>
    match hex4? a b c d with
    | none => none
    | some u =>
      if isHighSurrogate u then
        match rest with
        | '\\' :: 'u' :: a' :: b' :: c' :: d' :: rest' =>
          match hex4? a' b' c' d' with
          | none => none
          | some v =>
            if isLowSurrogate v then
              (takeString rest').map fun (s, after) =>
                (Char.ofNat (0x10000 + (u - 0xD800) * 0x400 + (v - 0xDC00)) :: s, after)
            else none
        | _ => none
      else if isLowSurrogate u then none
      else (takeString rest).map fun (s, after) => (Char.ofNat u :: s, after)
  | '\\' :: e :: rest =>
    match unescape? e with
    | none => none
    | some c => (takeString rest).map fun (s, after) => (c :: s, after)
  | c :: rest =>
    if c.toNat < 0x20 then none else (takeString rest).map fun (s, after) => (c :: s, after)

/-- The value of a numeral: an integer if it is a plain one within 64 bits, signed below zero and
unsigned above; the negative zero and all else is a double, unless it is infinite. It is assumed that
a double is read correctly rounded, however many digits it has; a reader that settles for less may be
off by a last place where there are more digits than a double needs. -/
def numberValue? (negative : Bool) (n : Numeral) : Option Json :=
  let magnitude := n.digits
  if ¬ n.isReal ∧ ¬ negative ∧ magnitude < 2 ^ 64 then some (.int magnitude)
  else if ¬ n.isReal ∧ negative ∧ 0 < magnitude ∧ magnitude ≤ 2 ^ 63 then some (.int (-magnitude))
  else
    let x := n.toDouble negative
    if x.isFinite then some (.real x) else none

/-- A numeral with its sign: no superfluous zero in front, and digits on both sides of a point. -/
def takeNumeral (cs : List Char) : Option (Bool × Numeral × List Char) :=
  let (negative, cs) := match cs with
    | '-' :: rest => (true, rest)
    | _ => (false, cs)
  match Numeral.span? cs with
  | none => none
  | some (n, rest) =>
    let pointed := (cs.drop n.whole.length).head? = some '.'
    let stray := rest.head?.any fun c => c = 'e' || c = 'E'
    if n.whole = [] ∨ (n.whole.head? = some '0' ∧ 1 < n.whole.length) ∨
        (pointed ∧ n.fraction = []) ∨ stray then none
    else some (negative, n, rest)

/-- A number. -/
def takeNumber (cs : List Char) : Option (Json × List Char) :=
  match takeNumeral cs with
  | none => none
  | some (negative, n, rest) => (numberValue? negative n).map fun j => (j, rest)

/-! ## Values that nobody wants -/

/-- What is wanted of a value. -/
inductive Demand where
  /-- All of it. -/
  | whole
  /-- Of an object the members of these names, of an array the items at their places. -/
  | fields (wanted : List (String × Demand))

namespace Demand

/-- All of the fields of these names. -/
def named (names : List String) : Demand :=
  .fields (names.map fun name => (name, .whole))

/-- What is wanted of a member, if anything is. -/
def member? (d : Demand) (name : String) : Option Demand :=
  match d with
  | .whole => some .whole
  | .fields wanted => wanted.lookup name

/-- What is wanted of the items of an array; all of those beyond the list. -/
def items : Demand → List Demand
  | .whole => []
  | .fields wanted => wanted.map (·.2)

end Demand

/-- What follows a string, after its opening quote. Four hexadecimal digits stand for anything. -/
def skipString : List Char → Option (List Char)
  | [] => none
  | '"' :: rest => some rest
  | '\\' :: 'u' :: a :: b :: c :: d :: rest =>
    match hex4? a b c d with
    | none => none
    | some _ => skipString rest
  | '\\' :: e :: rest =>
    match unescape? e with
    | none => none
    | some _ => skipString rest
  | c :: rest => if c.toNat < 0x20 then none else skipString rest

mutual

/-- What follows a value in front of a text. The number bounds the recursion. -/
def skipValue : Nat → List Char → Option (List Char)
  | 0, _ => none
  | fuel + 1, cs =>
    match skipSpace cs with
    | 'n' :: 'u' :: 'l' :: 'l' :: rest => some rest
    | 't' :: 'r' :: 'u' :: 'e' :: rest => some rest
    | 'f' :: 'a' :: 'l' :: 's' :: 'e' :: rest => some rest
    | '"' :: rest => skipString rest
    | '[' :: rest => match skipSpace rest with
      | ']' :: after => some after
      | rest => skipItems fuel rest
    | '{' :: rest => match skipSpace rest with
      | '}' :: after => some after
      | rest => skipMembers fuel rest
    | rest => (takeNumeral rest).map fun (_, _, after) => after

/-- What follows the items of an array and its end. -/
def skipItems : Nat → List Char → Option (List Char)
  | 0, _ => none
  | fuel + 1, cs =>
    match skipValue fuel cs with
    | none => none
    | some rest =>
      match skipSpace rest with
      | ',' :: rest => skipItems fuel rest
      | ']' :: after => some after
      | _ => none

/-- What follows the members of an object and its end. -/
def skipMembers : Nat → List Char → Option (List Char)
  | 0, _ => none
  | fuel + 1, cs =>
    match skipSpace cs with
    | '"' :: rest =>
      match skipString rest with
      | none => none
      | some rest =>
        match skipSpace rest with
        | ':' :: rest =>
          match skipValue fuel rest with
          | none => none
          | some rest =>
            match skipSpace rest with
            | ',' :: rest => skipMembers fuel rest
            | '}' :: after => some after
            | _ => none
        | _ => none
    | _ => none

end

/-! ## Values -/

mutual

/-- What is wanted of a value in front of a text. The first number bounds the recursion, the second
is the nesting that is left. -/
def takeValue (d : Demand) : Nat → Nat → List Char → Option (Json × List Char)
  | 0, _, _ => none
  | fuel + 1, depth, cs =>
    match skipSpace cs with
    | 'n' :: 'u' :: 'l' :: 'l' :: rest => some (.null, rest)
    | 't' :: 'r' :: 'u' :: 'e' :: rest => some (.bool true, rest)
    | 'f' :: 'a' :: 'l' :: 's' :: 'e' :: rest => some (.bool false, rest)
    | '"' :: rest => (takeString rest).map fun (s, after) => (.str (String.ofList s), after)
    | '[' :: rest =>
      if depth = 0 then none
      else match skipSpace rest with
        | ']' :: after => some (.arr [], after)
        | rest =>
          (takeItems d.items fuel (depth - 1) rest).map fun (items, after) => (.arr items, after)
    | '{' :: rest =>
      if depth = 0 then none
      else match skipSpace rest with
        | '}' :: after => some (.obj [], after)
        | rest =>
          (takeMembers d fuel (depth - 1) rest).map fun (members, after) => (.obj members, after)
    | rest => takeNumber rest

/-- The items of an array up to its end, at least one. -/
def takeItems (ds : List Demand) : Nat → Nat → List Char → Option (List Json × List Char)
  | 0, _, _ => none
  | fuel + 1, depth, cs =>
    match takeValue (ds.headD .whole) fuel depth cs with
    | none => none
    | some (j, rest) =>
      match skipSpace rest with
      | ',' :: rest =>
        (takeItems ds.tail fuel depth rest).map fun (items, after) => (j :: items, after)
      | ']' :: after => some ([j], after)
      | _ => none

/-- The members of an object up to its end, at least one; of those that nobody wants nothing is
kept. -/
def takeMembers (d : Demand) :
    Nat → Nat → List Char → Option (List (String × Json) × List Char)
  | 0, _, _ => none
  | fuel + 1, depth, cs =>
    match skipSpace cs with
    | '"' :: rest =>
      match takeString rest with
      | none => none
      | some (name, rest) =>
        let name := String.ofList name
        match skipSpace rest with
        | ':' :: rest =>
          let value := match d.member? name with
            | some d => (takeValue d fuel depth rest).map fun (j, rest) => ([(name, j)], rest)
            | none => (skipValue fuel rest).map fun rest => ([], rest)
          match value with
          | none => none
          | some (here, rest) =>
            match skipSpace rest with
            | ',' :: rest => (takeMembers d fuel depth rest).map fun (members, after) =>
                (here ++ members, after)
            | '}' :: after => some (here, after)
            | _ => none
        | _ => none
    | _ => none

end

/-- What is wanted of the value that a text holds, with its members as they were written. -/
def readWanted? (d : Demand) (s : String) : Option Json :=
  let cs := s.toList
  match takeValue d (2 * cs.length + 1) maxDepth cs with
  | some (j, rest) => if skipSpace rest = [] then some j else none
  | none => none

/-- The value that a text holds, with its members as they were written. -/
def read? (s : String) : Option Json :=
  readWanted? .whole s

/-- The value that a text holds, in plain form. -/
def readPlain? (s : String) : Option Json :=
  (read? s).map plain

end RowHistory.Json
