import RowHistory.Text.Numeral
import RowHistory.Instant.Basic

/-!
# Reading instants

Three grammars over the same parts:

* the *stored* form: date, blanks or a `T`, time, all in UTC; numbers may have fewer digits than
  are written and blanks in front of them;
* the *strict* form: fixed widths, then `Z` or an offset with a colon;
* the *loose* form of configuration: the stored form with a separator of one character, blanks
  before the marks too, and an offset that must be there.

`Instant.parse?` tries the stored form with either separator and then the strict one, after
trimming; `Instant.parseLoose?` reads the loose form.
-/

namespace RowHistory.Instant

open Text

/-- A number of at least `least` and at most `most` digits in front of a text. -/
def takeNumber (least most : Nat) (cs : List Char) : Option (Nat × List Char) :=
  let ds := (cs.take most).takeWhile Char.isDigit
  if ds.length < least then none else some (digitsValue ds, cs.drop ds.length)

/-- A number of one or two digits after blanks. -/
def takeField (cs : List Char) : Option (Nat × List Char) :=
  takeNumber 1 2 (trimStart cs)

/-- A year after blanks: one to four digits, or a sign and any number of them. -/
def takeYear (cs : List Char) : Option (Int × List Char) :=
  let signed (negative : Bool) (rest : List Char) : Option (Int × List Char) :=
    let (ds, after) := spanDigits rest
    if ds = [] then none
    else some (if negative then -(digitsValue ds : Int) else digitsValue ds, after)
  match trimStart cs with
  | '-' :: rest => signed true rest
  | '+' :: rest => signed false rest
  | rest => (takeNumber 1 4 rest).map fun (n, after) => ((n : Int), after)

/-- The character `c`, after blanks if `gap` allows them. -/
def takeMark (gap : Bool) (c : Char) (cs : List Char) : Option (List Char) :=
  match if gap then trimStart cs else cs with
  | d :: rest => if d = c then some rest else none
  | [] => none

/-- A fraction of a second in nanoseconds, if a point follows: nine digits count. -/
def takeFraction : List Char → Option (Nat × List Char)
  | '.' :: rest =>
    let (ds, after) := spanDigits rest
    if ds = [] then none
    else some (digitsValue (ds.take 9) * 10 ^ (9 - ds.length), after)
  | cs => some (0, cs)

/-- A date in front of a text. -/
def takeDate (gap : Bool) (cs : List Char) : Option (Date × List Char) := do
  let (year, cs) ← takeYear cs
  let cs ← takeMark gap '-' cs
  let (month, cs) ← takeField cs
  let cs ← takeMark gap '-' cs
  let (day, cs) ← takeField cs
  return (⟨year, month, day⟩, cs)

/-- A time of day in front of a text. -/
def takeTime (gap : Bool) (cs : List Char) : Option (Clockface × List Char) := do
  let (hour, cs) ← takeField cs
  let cs ← takeMark gap ':' cs
  let (minute, cs) ← takeField cs
  let cs ← takeMark gap ':' cs
  let (second, cs) ← takeField cs
  let (nanos, cs) ← takeFraction cs
  return (⟨hour, minute, second, nanos⟩, cs)

/-- An offset in minutes: `Z`, or a sign, two digits of hours, whatever `separator` skips, and two
digits of minutes. -/
def takeOffset (separator : List Char → Option (List Char)) (cs : List Char) :
    Option (Int × List Char) :=
  let signed (negative : Bool) (rest : List Char) : Option (Int × List Char) := do
    let (hours, rest) ← takeNumber 2 2 rest
    let rest ← separator rest
    let (minutes, rest) ← takeNumber 2 2 rest
    if hours ≤ 23 ∧ minutes ≤ 59 then
      let offset : Int := (hours * 60 + minutes : Nat)
      return (if negative then -offset else offset, rest)
    else none
  match cs with
  | 'Z' :: rest => some (0, rest)
  | 'z' :: rest => some (0, rest)
  | '+' :: rest => signed false rest
  | '-' :: rest => signed true rest
  | '−' :: rest => signed true rest
  | _ => none

/-- The stored form with a given separator. -/
def parseStored? (separator : List Char → Option (List Char)) (cs : List Char) : Option Instant := do
  let (date, cs) ← takeDate false cs
  let cs ← separator cs
  let (time, cs) ← takeTime false cs
  if cs = [] then ofCivil? date time 0 else none

/-- The strict form. -/
def parseStrict? (cs : List Char) : Option Instant := do
  let (year, cs) ← takeNumber 4 4 cs
  let cs ← takeMark false '-' cs
  let (month, cs) ← takeNumber 2 2 cs
  let cs ← takeMark false '-' cs
  let (day, cs) ← takeNumber 2 2 cs
  let cs ← match cs with
    | 'T' :: rest => some rest
    | 't' :: rest => some rest
    | ' ' :: rest => some rest
    | _ => none
  let (hour, cs) ← takeNumber 2 2 cs
  let cs ← takeMark false ':' cs
  let (minute, cs) ← takeNumber 2 2 cs
  let cs ← takeMark false ':' cs
  let (second, cs) ← takeNumber 2 2 cs
  let (nanos, cs) ← takeFraction cs
  let (offset, cs) ← takeOffset (takeMark false ':') cs
  if cs = [] then ofCivil? ⟨year, month, day⟩ ⟨hour, minute, second, nanos⟩ offset else none

/-- An instant that was stored or handed in. -/
def parse? (s : String) : Option Instant :=
  let cs := trim s.toList
  (parseStored? (fun rest => some (trimStart rest)) cs).or
    ((parseStored? (takeMark false 'T') cs).or (parseStrict? cs))

/-- Colons and blanks are skipped. -/
def skipColons (cs : List Char) : List Char :=
  cs.dropWhile fun c => c = ':' || isBlank c

/-- An offset, or the name of UTC in any case. -/
def takeZone (cs : List Char) : Option (Int × List Char) :=
  if (cs.take 3).map Char.toUpper = ['U', 'T', 'C'] then some (0, cs.drop 3)
  else takeOffset (fun rest => some (skipColons rest)) cs

/-- An instant of a configuration. -/
def parseLoose? (s : String) : Option Instant := do
  let (date, cs) ← takeDate true s.toList
  let cs ← match cs with
    | 'T' :: rest => some rest
    | 't' :: rest => some rest
    | ' ' :: rest => some rest
    | _ => none
  let (time, cs) ← takeTime true cs
  let (offset, cs) ← takeZone (trimStart cs)
  if cs.all isBlank then ofCivil? date time offset else none

end RowHistory.Instant
