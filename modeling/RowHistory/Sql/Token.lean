import RowHistory.Binary.Reader
import RowHistory.Sql.Quoting

/-!
# Tokens of SQL

The words, names, literals, placeholders and signs of a statement. Blanks and comments lie
between them. This file fixes

* the tokens (`Token`), and a token in its place (`Lexeme`);
* what stands in front of a text (`Token.take`), which is never longer than the text;
* all lexemes of a text (`scan`).
-/

namespace RowHistory.Sql

/-- The signs. -/
inductive Sign where
  | parenOpen
  | parenClose
  | comma
  | dot
  | semicolon
  | star
  | plus
  | minus
  | equal
  | notEqual
  | less
  | lessEqual
  | greater
  | greaterEqual
  /-- A sign that no statement here uses. -/
  | other
deriving DecidableEq, Repr

/-- A token. -/
inductive Token where
  /-- A keyword or a bare name. -/
  | word (s : String)
  /-- A quoted name. -/
  | name (style : QuoteStyle) (s : String)
  /-- A text literal. -/
  | text (s : String)
  /-- A whole number. -/
  | integer (n : Nat)
  /-- A number with a point or an exponent. -/
  | real (x : Double)
  /-- A placeholder. -/
  | parameter
  /-- A sign. -/
  | sign (s : Sign)
  /-- Characters that make no token. -/
  | unknown
deriving DecidableEq, Repr

/-- A token in its place. -/
structure Lexeme where
  token : Token
  /-- The characters of the token. -/
  source : String
  /-- How many bytes stand before it. -/
  offset : Nat
  /-- What stands behind it. -/
  after : List Char
deriving DecidableEq, Repr

/-! ## 1. Characters -/

/-- A blank between tokens. -/
def isSpace (c : Char) : Bool :=
  c = ' ' || c = '\t' || c = '\n' || c = '\x0c' || c = '\r'

/-- A character that may start a word. -/
def isWordStart (c : Char) : Bool :=
  c.isAlpha || c = '_' || 0x80 ≤ c.toNat

/-- A character that may stand in a word. -/
def isWordChar (c : Char) : Bool :=
  isWordStart c || c.isDigit || c = '$'

/-! ## 2. One token -/

namespace Token

/-- What lies behind a comment that ends with a star and a slash. -/
def afterComment : List Char → List Char
  | [] => []
  | '*' :: '/' :: rest => rest
  | _ :: rest => afterComment rest

/-- A quoted name or text, whose opening mark is gone. -/
def takeQuoted (mark : Char) (make : String → Token) (cs : List Char) :
    Option Token × List Char :=
  match Quoting.decode mark cs with
  | some (content, rest) => (some (make (String.ofList content)), rest)
  | none => (some .unknown, [])

/-- A number, from its first character on. A letter must not follow it. -/
def takeNumber (cs : List Char) : Option Token × List Char :=
  match Numeral.span? cs with
  | none => (some .unknown, cs.drop 1)
  | some (n, rest) =>
    if rest.head?.any isWordChar then (some .unknown, rest.dropWhile isWordChar)
    else if n.isReal then (some (.real (n.toDouble false)), rest)
    else (some (.integer n.digits), rest)

/-- A sign of one character, or of two if the second is among the given ones. -/
def takeSign (single : Token) (pairs : List (Char × Token)) (cs : List Char) :
    Option Token × List Char :=
  match cs with
  | [] => (some single, [])
  | d :: rest => match pairs.find? fun p => p.1 = d with
    | some (_, pair) => (some pair, rest)
    | none => (some single, d :: rest)

/-- The token that starts with a character, and what follows it; nothing for a blank or a
comment. -/
def take (c : Char) (cs : List Char) : Option Token × List Char :=
  if isSpace c then (none, cs)
  else if isWordStart c then
    (some (.word (String.ofList (c :: cs.takeWhile isWordChar))), cs.dropWhile isWordChar)
  else match c with
    | '"' => takeQuoted '"' (.name .double) cs
    | '\x60' => takeQuoted '\x60' (.name .backtick) cs
    | '\'' => takeQuoted '\'' .text cs
    | '?' => (some .parameter, cs.dropWhile Char.isDigit)
    | '(' => (some (.sign .parenOpen), cs)
    | ')' => (some (.sign .parenClose), cs)
    | ',' => (some (.sign .comma), cs)
    | ';' => (some (.sign .semicolon), cs)
    | '*' => (some (.sign .star), cs)
    | '+' => (some (.sign .plus), cs)
    | '=' => takeSign (.sign .equal) [('=', .sign .equal)] cs
    | '<' => takeSign (.sign .less)
        [('=', .sign .lessEqual), ('>', .sign .notEqual), ('<', .sign .other)] cs
    | '>' => takeSign (.sign .greater) [('=', .sign .greaterEqual), ('>', .sign .other)] cs
    | '!' => takeSign .unknown [('=', .sign .notEqual)] cs
    | '|' => takeSign (.sign .other) [('|', .sign .other)] cs
    | '-' => match cs with
      | '-' :: rest => (none, rest.dropWhile (· ≠ '\n'))
      | _ => (some (.sign .minus), cs)
    | '/' => match cs with
      | '*' :: rest => (none, afterComment rest)
      | _ => (some (.sign .other), cs)
    | '.' => if cs.head?.any Char.isDigit then takeNumber (c :: cs) else (some (.sign .dot), cs)
    | '%' => (some (.sign .other), cs)
    | '&' => (some (.sign .other), cs)
    | '~' => (some (.sign .other), cs)
    | c => if c.isDigit then takeNumber (c :: cs) else (some .unknown, cs)

end Token

/-! ## 3. All tokens -/

/-- How many bytes characters take. -/
def byteCount (cs : List Char) : Nat :=
  cs.foldl (fun n c => n + c.utf8Size) 0

/-- The lexemes of characters, with fuel for each of them, behind a number of bytes. -/
def scanFrom : Nat → Nat → List Char → List Lexeme
  | 0, _, _ => []
  | _, _, [] => []
  | fuel + 1, offset, c :: cs =>
    let (token, rest) := Token.take c cs
    let source := (c :: cs).take (cs.length + 1 - rest.length)
    let others := scanFrom fuel (offset + byteCount source) rest
    match token with
    | some token => ⟨token, String.ofList source, offset, rest⟩ :: others
    | none => others

/-- The lexemes of a text. Every one takes a character at least, so the characters are fuel
enough. -/
def scan (sql : String) : List Lexeme :=
  scanFrom sql.toList.length 0 sql.toList

end RowHistory.Sql
