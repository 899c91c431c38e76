import RowHistory.Sql.Cell
import RowHistory.Sql.Token

/-!
# Commands

What a statement asks for. A text is read into a command from its tokens; the first token that
fits nowhere is the syntax error. This file fixes

* expressions over some names (`Expr`), and names as they are written (`Name`);
* the commands (`Command`);
* the reader (`Command.read`), which leaves what stands behind the first command.

Of an expression, OR binds least, then AND, NOT, equality with IS, and order.
-/

namespace RowHistory.Sql

/-! ## 1. Expressions and commands -/

/-- A comparison. -/
inductive Relation where
  | eq
  | ne
  | lt
  | le
  | gt
  | ge
deriving DecidableEq, Repr

/-- An expression over columns of some kind of name. -/
inductive Expr (ν : Type) where
  | column (name : ν)
  /-- A value that is supplied later, by its place. -/
  | parameter (index : Nat)
  | constant (c : Cell)
  | compare (op : Relation) (left right : Expr ν)
  | isNull (e : Expr ν)
  | not (e : Expr ν)
  | and (left right : Expr ν)
  | or (left right : Expr ν)
deriving DecidableEq, Repr

/-- A name as it is written. -/
structure Name where
  text : String
  /-- How it is quoted, if it is. -/
  style : Option QuoteStyle
  /-- How many bytes stand before it. -/
  offset : Nat
deriving DecidableEq, Repr

/-- The way to a table. -/
structure Path where
  schema : Option String
  table : Name
deriving DecidableEq, Repr

/-- The way to a table as messages name it. -/
def Path.text (p : Path) : String :=
  match p.schema with
  | some schema => s!"{schema}.{p.table.text}"
  | none => p.table.text

/-- A column in a declaration. -/
structure ColumnDef where
  name : String
  /-- The declared type, in words. -/
  type : String
  notNull : Bool
deriving DecidableEq, Repr

/-- A command. -/
inductive Command where
  /-- Nothing. -/
  | empty
  /-- A selection that reads no table. -/
  | selectConstant
  /-- All columns of the row that fits and comes first in descending order of a term. -/
  | select (path : Path) (condition : Option (Expr Name)) (order : Option (Expr Name))
  /-- A new row. -/
  | insert (path : Path) (columns : List Name) (values : List (Expr Name))
  /-- A change of the rows that fit. -/
  | update (path : Path) (assignments : List (Name × Expr Name)) (condition : Option (Expr Name))
  /-- A new table, unless there is one and that is allowed. -/
  | create (ifNotExists : Bool) (path : Path) (columns : List ColumnDef)
  /-- A setting of the connection. -/
  | pragma
  /-- A further database file. -/
  | attach (file : String)
deriving Repr

/-- Why a text is no command. -/
inductive SyntaxError where
  /-- A token fits nowhere. -/
  | near (l : Lexeme)
  /-- Characters make no token. -/
  | unrecognized (l : Lexeme)
  /-- The text ends too early. -/
  | incomplete
deriving Repr

/-! ## 2. Reading -/

/-- What is left to read, and how many placeholders were read. -/
structure Cursor where
  rest : List Lexeme
  parameters : Nat
deriving Repr

/-- A reader of tokens. -/
abbrev Reader := StateT Cursor (Except SyntaxError)

namespace Reader

variable {α : Type}

/-- The next token, which is left in place. -/
def peek? : Reader (Option Token) := do
  return (← get).rest.head?.map Lexeme.token

/-- Fails at the next token. -/
def unexpected : Reader α := do
  match (← get).rest with
  | [] => throw .incomplete
  | l :: _ => throw (if l.token = .unknown then .unrecognized l else .near l)

/-- Takes the next token if it fits. -/
def accept? (fits : Lexeme → Option α) : Reader (Option α) := do
  let cursor ← get
  match cursor.rest with
  | [] => return none
  | l :: rest => match fits l with
    | some a =>
      set { cursor with rest }
      return some a
    | none => return none

/-- Takes a token that must come. -/
def expect (fits : Lexeme → Option α) : Reader α := do
  match ← accept? fits with
  | some a => return a
  | none => unexpected

/-- The token is a word, in upper or lower case. -/
def isWord (word : String) (l : Lexeme) : Option Unit :=
  match l.token with
  | .word s => if s.toUpper = word then some () else none
  | _ => none

/-- The token is a sign. -/
def isSign (sign : Sign) (l : Lexeme) : Option Unit :=
  if l.token = .sign sign then some () else none

/-- Takes a word that may come. -/
def word? (word : String) : Reader Bool := do
  return (← accept? (isWord word)).isSome

/-- Takes a sign that may come. -/
def sign? (sign : Sign) : Reader Bool := do
  return (← accept? (isSign sign)).isSome

/-- Takes a word that must come. -/
def word (word : String) : Reader Unit :=
  expect (isWord word)

/-- Takes a sign that must come. -/
def sign (sign : Sign) : Reader Unit :=
  expect (isSign sign)

/-- The words that are no names unless they are quoted. -/
def reserved : List String :=
  ["ADD", "ALL", "ALTER", "AND", "AS", "AUTOINCREMENT", "BETWEEN", "CASE", "CHECK", "COLLATE",
    "COMMIT", "CONSTRAINT", "CREATE", "DEFAULT", "DEFERRABLE", "DELETE", "DISTINCT", "DROP",
    "ELSE", "ESCAPE", "EXCEPT", "EXISTS", "FOREIGN", "FROM", "GROUP", "HAVING", "IN", "INDEX",
    "INSERT", "INTERSECT", "INTO", "IS", "ISNULL", "JOIN", "LIMIT", "NOT", "NOTHING", "NOTNULL",
    "NULL", "ON", "OR", "ORDER", "PRIMARY", "REFERENCES", "RETURNING", "SELECT", "SET", "TABLE",
    "THEN", "TO", "TRANSACTION", "UNION", "UNIQUE", "UPDATE", "USING", "VALUES", "WHEN", "WHERE"]

/-- The token is a name. -/
def isName (l : Lexeme) : Option Name :=
  match l.token with
  | .word s => if reserved.contains s.toUpper then none else some ⟨s, none, l.offset⟩
  | .name style s => some ⟨s, some style, l.offset⟩
  | _ => none

/-- Takes a name that must come; a text literal may stand for one. -/
def name : Reader Name :=
  expect fun l => match l.token with
    | .text s => some ⟨s, none, l.offset⟩
    | _ => isName l

/-- Takes the way to a table. -/
def path : Reader Path := do
  let first ← name
  if ← sign? .dot then
    return ⟨some first.text, ← name⟩
  else
    return ⟨none, first⟩

/-- Takes items with commas between them, at most as many as the fuel allows. -/
def commaSeparated (item : Reader α) : Nat → Reader (List α)
  | 0 => unexpected
  | fuel + 1 => do
    let first ← item
    if ← sign? .comma then
      return first :: (← commaSeparated item fuel)
    else
      return [first]

/-- Takes items with commas between them. -/
def commaList (item : Reader α) : Reader (List α) := do
  commaSeparated item (← get).rest.length

/-- Goes on with an operand as long as an operator follows. -/
def chainFrom (operator? : Reader (Option (α → Reader α))) : Nat → α → Reader α
  | 0, left => return left
  | fuel + 1, left => do
    match ← operator? with
    | some apply => chainFrom operator? fuel (← apply left)
    | none => return left

/-- Operands with operators between them, grouped to the left. -/
def chain (operand : Reader α) (operator? : Reader (Option (α → Reader α))) : Reader α := do
  let left ← operand
  chainFrom operator? (← get).rest.length left

/-- A binary operator whose right side is an operand. -/
def binary (operand : Reader α) (make : α → α → α) (left : α) : Reader α := do
  return make left (← operand)

/-- The comparison by order that a token asks for. -/
def isOrderSign (l : Lexeme) : Option Relation :=
  match l.token with
  | .sign .less => some .lt
  | .sign .lessEqual => some .le
  | .sign .greater => some .gt
  | .sign .greaterEqual => some .ge
  | _ => none

/-- The comparison by equality that a token asks for. -/
def isEqualitySign (l : Lexeme) : Option Relation :=
  match l.token with
  | .sign .equal => some .eq
  | .sign .notEqual => some .ne
  | _ => none

/-- A number, which may be too large for an integer. -/
def isNumber (negative : Bool) (l : Lexeme) : Option Cell :=
  match l.token with
  | .integer n =>
    let i : Int := if negative then -(n : Int) else n
    if Text.InInt64 i then some (.integer i)
    else some (.real (Double.ofInt i))
  | .real x => some (.real (if negative then Double.mul (Double.ofInt (-1)) x else x))
  | _ => none

/-- A literal that is no number. -/
def isConstant (l : Lexeme) : Option Cell :=
  match l.token with
  | .text s => some (.text s)
  | .word s => if s.toUpper = "NULL" then some .null else none
  | _ => none

/-- A placeholder. -/
def parameter? : Reader (Option Nat) := do
  match ← accept? fun l => if l.token = .parameter then some () else none with
  | some () =>
    let cursor ← get
    set { cursor with parameters := cursor.parameters + 1 }
    return some cursor.parameters
  | none => return none

/-- What operators combine, given how to read what stands in parentheses. -/
def primary (inner : Reader (Expr Name)) : Reader (Expr Name) := do
  if ← sign? .parenOpen then
    let e ← inner
    sign .parenClose
    return e
  if let some index ← parameter? then
    return .parameter index
  if let some c ← accept? isConstant then
    return .constant c
  if let some c ← accept? (isNumber false) then
    return .constant c
  if ← sign? .minus then
    return .constant (← expect (isNumber true))
  return .column (← expect isName)

/-- Comparisons by order. -/
def ordered (inner : Reader (Expr Name)) : Reader (Expr Name) :=
  chain (primary inner) do
    return (← accept? isOrderSign).map fun op => binary (primary inner) (Expr.compare op)

/-- Comparisons by equality and with null. -/
def equated (inner : Reader (Expr Name)) : Reader (Expr Name) :=
  chain (ordered inner) do
    if let some op ← accept? isEqualitySign then
      return some (binary (ordered inner) (Expr.compare op))
    if ← word? "IS" then
      return some fun left => do
        let negated ← word? "NOT"
        word "NULL"
        return if negated then .not (.isNull left) else .isNull left
    return none

/-- Negations. -/
def negated (inner : Reader (Expr Name)) : Nat → Reader (Expr Name)
  | 0 => unexpected
  | fuel + 1 => do
    if ← word? "NOT" then
      return .not (← negated inner fuel)
    else
      equated inner

/-- An expression, with fuel for each pair of parentheses. -/
def expressionWith : Nat → Reader (Expr Name)
  | 0 => unexpected
  | fuel + 1 =>
    let negation : Reader (Expr Name) := negated (expressionWith fuel) (fuel + 1)
    let conjunction : Reader (Expr Name) := chain negation do
      return if ← word? "AND" then some (binary negation Expr.and) else none
    chain conjunction do
      return if ← word? "OR" then some (binary conjunction Expr.or) else none

/-- An expression. -/
def expression : Reader (Expr Name) := do
  expressionWith ((← get).rest.length + 1)

/-- A condition, if one comes. -/
def condition? : Reader (Option (Expr Name)) := do
  if ← word? "WHERE" then
    return some (← expression)
  else
    return none

/-- A selection, whose first word is gone. -/
def select : Reader Command := do
  if ← sign? .star then
    word "FROM"
    let path ← path
    let condition ← condition?
    let order ← if ← word? "ORDER" then do
        word "BY"
        let term ← expression
        word "DESC"
        pure (some term)
      else pure none
    if ← word? "LIMIT" then
      let _ ← expect (isNumber false)
    return .select path condition order
  else
    let _ ← expression
    return .selectConstant

/-- A new row, whose first word is gone. -/
def insert : Reader Command := do
  word "INTO"
  let path ← path
  sign .parenOpen
  let columns ← commaList name
  sign .parenClose
  word "VALUES"
  sign .parenOpen
  let values ← commaList expression
  sign .parenClose
  return .insert path columns values

/-- A change, whose first word is gone. -/
def update : Reader Command := do
  let path ← path
  word "SET"
  let assignments ← commaList do
    let column ← name
    sign .equal
    return (column, ← expression)
  return .update path assignments (← condition?)

/-- The words of a declared type. -/
def typeWords : Nat → Reader (List String)
  | 0 => return []
  | fuel + 1 => do
    match ← accept? isName with
    | some n => return n.text :: (← typeWords fuel)
    | none => return []

/-- A declared column. -/
def columnDef : Reader ColumnDef := do
  let column ← name
  let type ← typeWords (← get).rest.length
  let notNull ← word? "NOT"
  if notNull then
    word "NULL"
  return ⟨column.text, " ".intercalate type, notNull⟩

/-- A new table, whose first word is gone. -/
def create : Reader Command := do
  word "TABLE"
  let ifNotExists ← word? "IF"
  if ifNotExists then
    word "NOT"
    word "EXISTS"
  let path ← path
  sign .parenOpen
  let columns ← commaList columnDef
  sign .parenClose
  return .create ifNotExists path columns

/-- A setting, whose first word is gone. -/
def pragma : Reader Command := do
  let _ ← path
  if ← sign? .equal then
    let _ ← sign? .minus
    let _ ← expect fun l => (isNumber false l).or ((isName l).map fun n => .text n.text)
  return .pragma

/-- A further database, whose first word is gone. -/
def attach : Reader Command := do
  let _ ← word? "DATABASE"
  let file ← expect fun l => match l.token with
    | .text s => some s
    | _ => none
  word "AS"
  let _ ← name
  return .attach file

/-- A command, if there is one. -/
def command : Reader Command := do
  if (← peek?).isNone then
    return .empty
  if ← word? "SELECT" then select
  else if ← word? "INSERT" then insert
  else if ← word? "UPDATE" then update
  else if ← word? "CREATE" then create
  else if ← word? "PRAGMA" then pragma
  else if ← word? "ATTACH" then attach
  else unexpected

end Reader

/-- A command that was read. -/
structure Command.Reading where
  command : Command
  /-- How many placeholders it has. -/
  parameters : Nat
  /-- What stands behind it. -/
  after : String
deriving Repr

/-- The lexemes without the semicolons in front of them. -/
def skipSemicolons (ls : List Lexeme) : List Lexeme :=
  ls.dropWhile fun l => l.token = .sign .semicolon

/-- Reads the first command of a text. -/
def Command.read (sql : String) : Except SyntaxError Command.Reading := do
  let (command, cursor) ← Reader.command ⟨skipSemicolons (scan sql), 0⟩
  match cursor.rest with
  | [] => return ⟨command, cursor.parameters, ""⟩
  | l :: _ =>
    if l.token = .sign .semicolon then
      return ⟨command, cursor.parameters, String.ofList l.after⟩
    else
      throw (if l.token = .unknown then .unrecognized l else .near l)

end RowHistory.Sql
