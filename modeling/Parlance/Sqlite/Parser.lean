import Parlance.Sqlite.Fault
import Parlance.Sqlite.Statement

/-! Reading a statement. The text is read from left to right without going back, so that the
first word that cannot follow is the one that is reported. -/

namespace Parlance.Sqlite

structure Cursor where
  sql : List Char
  tokens : List Token
  /-- The largest number of a placeholder so far. -/
  params : Nat
  /-- Placeholders with a name, and their numbers. -/
  named : List (List Char × Nat)

abbrev Parse := StateT Cursor (Except Fault)

namespace Parse

def peek : Parse (Option Token) := return (← get).tokens.head?

def advance : Parse Unit := modify fun c => { c with tokens := c.tokens.drop 1 }

/-- The next word cannot stand where it stands. -/
def refuse {α : Type} : Parse α := do
  match ← peek with
  | none => throw .incomplete
  | some t => throw (if t.kind = .illegal then .unrecognized t else .unexpected t)

def isSymbol (s : String) (t : Token) : Bool := t.kind = .symbol && t.text = s.toList

def isWord (w : String) (t : Token) : Bool := t.kind = .word && t.keyword = w

def nextIs (p : Token → Bool) : Parse Bool := return (← peek).any p

def accept (p : Token → Bool) : Parse Bool := do
  if ← nextIs p then
    advance
    return true
  return false

def symbol? (s : String) : Parse Bool := accept (isSymbol s)
def word? (w : String) : Parse Bool := accept (isWord w)

def symbol (s : String) : Parse Unit := do
  unless ← symbol? s do refuse

def word (w : String) : Parse Unit := do
  unless ← word? w do refuse

/-- Where the next word begins, or the end of the text. -/
def place : Parse Nat := do
  match ← peek with
  | some t => return t.offset
  | none => return Text.size ((← get).sql.takeWhile (· ≠ '\x00'))

/-- The text from a place up to the next word, without the space around it. -/
def sourceFrom (start : Nat) : Parse String := do
  let cs := Text.slice ⟨start, ← place⟩ (← get).sql
  return String.ofList (Text.dropEndWhile isSpace (cs.dropWhile isSpace))

def isName (t : Token) : Bool :=
  t.kind = .quotedName || t.kind = .string || (t.kind = .word && !t.isReserved)

def nameOf (t : Token) : Name :=
  if t.kind = .word then ⟨t.source, false, t.offset⟩
  else ⟨t.unquoted, t.text.head? = some '"', t.offset⟩

def name : Parse Name := do
  match ← peek with
  | some t =>
    if isName t then
      advance
      return nameOf t
    else refuse
  | none => refuse

/-- An optional name for something, with AS in front or without. -/
def label? : Parse (Option String) := do
  if ← word? "AS" then return some (← name).text
  match ← peek with
  | some t =>
    if isName t && !(t.kind = .word && Token.joinWords.contains t.keyword) then
      advance
      return some (nameOf t).text
    else return none
  | none => return none

def maxParam : Nat := 32766

def numbered (t : Token) (digits : List Char) : Parse Expr := do
  match Number.readDigits? digits with
  | some n =>
    if 1 ≤ n && n ≤ maxParam then
      modify fun c => { c with params := max c.params n }
      return .param n
    else throw (.placeholderRange t.offset)
  | none =>
    let n := (← get).params + 1
    modify fun c => { c with params := n }
    return .param n

/-- A placeholder takes the number that it says, or the one that its name has, or the next. -/
def placeholder (t : Token) : Parse Expr := do
  match t.text with
  | '?' :: digits => numbered t digits
  | text =>
    match (← get).named.lookup text with
    | some n => return .param n
    | none =>
      let n := (← get).params + 1
      modify fun c => { c with params := n, named := (text, n) :: c.named }
      return .param n

def hexadecimal (ds : List Char) : Nat := ds.foldl (fun n c => 16 * n + (Number.hexValue? c).getD 0) 0

def integerValue (t : Token) : Value :=
  match t.text with
  | '0' :: x :: ds =>
    if x = 'x' || x = 'X' then .int (Bytes.signed 8 (hexadecimal ds))
    else ((Numeral.read? t.text).map (·.toValue)).getD .null
  | cs => ((Numeral.read? cs).map (·.toValue)).getD .null

/-- A minus sign makes room for the smallest integer. -/
def negatedInteger? (t : Token) : Option Value :=
  if t.kind = .integer && Number.ofDigits t.text = Nat.pow 2 63 then some (.int Number.minInt64) else none

def blobValue (t : Token) : Value :=
  .blob ((Bytes.ofHexDigits? ((t.text.drop 2).dropLast)).getD [])

def simpleOps : List (String × Nat × BinaryOp) := [
  ("=", 4, .equal), ("==", 4, .equal), ("<>", 4, .notEqual), ("!=", 4, .notEqual),
  ("<", 5, .less), ("<=", 5, .lessEqual), (">", 5, .greater), (">=", 5, .greaterEqual),
  ("&", 7, .bitAnd), ("|", 7, .bitOr), ("<<", 7, .shiftLeft), (">>", 7, .shiftRight),
  ("+", 8, .add), ("-", 8, .subtract), ("*", 9, .multiply), ("/", 9, .divide),
  ("%", 9, .remainder), ("||", 10, .concat)]

def simpleOp? (t : Token) : Option (Nat × BinaryOp) :=
  if t.kind = .symbol then simpleOps.lookup t.source
  else if isWord "AND" t then some (2, .and)
  else if isWord "OR" t then some (1, .or)
  else none

/-- How tightly the tests bind that are written in words. -/
def testLevel : Nat := 4

def notLevel : Nat := 3
def prefixLevel : Nat := 12

def null : Expr := .literal .null

def isNull (e : Expr) : Expr := .binary .is e null
def isNotNull (e : Expr) : Expr := .binary .isNot e null

def between (e low high : Expr) : Expr := .binary .and (.binary .greaterEqual e low) (.binary .lessEqual e high)

/-- One of a list: equal to the first or to one of the rest. -/
def oneOf (e : Expr) : List Expr → Expr
  | [] => .literal (.int 0)
  | [x] => .binary .equal e x
  | x :: xs => .binary .or (.binary .equal e x) (oneOf e xs)

def negatedIf (b : Bool) (e : Expr) : Expr := if b then .unary .not e else e

/-- Words and a size in parentheses, as they are written. -/
def typeWords : Nat → Parse Unit
  | 0 => return
  | fuel + 1 => do
    if ← accept (fun t => isName t && t.kind ≠ .string) then typeWords fuel

def signedNumber : Parse Unit := do
  unless ← symbol? "-" do
    let _ ← symbol? "+"
  unless ← accept (fun t => t.kind = .integer || t.kind = .real) do refuse

def typeSize : Parse Unit := do
  if ← symbol? "(" then
    signedNumber
    if ← symbol? "," then signedNumber
    symbol ")"

/-- The name of a type, empty if there is none. A quoted name stands without its quotes. -/
def typeName : Parse String := do
  let start ← place
  match ← peek with
  | some t =>
    if isName t then
      typeWords (← get).tokens.length
      typeSize
      let s ← sourceFrom start
      return if t.kind = .word then s else t.unquoted
    else return ""
  | none => return ""

/-- The present as the keyword asks for it. -/
def current (keyword : String) (offset : Nat) : Expr :=
  let f := if keyword = "CURRENT_DATE" then "date" else if keyword = "CURRENT_TIME" then "time" else "datetime"
  .call ⟨f, false, offset⟩ [.literal (.ofText "now")]

mutual

/-- An expression whose operators bind at least as tightly as `level`. -/
def expr : Nat → Nat → Parse Expr
  | 0, _ => refuse
  | fuel + 1, level => do exprTail fuel level (← operand fuel)

def exprTail : Nat → Nat → Expr → Parse Expr
  | 0, _, _ => refuse
  | fuel + 1, level, a => do
    match ← peek with
    | none => return a
    | some t =>
      match simpleOp? t with
      | some (own, op) =>
        if own < level then return a
        advance
        exprTail fuel level (.binary op a (← expr fuel (own + 1)))
      | none =>
        if isWord "COLLATE" t then
          advance
          let _ ← name
          exprTail fuel level a
        else if level ≤ testLevel && (isWord "IS" t || isWord "ISNULL" t || isWord "NOTNULL" t ||
            isWord "NOT" t || isWord "LIKE" t || isWord "BETWEEN" t || isWord "IN" t) then
          advance
          exprTail fuel level (← test fuel t.keyword a)
        else return a

/-- A test of `a` whose first word has been read. -/
def test : Nat → String → Expr → Parse Expr
  | 0, _, _ => refuse
  | fuel + 1, keyword, a => do
    match keyword with
    | "ISNULL" => return isNull a
    | "NOTNULL" => return isNotNull a
    | "IS" =>
      let negated ← word? "NOT"
      return .binary (if negated then .isNot else .is) a (← expr fuel (testLevel + 1))
    | "NOT" =>
      if ← word? "NULL" then return isNotNull a
      else if ← word? "LIKE" then return .unary .not (← test fuel "LIKE" a)
      else if ← word? "BETWEEN" then return .unary .not (← test fuel "BETWEEN" a)
      else if ← word? "IN" then return .unary .not (← test fuel "IN" a)
      else refuse
    | "LIKE" => return .binary .like a (← expr fuel (testLevel + 1))
    | "BETWEEN" =>
      let low ← expr fuel (testLevel + 1)
      word "AND"
      return between a low (← expr fuel (testLevel + 1))
    | _ =>
      symbol "("
      if ← symbol? ")" then return .literal (.int 0)
      let items ← exprs fuel
      symbol ")"
      return oneOf a items

def exprs : Nat → Parse (List Expr)
  | 0 => refuse
  | fuel + 1 => do
    let e ← expr fuel 0
    if ← symbol? "," then return e :: (← exprs fuel)
    return [e]

def operand : Nat → Parse Expr
  | 0 => refuse
  | fuel + 1 => do
    match ← peek with
    | none => refuse
    | some t =>
      match t.kind with
      | .integer =>
        advance
        return .literal (integerValue t)
      | .real =>
        advance
        return .literal (((Numeral.read? t.text).map fun n => .real n.value.toFloat).getD .null)
      | .string =>
        advance
        return .literal (.ofText t.unquoted)
      | .blob =>
        advance
        return .literal (blobValue t)
      | .variable =>
        advance
        placeholder t
      | .symbol => sign fuel t
      | .word | .quotedName => named fuel t
      | .illegal => refuse

/-- A sign or a parenthesis. -/
def sign : Nat → Token → Parse Expr
  | 0, _ => refuse
  | fuel + 1, t => do
    if isSymbol "(" t then
      advance
      let e ← expr fuel 0
      symbol ")"
      return e
    else if isSymbol "-" t then
      advance
      match (← peek).bind negatedInteger? with
      | some v =>
        advance
        return .literal v
      | none => return .unary .negate (← expr fuel prefixLevel)
    else if isSymbol "+" t then
      advance
      return .unary .plus (← expr fuel prefixLevel)
    else if isSymbol "~" t then
      advance
      return .unary .invert (← expr fuel prefixLevel)
    else refuse

/-- A column, a function, or what is written with words of its own. -/
def named : Nat → Token → Parse Expr
  | 0, _ => refuse
  | fuel + 1, t => do
    if isWord "NULL" t then
      advance
      return null
    else if isWord "NOT" t then
      advance
      return .unary .not (← expr fuel notLevel)
    else if isWord "CURRENT_TIMESTAMP" t || isWord "CURRENT_DATE" t || isWord "CURRENT_TIME" t then
      advance
      return current t.keyword t.offset
    else if isWord "CAST" t then
      advance
      symbol "("
      let e ← expr fuel 0
      word "AS"
      let type ← typeName
      symbol ")"
      return .cast type e
    else
      let n ← name
      if ← symbol? "(" then
        if ← symbol? "*" then
          symbol ")"
          if Text.sameWord n.text.toList "count".toList then return .countRows n
          else throw (.argumentCount n.text n.offset)
        else if ← symbol? ")" then return .call n []
        else
          let args ← exprs fuel
          symbol ")"
          return .call n args
      else if ← symbol? "." then
        let column ← name
        return .column (some n.text) { column with offset := n.offset, doubtful := false }
      else return .column none n

end

/-- Enough for any expression in the rest of the text. -/
def fuel : Parse Nat := return 8 * (← get).tokens.length + 16

def expression : Parse Expr := do expr (← fuel) 0

def expressions : Parse (List Expr) := do exprs (← fuel)

def where? : Parse (Option Expr) := do
  if ← word? "WHERE" then return some (← expression)
  return none

def resultColumn : Parse ResultColumn := do
  if ← symbol? "*" then return .all
  let start ← place
  let e ← expression
  let source ← sourceFrom start
  return .expr e (← label?) source

def resultColumns : Nat → Parse (List ResultColumn)
  | 0 => refuse
  | fuel + 1 => do
    let c ← resultColumn
    if ← symbol? "," then return c :: (← resultColumns fuel)
    return [c]

def orderTerm : Parse OrderTerm := do
  let e ← expression
  let descending ← word? "DESC"
  unless descending do
    let _ ← word? "ASC"
  if ← word? "NULLS" then
    if ← word? "FIRST" then return ⟨e, descending, some true⟩
    word "LAST"
    return ⟨e, descending, some false⟩
  return ⟨e, descending, none⟩

def orderTerms : Nat → Parse (List OrderTerm)
  | 0 => refuse
  | fuel + 1 => do
    let t ← orderTerm
    if ← symbol? "," then return t :: (← orderTerms fuel)
    return [t]

def order : Parse (List OrderTerm) := do
  if ← word? "ORDER" then
    word "BY"
    orderTerms (← fuel)
  else return []

def limit : Parse (Option Limit) := do
  if ← word? "LIMIT" then
    let first ← expression
    if ← word? "OFFSET" then return some ⟨first, some (← expression)⟩
    if ← symbol? "," then return some ⟨← expression, some first⟩
    return some ⟨first, none⟩
  else return none

def groups : Parse (List Expr) := do
  if ← word? "GROUP" then
    word "BY"
    expressions
  else return []

def having : Parse (Option Expr) := do
  if ← word? "HAVING" then return some (← expression)
  return none

def rowsOfValues : Nat → Parse (List (List Expr))
  | 0 => refuse
  | fuel + 1 => do
    symbol "("
    let row ← expressions
    symbol ")"
    if ← symbol? "," then return row :: (← rowsOfValues fuel)
    return [row]

def nameList : Nat → Parse (List String)
  | 0 => refuse
  | fuel + 1 => do
    let n ← name
    if ← symbol? "," then return n.text :: (← nameList fuel)
    return [n.text]

def names? : Parse (Option (List String)) := do
  if ← symbol? "(" then
    let l ← nameList (← fuel)
    symbol ")"
    return some l
  return none

def compoundOp? : Parse (Option CompoundOp) := do
  if ← word? "UNION" then return some (if ← word? "ALL" then .unionAll else .union)
  else if ← word? "EXCEPT" then return some .except
  else if ← word? "INTERSECT" then return some .intersect
  else return none

mutual

def query : Nat → Parse Query
  | 0 => refuse
  | fuel + 1 => do
    let defs ← if ← word? "WITH" then
        let _ ← word? "RECURSIVE"
        commonTables fuel
      else pure []
    let first ← core fuel
    let b ← compounds fuel first
    let o ← order
    return .mk defs b o (← limit)

def compounds : Nat → Body → Parse Body
  | 0, _ => refuse
  | fuel + 1, a => do
    match ← compoundOp? with
    | some op => compounds fuel (.compound op a (← core fuel))
    | none => return a

def core : Nat → Parse Body
  | 0 => refuse
  | fuel + 1 => do
    if ← word? "VALUES" then return .values (← rowsOfValues (fuel + 1))
    else
      word "SELECT"
      let distinct ← word? "DISTINCT"
      unless distinct do
        let _ ← word? "ALL"
      let result ← resultColumns (fuel + 1)
      let from_ ← source fuel
      let filter ← where?
      let g ← groups
      return .select distinct result from_ filter g (← having)

def source : Nat → Parse Source
  | 0 => refuse
  | fuel + 1 => do
    if ← word? "FROM" then
      if ← symbol? "(" then
        let q ← query fuel
        symbol ")"
        return .query q (← label?)
      let n ← name
      if ← symbol? "." then return .table (← name).text (← label?)
      return .table n.text (← label?)
    else return .nothing

def commonTables : Nat → Parse (List CommonTable)
  | 0 => refuse
  | fuel + 1 => do
    let n ← name
    let columns ← names?
    word "AS"
    symbol "("
    let q ← query fuel
    symbol ")"
    let t := CommonTable.mk n.text (columns.getD []) q
    if ← symbol? "," then return t :: (← commonTables fuel)
    return [t]

end

def returning : Parse (List ResultColumn) := do
  if ← word? "RETURNING" then resultColumns (← fuel) else return []

def conflictAction : Parse Conflict := do
  if ← word? "REPLACE" then return .replace
  else if ← word? "IGNORE" then return .ignore
  else if ← word? "ABORT" then return .abort
  else if ← word? "FAIL" then return .abort
  else if ← word? "ROLLBACK" then return .abort
  else refuse

def conflict : Parse Conflict := do
  if ← word? "OR" then conflictAction else return .abort

/-- A table, perhaps with the name of its database in front. -/
def tableName : Parse Name := do
  let n ← name
  if ← symbol? "." then name else return n

def insertSource : Parse InsertSource := do
  if ← word? "DEFAULT" then
    word "VALUES"
    return .defaults
  else if ← nextIs (isWord "VALUES") then
    advance
    return .rows (← rowsOfValues (← fuel))
  else return .query (← query (← fuel))

def insert (c : Conflict) : Parse Statement := do
  word "INTO"
  let t ← tableName
  if ← word? "AS" then
    let _ ← name
  let columns ← names?
  let s ← insertSource
  return .insert c t.text columns s (← returning)

def assignment : Parse (String × Expr) := do
  let n ← name
  symbol "="
  return (n.text, ← expression)

def assignments : Nat → Parse (List (String × Expr))
  | 0 => refuse
  | fuel + 1 => do
    let a ← assignment
    if ← symbol? "," then return a :: (← assignments fuel)
    return [a]

def update : Parse Statement := do
  let _ ← conflict
  let t ← tableName
  word "SET"
  let l ← assignments (← fuel)
  let filter ← where?
  return .update t.text l filter (← returning)

def delete : Parse Statement := do
  word "FROM"
  let t ← tableName
  let filter ← where?
  return .delete t.text filter (← returning)

/-- Conflict clauses of constraints are read over. -/
def onConflict : Parse Unit := do
  if ← word? "ON" then
    word "CONFLICT"
    let _ ← conflictAction

/-- A name as a default stands for a truth value or for itself. -/
def bareDefault : Expr → Expr
  | .column none n =>
    if Text.sameWord n.text.toList "true".toList then .literal (.int 1)
    else if Text.sameWord n.text.toList "false".toList then .literal (.int 0)
    else .literal (.ofText n.text)
  | e => e

def defaultValue : Parse (Expr × String) := do
  if ← symbol? "(" then
    let start ← place
    let e ← expression
    let source ← sourceFrom start
    symbol ")"
    return (e, source)
  else
    let start ← place
    let e ← operand (← fuel)
    return (bareDefault e, ← sourceFrom start)

def sortDirection : Parse Unit := do
  unless ← word? "DESC" do
    let _ ← word? "ASC"

def columnConstraints : Nat → ColumnDef → Parse ColumnDef
  | 0, _ => refuse
  | fuel + 1, c => do
    if ← word? "CONSTRAINT" then
      let _ ← name
      columnConstraints fuel c
    else if ← word? "PRIMARY" then
      word "KEY"
      sortDirection
      onConflict
      let auto ← word? "AUTOINCREMENT"
      columnConstraints fuel { c with primaryKey := true, autoincrement := auto }
    else if ← word? "NOT" then
      word "NULL"
      onConflict
      columnConstraints fuel { c with notNull := true }
    else if ← word? "NULL" then
      onConflict
      columnConstraints fuel c
    else if ← word? "UNIQUE" then
      onConflict
      columnConstraints fuel { c with unique := true }
    else if ← word? "DEFAULT" then
      columnConstraints fuel { c with default := some (← defaultValue) }
    else if ← word? "COLLATE" then
      let _ ← name
      columnConstraints fuel c
    else return c

def columnDef : Parse ColumnDef := do
  let n ← name
  let type ← typeName
  columnConstraints (← fuel) ⟨n.text, type, false, false, false, false, none⟩

def keyColumns : Nat → Parse (List String)
  | 0 => refuse
  | fuel + 1 => do
    let n ← name
    sortDirection
    if ← symbol? "," then return n.text :: (← keyColumns fuel)
    return [n.text]

def parenthesizedKey : Parse (List String × Bool) := do
  symbol "("
  let l ← keyColumns (← fuel)
  let auto ← word? "AUTOINCREMENT"
  symbol ")"
  onConflict
  return (l, auto)

def tableConstraints : Nat → Parse (List TableConstraint)
  | 0 => refuse
  | fuel + 1 => do
    if ← word? "CONSTRAINT" then
      let _ ← name
      tableConstraints fuel
    else if ← word? "PRIMARY" then
      word "KEY"
      let (l, auto) ← parenthesizedKey
      let _ ← symbol? ","
      return .primaryKey l auto :: (← tableConstraints fuel)
    else if ← word? "UNIQUE" then
      let (l, _) ← parenthesizedKey
      let _ ← symbol? ","
      return .unique l :: (← tableConstraints fuel)
    else return []

def columnDefs : Nat → Parse (List ColumnDef × List TableConstraint)
  | 0 => refuse
  | fuel + 1 => do
    let c ← columnDef
    if ← symbol? "," then
      if ← nextIs fun t => isWord "CONSTRAINT" t || isWord "PRIMARY" t || isWord "UNIQUE" t then
        return ([c], ← tableConstraints fuel)
      let (cs, ts) ← columnDefs fuel
      return (c :: cs, ts)
    return ([c], [])

def createTable : Parse Statement := do
  unless ← word? "TEMP" do
    let _ ← word? "TEMPORARY"
  word "TABLE"
  let ifNotExists ← word? "IF"
  if ifNotExists then
    word "NOT"
    word "EXISTS"
  let start ← peek
  let n ← tableName
  symbol "("
  let (columns, constraints) ← columnDefs (← fuel)
  symbol ")"
  let written := match start with
    | some t => if t.offset = n.offset then t.source else n.text
    | none => n.text
  return .createTable n written ifNotExists columns constraints

def dropTable : Parse Statement := do
  word "TABLE"
  let ifExists ← word? "IF"
  if ifExists then word "EXISTS"
  return .dropTable (← tableName).text ifExists

def alterTable : Parse Statement := do
  word "TABLE"
  let t ← tableName
  word "ADD"
  let _ ← word? "COLUMN"
  return .addColumn t.text (← columnDef)

def pragma : Parse Statement := do
  let _ ← tableName
  if ← symbol? "=" then
    let _ ← expression
    return .pragma true
  if ← symbol? "(" then
    let _ ← expression
    symbol ")"
    return .pragma true
  return .pragma false

def statement : Parse Statement := do
  if ← word? "CREATE" then createTable
  else if ← word? "DROP" then dropTable
  else if ← word? "ALTER" then alterTable
  else if ← word? "INSERT" then do insert (← conflict)
  else if ← word? "REPLACE" then insert .replace
  else if ← word? "UPDATE" then update
  else if ← word? "DELETE" then delete
  else if ← word? "PRAGMA" then pragma
  else if ← nextIs fun t => isWord "SELECT" t || isWord "VALUES" t || isWord "WITH" t then
    return .select (← query (← fuel))
  else refuse

/-- The statement has to end here; what comes after a semicolon is not looked at. -/
def finish : Parse Unit := do
  unless ← nextIs (isSymbol ";") do
    if (← peek).isSome then refuse

end Parse

structure Parsed where
  statement : Statement
  params : Nat

/-- The first statement of a text, if there is one. -/
def Parsed.read? (sql : List Char) : Except Fault (Option Parsed) :=
  let tokens := (Token.scan sql).dropWhile (Parse.isSymbol ";")
  if tokens.isEmpty then .ok none
  else
    match (do let s ← Parse.statement; Parse.finish; return s : Parse Statement).run ⟨sql, tokens, 0, []⟩ with
    | .ok (s, c) => .ok (some ⟨s, c.params⟩)
    | .error f => .error f

end Parlance.Sqlite
