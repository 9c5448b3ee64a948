import Nut.Syntax.Parse

/-! The rules of the grammar. Each rule is given in terms of the rules for the parts of a
construct, and `Rules.nested` ties them together down to a given depth. -/

namespace Nut

open Parse

structure Rules where
  statement : Parse Stmt
  statements : Parse (List Stmt)
  /-- An expression whose outer operators bind tighter than a level. -/
  expression : Nat → Parse Expr
  /-- What follows a left operand. -/
  infixes : Nat → Expr → Parse Expr
  elements : Token → Parse (List Expr)
  pairs : Parse (List (Expr × Expr))

namespace Rules

variable (g : Rules)

def whole : Parse Expr := g.expression Level.lowest

def grouped : Parse Expr := do
  let e ← g.whole
  expect .rparen
  return e

def list (close : Token) : Parse (List Expr) := do
  if ← accept close then
    return []
  else
    g.elements close

def braces : Parse (List Stmt) := do
  expect .lbrace
  g.statements

def pairValue : Parse Expr := do
  expect .colon
  let value ← g.whole
  if (← peek?) = some .rbrace then
    return value
  else
    expect .comma
    return value

def parameterNames : Parse (List String)
  | .ident name :: .comma :: ts =>
    match parameterNames ts with
    | .done names rest => .done (name :: names) rest
    | .failed error rest => .failed error rest
    | .exhausted => .exhausted
  | .ident name :: ts => (do expect .rparen; return [name] : Parse _) ts
  | t :: ts => .failed (.expectedParameter t) ts
  | [] => .failed (.expectedParameter none) []

def parameters : Parse (List String) := do
  expect .lparen
  if ← accept .rparen then
    return []
  else
    parameterNames

def conditional : Parse Expr := do
  expect .lparen
  let condition ← g.grouped
  let consequence ← g.braces
  if ← accept (.keyword .otherwise) then
    let alternative ← g.braces
    return .cond condition consequence (some alternative)
  else
    return .cond condition consequence none

def functionLiteral : Parse Expr := do
  let names ← parameters
  let body ← g.braces
  return .function names body

def integerLiteral (digits : String) : Parse Expr :=
  match readInteger? digits with
  | some n => pure (.int n)
  | none => fail (.integerTooLarge digits)

def operand (t : Token) : Parse Expr :=
  match t with
  | .ident name => pure (.ident name)
  | .int digits => integerLiteral digits
  | .float digits => pure (.float (readFloat digits))
  | .string content => pure (.string content)
  | .keyword .truth => pure (.bool true)
  | .keyword .falsity => pure (.bool false)
  | .bang => .prefixOp .not <$> g.expression Level.unary
  | .op .sub => .prefixOp .neg <$> g.expression Level.unary
  | .lparen => g.grouped
  | .lbracket => .array <$> g.list .rbracket
  | .lbrace => .hash <$> g.pairs
  | .keyword .condition => g.conditional
  | .keyword .function => g.functionLiteral
  | .illegal text => fail (.illegalToken text)
  | t => fail (.noOperand t)

def expressionRule (floor : Nat) : Parse Expr := do
  match ← take? with
  | none => fail .unexpectedEnd
  | some t => g.infixes floor (← g.operand t)

def assignment : Expr → Parse Expr
  | .ident name => .assign name <$> g.whole
  | target => fail (.invalidTarget target)

def position : Parse Expr := do
  let e ← g.whole
  expect .rbracket
  return e

def continuation? (left : Expr) (t : Token) : Option (Nat × Parse Expr) :=
  match t with
  | .op o => some (o.level, .infixOp left o <$> g.expression o.level)
  | .assign => some (Level.assign, g.assignment left)
  | .lparen => some (Level.call, .call left <$> g.list .rparen)
  | .lbracket => some (Level.index, .index left <$> g.position)
  | _ => none

def infixesRule (floor : Nat) (left : Expr) : Parse Expr
  | [] => .done left []
  | t :: ts =>
    match g.continuation? left t with
    | some (level, p) =>
      if floor < level then (do g.infixes floor (← p) : Parse _) ts else .done left (t :: ts)
    | none => .done left (t :: ts)

def elementsRule (close : Token) : Parse (List Expr) := do
  let e ← g.whole
  if ← accept .comma then
    return e :: (← g.elements close)
  else
    expect close
    return [e]

def pairsRule : Parse (List (Expr × Expr)) := do
  match ← peek? with
  | none | some .rbrace =>
    expect .rbrace
    return []
  | some _ =>
    let key ← g.whole
    let value ← g.pairValue
    return (key, value) :: (← g.pairs)

def terminated (p : Parse Stmt) : Parse Stmt := do
  let s ← p
  terminator
  return s

def binding (name : String) : Parse Stmt :=
  terminated (.declare name <$> g.whole)

def declaration : Parse Stmt := do
  match ← take? with
  | some (.ident name) =>
    expect .assign
    g.binding name
  | found => fail (.expectedIdentifier found)

/-- The initializer of a loop has to bring its own semicolon. -/
def initializer : Parse Stmt := do
  let (init, last) ← withLast g.statement
  if last = some .semicolon then
    return init
  else
    fail (.expectedInitializerEnd last)

def loop : Parse Stmt := do
  expect .lparen
  let init ← g.initializer
  let condition ← g.whole
  expect .semicolon
  let post ← g.statement
  expect .rparen
  let body ← g.braces
  return .loop init condition post body

def startsStatement : List Token → Bool
  | .keyword .binding :: _ => true
  | .keyword .result :: _ => true
  | .keyword .loop :: _ => true
  | .lbrace :: _ => true
  | .ident _ :: .bind :: _ => true
  | _ => false

def hashStatement (pairs : List (Expr × Expr)) : Parse Stmt :=
  terminated (.expr <$> g.infixes Level.lowest (.hash pairs))

def blockStatement (before : List Stmt) : Parse Stmt :=
  terminated ((fun after => .block (before ++ after)) <$> g.statements)

def openStatement : Parse Stmt := do
  let first ← g.whole
  if (← peek?) = some .colon then
    let value ← g.pairValue
    let pairs ← g.pairs
    g.hashStatement ((first, value) :: pairs)
  else
    terminator
    g.blockStatement [.expr first]

/-- A brace in front of a statement opens a block, unless it is closed at once or its first
expression is the key of a pair. -/
def braceStatement : Parse Stmt
  | .rbrace :: ts => g.hashStatement [] ts
  | ts => if startsStatement ts then g.blockStatement [] ts else g.openStatement ts

def statementRule : Parse Stmt
  | .keyword .binding :: ts => g.declaration ts
  | .keyword .result :: ts => terminated (.result <$> g.whole) ts
  | .keyword .loop :: ts => g.loop ts
  | .lbrace :: ts => g.braceStatement ts
  | .ident name :: .bind :: ts => g.binding name ts
  | ts => terminated (.expr <$> g.whole) ts

def statementsRule : Parse (List Stmt)
  | [] => .failed .unclosedBlock []
  | .rbrace :: ts => .done [] ts
  | ts => (do
    let s ← g.statement
    return s :: (← g.statements) : Parse _) ts

def deeper : Rules where
  statement := g.statementRule
  statements := g.statementsRule
  expression := g.expressionRule
  infixes := g.infixesRule
  elements := g.elementsRule
  pairs := g.pairsRule

def spent : Rules where
  statement := exhausted
  statements := exhausted
  expression _ := exhausted
  infixes _ _ := exhausted
  elements _ := exhausted
  pairs := exhausted

def nested : Nat → Rules
  | 0 => spent
  | depth + 1 => (nested depth).deeper

end Rules

end Nut
