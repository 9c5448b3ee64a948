import Nut.Syntax.Program

/-! The rules of the grammar for a scanner. It stands on one token and sees the next, and it counts
the open braces as it goes, so recovery need not look back at what was taken. -/

namespace Nut

structure Place where
  tokens : List Token
  depth : Nat

namespace Place

/-- The token that is stood on counts. -/
def onto (before : Nat) : List Token → Place
  | [] => ⟨[], before⟩
  | t :: ts => ⟨t :: ts, Recovery.step before t⟩

theorem tokens_onto (before : Nat) (ts : List Token) : (onto before ts).tokens = ts := by
  cases ts <;> rfl

def opening (p : Place) : Nat := if p.tokens.head? = some .lbrace then 1 else 0

/-- The depth in front of a statement, where recovery from it has to end. -/
def base (p : Place) : Nat := p.depth - p.opening

end Place

/-- The places it has passed are kept to speak of them; no rule looks at them. -/
structure Scanner extends Place where
  passed : List Place

namespace Scanner

def start (ts : List Token) : Scanner := ⟨Place.onto 0 ts, []⟩

def next (s : Scanner) : Scanner := ⟨Place.onto s.depth s.tokens.tail, s.toPlace :: s.passed⟩

def places (s : Scanner) : List Place := s.toPlace :: s.passed

theorem tokens_next (s : Scanner) : s.next.tokens = s.tokens.tail :=
  Place.tokens_onto _ _

def current? (s : Scanner) : Option Token := s.tokens.head?

def peek? (s : Scanner) : Option Token := s.tokens.tail.head?

def dropTerminator (s : Scanner) : Scanner :=
  if s.peek? = some .semicolon then s.next else s

/-- To the end of a broken statement, over all that is nested deeper than `base`. -/
def skip (base : Nat) (s : Scanner) : Scanner :=
  match h : s.tokens with
  | [] => s
  | t :: _ =>
    if s.depth ≤ base ∧ t = .semicolon then
      s
    else if s.depth ≤ base ∧ t = .rbrace then
      s.dropTerminator
    else
      have : s.next.tokens.length < s.tokens.length := by
        rw [tokens_next, h]
        exact Nat.lt_succ_self _
      skip base s.next
termination_by s.tokens.length

end Scanner

inductive Scanned (α : Type) where
  | done (value : α) (s : Scanner)
  | failed (error : ParseError) (s : Scanner)
  | exhausted

def Scan (α : Type) : Type := Scanner → Scanned α

namespace Scan

variable {α β : Type}

@[always_inline]
protected def pure (a : α) : Scan α := fun s => .done a s

@[always_inline]
protected def bind (p : Scan α) (f : α → Scan β) : Scan β := fun s =>
  match p s with
  | .done a s => f a s
  | .failed error s => .failed error s
  | .exhausted => .exhausted

instance : Monad Scan where
  pure := Scan.pure
  bind := Scan.bind

def exhausted : Scan α := fun _ => .exhausted

def fail (error : ParseError) : Scan α := fun s => .failed error s

def next : Scan Unit := fun s => .done () s.next

def current? : Scan (Option Token) := fun s => .done s.current? s

def peek? : Scan (Option Token) := fun s => .done s.peek? s

/-- The current token and the next one. -/
def sight : Scan (List Token) := fun s => .done (s.tokens.take 2) s

def accept (wanted : Token) : Scan Bool := fun s =>
  if s.peek? = some wanted then .done true s.next else .done false s

def expect (wanted : Token) : Scan Unit := fun s =>
  if s.peek? = some wanted then .done () s.next else .failed (.expectedToken wanted s.peek?) s

def terminator : Scan Unit := do
  let _ ← accept .semicolon

end Scan

open Scan

/-- A statement, an expression and the rest of a block are read from the current token on, all else
from the next one on. -/
structure Scanning where
  statement : Scan Stmt
  statements : Scan (List Stmt)
  expression : Nat → Scan Expr
  infixes : Nat → Expr → Scan Expr
  elements : Token → Scan (List Expr)
  pairs : Scan (List (Expr × Expr))

namespace Scanning

variable (g : Scanning)

def whole : Scan Expr := g.expression Level.lowest

def nextWhole : Scan Expr := do
  next
  g.whole

def grouped : Scan Expr := do
  let e ← g.nextWhole
  expect .rparen
  return e

def list (close : Token) : Scan (List Expr) := do
  if ← accept close then
    return []
  else
    g.elements close

def braces : Scan (List Stmt) := do
  expect .lbrace
  next
  g.statements

def pairValue : Scan Expr := do
  expect .colon
  let value ← g.nextWhole
  if (← peek?) = some .rbrace then
    return value
  else
    expect .comma
    return value

def parameterNames (s : Scanner) : Scanned (List String) :=
  match h : s.tokens with
  | .ident name :: .comma :: _ =>
    have : s.next.next.tokens.length < s.tokens.length := by
      simp only [Scanner.tokens_next, h, List.tail_cons, List.length_cons]
      omega
    match parameterNames s.next.next with
    | .done names s => .done (name :: names) s
    | .failed error s => .failed error s
    | .exhausted => .exhausted
  | .ident name :: _ => (do expect .rparen; return [name] : Scan _) s
  | found => .failed (.expectedParameter found.head?) s
termination_by s.tokens.length

def parameters : Scan (List String) := do
  expect .lparen
  if ← accept .rparen then
    return []
  else
    next
    parameterNames

def conditional : Scan Expr := do
  expect .lparen
  let condition ← g.grouped
  let consequence ← g.braces
  if ← accept (.keyword .otherwise) then
    let alternative ← g.braces
    return .cond condition consequence (some alternative)
  else
    return .cond condition consequence none

def functionLiteral : Scan Expr := do
  let names ← parameters
  let body ← g.braces
  return .function names body

def integerLiteral (digits : String) : Scan Expr :=
  match readInteger? digits with
  | some n => pure (.int n)
  | none => fail (.integerTooLarge digits)

def negated (op : PrefixOp) : Scan Expr := do
  next
  return .prefixOp op (← g.expression Level.unary)

def operand (t : Token) : Scan Expr :=
  match t with
  | .ident name => pure (.ident name)
  | .int digits => integerLiteral digits
  | .float digits => pure (.float (readFloat digits))
  | .string content => pure (.string content)
  | .keyword .truth => pure (.bool true)
  | .keyword .falsity => pure (.bool false)
  | .bang => g.negated .not
  | .op .sub => g.negated .neg
  | .lparen => g.grouped
  | .lbracket => .array <$> g.list .rbracket
  | .lbrace => .hash <$> g.pairs
  | .keyword .condition => g.conditional
  | .keyword .function => g.functionLiteral
  | .illegal text => fail (.illegalToken text)
  | t => fail (.noOperand t)

def expressionRule (floor : Nat) : Scan Expr := do
  match ← current? with
  | none => fail .unexpectedEnd
  | some t => g.infixes floor (← g.operand t)

def assignment : Expr → Scan Expr
  | .ident name => .assign name <$> g.nextWhole
  | target => fail (.invalidTarget target)

def position : Scan Expr := do
  let e ← g.nextWhole
  expect .rbracket
  return e

def operation (left : Expr) (o : InfixOp) : Scan Expr := do
  next
  return .infixOp left o (← g.expression o.level)

def continuation? (left : Expr) (t : Token) : Option (Nat × Scan Expr) :=
  match t with
  | .op o => some (o.level, g.operation left o)
  | .assign => some (Level.assign, g.assignment left)
  | .lparen => some (Level.call, .call left <$> g.list .rparen)
  | .lbracket => some (Level.index, .index left <$> g.position)
  | _ => none

def infixesRule (floor : Nat) (left : Expr) : Scan Expr := do
  match (← peek?).bind (g.continuation? left) with
  | some (level, p) =>
    if floor < level then
      next
      g.infixes floor (← p)
    else
      return left
  | none => return left

def elementsRule (close : Token) : Scan (List Expr) := do
  let e ← g.nextWhole
  if ← accept .comma then
    return e :: (← g.elements close)
  else
    expect close
    return [e]

def pairsRule : Scan (List (Expr × Expr)) := do
  match ← peek? with
  | none | some .rbrace =>
    expect .rbrace
    return []
  | some _ =>
    let key ← g.nextWhole
    let value ← g.pairValue
    return (key, value) :: (← g.pairs)

def terminated (p : Scan Stmt) : Scan Stmt := do
  let s ← p
  terminator
  return s

def binding (name : String) : Scan Stmt :=
  terminated (.declare name <$> g.nextWhole)

def declaration : Scan Stmt := do
  next
  match ← current? with
  | some (.ident name) =>
    expect .assign
    g.binding name
  | found => fail (.expectedIdentifier found)

def initializer : Scan Stmt := do
  let init ← g.statement
  let last ← current?
  if last = some .semicolon then
    return init
  else
    fail (.expectedInitializerEnd last)

def loop : Scan Stmt := do
  expect .lparen
  next
  let init ← g.initializer
  let condition ← g.nextWhole
  expect .semicolon
  next
  let post ← g.statement
  expect .rparen
  let body ← g.braces
  return .loop init condition post body

def hashStatement (pairs : List (Expr × Expr)) : Scan Stmt :=
  terminated (.expr <$> g.infixes Level.lowest (.hash pairs))

def blockStatement (before : List Stmt) : Scan Stmt :=
  terminated ((fun after => .block (before ++ after)) <$> g.statements)

def openStatement : Scan Stmt := do
  let first ← g.whole
  if (← peek?) = some .colon then
    let value ← g.pairValue
    let pairs ← g.pairs
    g.hashStatement ((first, value) :: pairs)
  else
    terminator
    next
    g.blockStatement [.expr first]

def braceStatement : Scan Stmt := do
  next
  if (← current?) = some .rbrace then
    g.hashStatement []
  else if Rules.startsStatement (← sight) then
    g.blockStatement []
  else
    g.openStatement

def statementRule : Scan Stmt := do
  match ← sight with
  | .keyword .binding :: _ => g.declaration
  | .keyword .result :: _ => terminated (.result <$> g.nextWhole)
  | .keyword .loop :: _ => g.loop
  | .lbrace :: _ => g.braceStatement
  | .ident name :: .bind :: _ =>
    next
    g.binding name
  | _ => terminated (.expr <$> g.whole)

def statementsRule : Scan (List Stmt) := do
  match ← current? with
  | none => fail .unclosedBlock
  | some .rbrace => return []
  | some _ =>
    let s ← g.statement
    next
    return s :: (← g.statements)

def deeper : Scanning where
  statement := g.statementRule
  statements := g.statementsRule
  expression := g.expressionRule
  infixes := g.infixesRule
  elements := g.elementsRule
  pairs := g.pairsRule

def spent : Scanning where
  statement := exhausted
  statements := exhausted
  expression _ := exhausted
  infixes _ _ := exhausted
  elements _ := exhausted
  pairs := exhausted

def nested : Nat → Scanning
  | 0 => spent
  | depth + 1 => (nested depth).deeper

end Scanning

namespace Scanner

/-- One turn of the loop over statements: where it began, and what it came to. -/
structure Turn where
  head : Place
  entry : Program.Entry

structure Run where
  turns : List Turn
  last : Scanner

namespace Run

def behind (turn : Turn) (r : Run) : Run := { r with turns := turn :: r.turns }

def outcome (r : Run) : Except (List ParseError) Program :=
  let found := r.turns.map Turn.entry
  if (Program.errors found).isEmpty then
    .ok (Program.statements found)
  else
    .error (Program.errors found)

end Run

end Scanner

namespace Scanning

variable (g : Scanning)

def run : Nat → Scanner → Scanner.Run
  | 0, s => ⟨[], s⟩
  | n + 1, s =>
    if s.tokens = [] then
      ⟨[], s⟩
    else
      match g.statement s with
      | .done st after => (run n after.next).behind ⟨s.toPlace, .ok st⟩
      | .failed error after => (run n (after.skip s.base).next).behind ⟨s.toPlace, .error error⟩
      | .exhausted => ⟨[], s⟩

end Scanning

def Program.scan (ts : List Token) : Scanner.Run :=
  (Scanning.nested (3 * ts.length + 3)).run ts.length (.start ts)

end Nut
