import Nut.Syntax.Grammar
import Nut.Syntax.Lexeme

/-! From a text to a program. Reading goes on behind a broken statement, and a text with any
broken statement is no program. -/

namespace Nut

namespace Recovery

def step (depth : Nat) : Token → Nat
  | .lbrace => depth + 1
  | .rbrace => depth - 1
  | _ => depth

/-- Unclosed braces; a brace that closes nothing does not count. -/
def depth (ts : List Token) : Nat := ts.foldl step 0

def dropTerminator : List Token → List Token
  | .semicolon :: ts => ts
  | ts => ts

def skip (depth : Nat) : List Token → List Token
  | [] => []
  | .semicolon :: ts => if depth = 0 then ts else skip depth ts
  | .rbrace :: ts => if depth - 1 = 0 then dropTerminator ts else skip (depth - 1) ts
  | t :: ts => skip (step depth t) ts

/-- Where reading goes on when a statement at the head of `ts` broke with `rest` left. The last
token that was taken may itself end the statement. -/
def resume (ts rest : List Token) : List Token :=
  let before := ts.length - rest.length - 1
  skip (depth (ts.take before)) (ts.drop before)

end Recovery

namespace Program

abbrev Entry := Except ParseError Stmt

def entries (g : Rules) : Nat → List Token → List Entry
  | 0, _ => []
  | _, [] => []
  | n + 1, ts =>
    match g.statement ts with
    | .done s rest => .ok s :: entries g n rest
    | .failed error rest => .error error :: entries g n (Recovery.resume ts rest)
    | .exhausted => []

def errors (entries : List Entry) : List ParseError :=
  entries.filterMap fun
    | .ok _ => none
    | .error e => some e

def statements (entries : List Entry) : Program :=
  entries.filterMap fun
    | .ok s => some s
    | .error _ => none

/-- Three rules at most take turns on one token, which bounds the depth. -/
def ofTokens (ts : List Token) : Except (List ParseError) Program :=
  let found := entries (Rules.nested (3 * ts.length + 3)) ts.length ts
  if (errors found).isEmpty then .ok (statements found) else .error (errors found)

def ofText (source : String) : Except (List ParseError) Program :=
  ofTokens (tokenize source)

end Program

end Nut
