import Nut.Proofs.Lexing.Spelling
import Nut.Proofs.Parsing.Yield
import Nut.Syntax.Text

/-! Trees whose text reads back, and the tokens of their texts. -/

namespace Nut

def isPlain (content : String) : Bool :=
  content.toList.all fun c => c != '"' && c != '\\'

def Expr.isAssign : Expr → Bool
  | .assign .. => true
  | _ => false

def Expr.isBracketed : Expr → Bool
  | .prefixOp .. | .infixOp .. | .index .. => true
  | _ => false

def Expr.opensBrace (e : Expr) : Bool :=
  e.text.toList.head? == some '{'

mutual

/-- An assignment is no operand, callee or indexed expression, a condition stands in parentheses,
and no key opens a brace. -/
def Expr.printable : Expr → Bool
  | .ident name => isName name
  | .int value => 0 ≤ value.toInt
  | .float _ => false
  | .string content => isPlain content
  | .bool _ => true
  | .array elements => Expr.allPrintable elements
  | .hash pairs => Expr.pairsPrintable pairs
  | .prefixOp _ right => right.printable && !right.isAssign
  | .infixOp left _ right =>
    left.printable && !left.isAssign && right.printable && !right.isAssign
  | .cond condition consequence none =>
    condition.printable && condition.isBracketed && Stmt.bodyPrintable consequence
  | .cond condition consequence (some alternative) =>
    condition.printable && condition.isBracketed && Stmt.bodyPrintable consequence &&
      Stmt.bodyPrintable alternative
  | .function parameters body => parameters.all isName && Stmt.bodyPrintable body
  | .call callee arguments => callee.printable && !callee.isAssign && Expr.allPrintable arguments
  | .index left position => left.printable && !left.isAssign && position.printable
  | .assign name value => isName name && value.printable

def Expr.allPrintable : List Expr → Bool
  | [] => true
  | e :: es => e.printable && Expr.allPrintable es

def Expr.pairsPrintable : List (Expr × Expr) → Bool
  | [] => true
  | (key, value) :: pairs =>
    key.printable && !key.opensBrace && value.printable && Expr.pairsPrintable pairs

/-- A block that is a statement of its own has a statement in it, and the initializer of a loop is
no loop. -/
def Stmt.printable : Stmt → Bool
  | .declare name value => isName name && value.printable
  | .result value => value.printable
  | .expr value => value.printable
  | .block body => !body.isEmpty && Stmt.bodyPrintable body
  | .loop init condition post body =>
    init.printable && !init.isLoop && condition.printable && post.printable &&
      Stmt.bodyPrintable body

/-- In a block a loop is the last statement. -/
def Stmt.bodyPrintable : List Stmt → Bool
  | [] => true
  | s :: ss => s.printable && (!s.isLoop || ss.isEmpty) && Stmt.bodyPrintable ss

end

def bracedLexemes (statements : List (List Token)) : List Token :=
  .lbrace :: separated .semicolon statements ++ [.rbrace]

mutual

def Expr.lexemes : Expr → List Token
  | .ident name => [.ident name]
  | .int value => [.int (integerText value)]
  | .float value => [.float (floatText value)]
  | .string content => [.string content]
  | .bool b => [.keyword (if b then .truth else .falsity)]
  | .array elements => .lbracket :: separated .comma (Expr.allLexemes elements) ++ [.rbracket]
  | .hash pairs => .lbrace :: separated .comma (Expr.pairLexemes pairs) ++ [.rbrace]
  | .prefixOp op right => .lparen :: op.token :: right.lexemes ++ [.rparen]
  | .infixOp left op right => .lparen :: left.lexemes ++ .op op :: right.lexemes ++ [.rparen]
  | .cond condition consequence none =>
    .keyword .condition :: condition.lexemes ++ bracedLexemes (Stmt.allLexemes consequence)
  | .cond condition consequence (some alternative) =>
    .keyword .condition :: condition.lexemes ++ bracedLexemes (Stmt.allLexemes consequence) ++
      .keyword .otherwise :: bracedLexemes (Stmt.allLexemes alternative)
  | .function parameters body =>
    .keyword .function :: .lparen :: separated .comma (parameters.map ([.ident ·])) ++
      .rparen :: bracedLexemes (Stmt.allLexemes body)
  | .call callee arguments =>
    callee.lexemes ++ .lparen :: separated .comma (Expr.allLexemes arguments) ++ [.rparen]
  | .index left position =>
    .lparen :: left.lexemes ++ .lbracket :: position.lexemes ++ [.rbracket, .rparen]
  | .assign name value => .ident name :: .assign :: value.lexemes

def Expr.allLexemes : List Expr → List (List Token)
  | [] => []
  | e :: es => e.lexemes :: Expr.allLexemes es

def Expr.pairLexemes : List (Expr × Expr) → List (List Token)
  | [] => []
  | (key, value) :: pairs => (key.lexemes ++ .colon :: value.lexemes) :: Expr.pairLexemes pairs

def Stmt.lexemes : Stmt → List Token
  | .declare name value => .keyword .binding :: .ident name :: .assign :: value.lexemes
  | .result value => .keyword .result :: value.lexemes
  | .expr value => value.lexemes
  | .block body => bracedLexemes (Stmt.allLexemes body)
  | .loop init condition post body =>
    .keyword .loop :: .lparen :: init.lexemes ++ .semicolon :: condition.lexemes ++
      .semicolon :: post.lexemes ++ .rparen :: bracedLexemes (Stmt.allLexemes body)

def Stmt.allLexemes : List Stmt → List (List Token)
  | [] => []
  | s :: ss => s.lexemes :: Stmt.allLexemes ss

end

end Nut
