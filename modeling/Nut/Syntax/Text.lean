import Nut.Number.Notation
import Nut.Syntax.Tree

/-! The text of a tree, with parentheses around every operator and index. -/

namespace Nut

def join (separator : String) : List String → String
  | [] => ""
  | [text] => text
  | text :: texts => text ++ separator ++ join separator texts

def braced (content : String) : String := "\x7b" ++ content ++ "\x7d"

def blockText (statements : List String) : String :=
  braced (if statements.isEmpty then " " else " " ++ join "; " statements ++ " ")

def boolText (b : Bool) : String := if b then "true" else "false"

mutual

def Expr.text : Expr → String
  | .ident name => name
  | .int value => integerText value
  | .float value => floatText value
  | .string value => "\"" ++ value ++ "\""
  | .bool value => boolText value
  | .array elements => "[" ++ join ", " (Expr.texts elements) ++ "]"
  | .hash pairs => braced (join ", " (Expr.pairTexts pairs))
  | .prefixOp op right => "(" ++ op.text ++ right.text ++ ")"
  | .infixOp left op right => "(" ++ left.text ++ " " ++ op.text ++ " " ++ right.text ++ ")"
  | .cond condition consequence none =>
    "if " ++ condition.text ++ " " ++ blockText (Stmt.texts consequence)
  | .cond condition consequence (some alternative) =>
    "if " ++ condition.text ++ " " ++ blockText (Stmt.texts consequence) ++
      " else " ++ blockText (Stmt.texts alternative)
  | .function parameters body =>
    "fn(" ++ join ", " parameters ++ ") " ++ blockText (Stmt.texts body)
  | .call callee arguments => callee.text ++ "(" ++ join ", " (Expr.texts arguments) ++ ")"
  | .index left position => "(" ++ left.text ++ "[" ++ position.text ++ "])"
  | .assign name value => name ++ " = " ++ value.text

def Expr.texts : List Expr → List String
  | [] => []
  | e :: es => e.text :: Expr.texts es

def Expr.pairTexts : List (Expr × Expr) → List String
  | [] => []
  | (key, value) :: pairs => (key.text ++ ": " ++ value.text) :: Expr.pairTexts pairs

def Stmt.text : Stmt → String
  | .declare name value => "let " ++ name ++ " = " ++ value.text
  | .result value => "return " ++ value.text
  | .expr value => value.text
  | .block body => blockText (Stmt.texts body)
  | .loop init condition post body =>
    "for (" ++ init.text ++ "; " ++ condition.text ++ "; " ++ post.text ++ ") " ++
      blockText (Stmt.texts body)

def Stmt.texts : List Stmt → List String
  | [] => []
  | s :: ss => s.text :: Stmt.texts ss

end

def Program.text (program : Program) : String :=
  String.join (Stmt.texts program)

end Nut
