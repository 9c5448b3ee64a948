import Nut.Syntax.Operator

/-! Programs as trees. -/

namespace Nut

mutual

inductive Expr where
  | ident (name : String)
  | int (value : Int64)
  | float (value : Float)
  | string (value : String)
  | bool (value : Bool)
  | array (elements : List Expr)
  | hash (pairs : List (Expr × Expr))
  | prefixOp (op : PrefixOp) (right : Expr)
  | infixOp (left : Expr) (op : InfixOp) (right : Expr)
  | cond (condition : Expr) (consequence : List Stmt) (alternative : Option (List Stmt))
  | function (parameters : List String) (body : List Stmt)
  | call (callee : Expr) (arguments : List Expr)
  | index (left : Expr) (position : Expr)
  | assign (name : String) (value : Expr)

inductive Stmt where
  | declare (name : String) (value : Expr)
  | result (value : Expr)
  | expr (value : Expr)
  | block (body : List Stmt)
  | loop (init : Stmt) (condition : Expr) (post : Stmt) (body : List Stmt)

end

abbrev Program := List Stmt

end Nut
