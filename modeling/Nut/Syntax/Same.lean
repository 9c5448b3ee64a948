import Nut.Syntax.Tree

/-! Sameness of trees. Two float literals are the same when they compare equal, so a tree with an
undefined float in it would differ from itself. -/

namespace Nut

mutual

def Expr.same : Expr → Expr → Bool
  | .ident a, .ident b => a == b
  | .int a, .int b => a == b
  | .float a, .float b => a == b
  | .string a, .string b => a == b
  | .bool a, .bool b => a == b
  | .array as, .array bs => Expr.sameAll as bs
  | .hash as, .hash bs => Expr.samePairs as bs
  | .prefixOp p a, .prefixOp q b => p == q && a.same b
  | .infixOp a p c, .infixOp b q d => p == q && a.same b && c.same d
  | .cond a as none, .cond b bs none => a.same b && Stmt.sameAll as bs
  | .cond a as (some cs), .cond b bs (some ds) =>
    a.same b && Stmt.sameAll as bs && Stmt.sameAll cs ds
  | .function ps as, .function qs bs => ps == qs && Stmt.sameAll as bs
  | .call a as, .call b bs => a.same b && Expr.sameAll as bs
  | .index a c, .index b d => a.same b && c.same d
  | .assign m a, .assign n b => m == n && a.same b
  | _, _ => false

def Expr.sameAll : List Expr → List Expr → Bool
  | [], [] => true
  | a :: as, b :: bs => a.same b && Expr.sameAll as bs
  | _, _ => false

def Expr.samePairs : List (Expr × Expr) → List (Expr × Expr) → Bool
  | [], [] => true
  | (k, a) :: as, (l, b) :: bs => k.same l && a.same b && Expr.samePairs as bs
  | _, _ => false

def Stmt.same : Stmt → Stmt → Bool
  | .declare m a, .declare n b => m == n && a.same b
  | .result a, .result b => a.same b
  | .expr a, .expr b => a.same b
  | .block as, .block bs => Stmt.sameAll as bs
  | .loop a c d as, .loop b e f bs => a.same b && c.same e && d.same f && Stmt.sameAll as bs
  | _, _ => false

def Stmt.sameAll : List Stmt → List Stmt → Bool
  | [], [] => true
  | a :: as, b :: bs => a.same b && Stmt.sameAll as bs
  | _, _ => false

end

end Nut
