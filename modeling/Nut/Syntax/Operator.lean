/-! Prefix and infix operators: their spelling and how tightly they bind. -/

namespace Nut

inductive PrefixOp where
  | not
  | neg
  deriving DecidableEq

inductive InfixOp where
  | add | sub | mul | div | mod
  | bitAnd | bitOr
  | lt | le | gt | ge | eq | ne
  | and | or
  deriving DecidableEq

namespace PrefixOp

def text : PrefixOp → String
  | not => "!"
  | neg => "-"

end PrefixOp

namespace InfixOp

def text : InfixOp → String
  | add => "+"
  | sub => "-"
  | mul => "*"
  | div => "/"
  | mod => "%"
  | bitAnd => "&"
  | bitOr => "|"
  | lt => "<"
  | le => "<="
  | gt => ">"
  | ge => ">="
  | eq => "=="
  | ne => "!="
  | and => "&&"
  | or => "||"

end InfixOp

/-! Binding levels, loosest first. -/

namespace Level

def lowest : Nat := 0
def assign : Nat := 1
def logical : Nat := 2
def equality : Nat := 3
def comparison : Nat := 4
def sum : Nat := 5
def product : Nat := 6
def unary : Nat := 7
def call : Nat := 8
def index : Nat := 9

end Level

def InfixOp.level : InfixOp → Nat
  | .and | .or => Level.logical
  | .eq | .ne => Level.equality
  | .lt | .le | .gt | .ge => Level.comparison
  | .add | .sub | .bitAnd | .bitOr => Level.sum
  | .mul | .div | .mod => Level.product

end Nut
