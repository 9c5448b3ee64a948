import Nut.Evaluation.Builtins

/-! The functions on arrays with every access made by its place. -/

namespace Nut

/-- A computation that may fail, and that gets stuck where it takes what is not there. -/
abbrev Guarded : Type → Type := ExceptT Fault Option

namespace Guarded

variable {α : Type}

def taken (part : Option α) : Guarded α := ExceptT.mk (part.map .ok)

end Guarded

namespace Builtin

open Guarded

variable (b : Builtin)

def checkCount (wanted : Nat) (arguments : List Value) : Guarded Unit :=
  if arguments.length = wanted then pure ()
  else throw (.builtinArity b b.wantedCount arguments.length)

def unary (f : Value → Guarded Value) (arguments : List Value) : Guarded Value := do
  checkCount b 1 arguments
  f (← taken arguments[0]?)

end Builtin

end Nut
