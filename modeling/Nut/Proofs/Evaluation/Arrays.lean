import Mathlib.Data.List.Basic
import Nut.Evaluation.Arithmetic
import Nut.Evaluation.Guarded

/-! The functions on arrays as an algebra of sequences. -/

namespace Nut

namespace Builtin

open Guarded

section Accesses

variable {b : Builtin} {arguments : List Value}

end Accesses

end Builtin

namespace Value

end Value

open Builtin

section Laws

variable {a : List Value} {x : Value} {k : Int64}

end Laws

-- An array in front of another is not one element that could be taken off again.
example : (do shift.call [← unshift.call [.array [.int 1], .array [.int 2, .int 3]]]) =
    (pure (.array [.int 3, .int 1]) : Eval Value) := rfl

end Nut
