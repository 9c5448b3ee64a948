import Nut.Evaluation.Heap
import Nut.Syntax.Text
import Nut.Text.Quoted

/-! The text of a scope: its own names in order, and whether another scope is around it. -/

namespace Nut.Heap

def scopeText (h : Heap) (s : Nat) : String :=
  let names := (h.names s).mergeSort fun a b => decide (a ≤ b)
  "Environment " ++ braced (" names: [" ++ join ", " (names.map Quoted.quote) ++ "], enclosed: " ++
    boolText (h.outer? s).isSome ++ " ")

end Nut.Heap
