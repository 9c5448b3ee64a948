import Nut.Syntax.Same
import Nut.Value.Basic

/-! Equality of values. Hashes are equal as maps, functions by what they were written as. -/

namespace Nut

mutual

def Value.same : Value → Value → Bool
  | .int a, .int b => a == b
  | .float a, .float b => a == b
  | .string a, .string b => a == b
  | .bool a, .bool b => a == b
  | .null, .null => true
  | .array as, .array bs => Value.sameAll as bs
  | .hash as, .hash bs => as.length == bs.length && Value.within as bs
  | .function ps as _, .function qs bs _ => ps == qs && Stmt.sameAll as bs
  | .builtin a, .builtin b => a == b
  | _, _ => false

def Value.sameAll : List Value → List Value → Bool
  | [], [] => true
  | a :: as, b :: bs => a.same b && Value.sameAll as bs
  | _, _ => false

def Value.within : List (Key × Value) → List (Key × Value) → Bool
  | [], _ => true
  | (k, a) :: as, bs =>
    (match Entries.get? k bs with
      | some b => a.same b
      | none => false) && Value.within as bs

end

end Nut
