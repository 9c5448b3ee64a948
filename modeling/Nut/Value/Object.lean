import Nut.Value.Basic

/-! Values as objects of one type, which leaves more room than they take: an error is an object,
anything can be a key of a hash, and a function has any statement for its body. -/

namespace Nut

inductive Object where
  | int (value : Int64)
  | float (value : Float)
  | string (value : String)
  | bool (value : Bool)
  | null
  | array (elements : List Object)
  | hash (entries : List (Object × Object))
  | function (parameters : List String) (body : Stmt) (scope : Nat)
  | builtin (function : Builtin)
  | error (message : String)

def Key.object : Key → Object
  | int n => .int n
  | string s => .string s
  | bool b => .bool b

mutual

def Value.object : Value → Object
  | .int n => .int n
  | .float x => .float x
  | .string s => .string s
  | .bool b => .bool b
  | .null => .null
  | .array elements => .array (Value.objects elements)
  | .hash entries => .hash (Value.entryObjects entries)
  | .function parameters body scope => .function parameters (.block body) scope
  | .builtin b => .builtin b

def Value.objects : List Value → List Object
  | [] => []
  | v :: vs => v.object :: Value.objects vs

def Value.entryObjects : List (Key × Value) → List (Object × Object)
  | [] => []
  | (k, v) :: entries => (k.object, v.object) :: Value.entryObjects entries

end

end Nut
