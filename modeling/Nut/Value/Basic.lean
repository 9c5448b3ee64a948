import Nut.Syntax.Tree
import Nut.Value.Entries

/-! Values of the language. -/

namespace Nut

inductive Builtin where
  | len | min | max | rand
  | first | last | rest | push | pop | remove | unshift | shift
  | includes | trim | split | puts
  deriving DecidableEq

namespace Builtin

def name : Builtin → String
  | len => "len"
  | min => "min"
  | max => "max"
  | rand => "rand"
  | first => "first"
  | last => "last"
  | rest => "rest"
  | push => "push"
  | pop => "pop"
  | remove => "remove"
  | unshift => "unshift"
  | shift => "shift"
  | includes => "includes"
  | trim => "trim"
  | split => "split"
  | puts => "puts"

def all : List Builtin :=
  [len, min, max, rand, first, last, rest, push, pop, remove, unshift, shift, includes, trim,
    split, puts]

def ofName? (name : String) : Option Builtin :=
  all.find? fun b => b.name == name

end Builtin

/-- What a hash is indexed by. Keys of different types are different. -/
inductive Key where
  | int (value : Int64)
  | string (value : String)
  | bool (value : Bool)
  deriving DecidableEq

/-- A function holds the scope that it was made in. -/
inductive Value where
  | int (value : Int64)
  | float (value : Float)
  | string (value : String)
  | bool (value : Bool)
  | null
  | array (elements : List Value)
  | hash (entries : List (Key × Value))
  | function (parameters : List String) (body : List Stmt) (scope : Nat)
  | builtin (function : Builtin)

instance : Inhabited Value := ⟨.null⟩

inductive Kind where
  | integer | float | string | boolean | null | array | hash | function | builtin | error
  deriving DecidableEq

def Kind.name : Kind → String
  | integer => "INTEGER"
  | float => "FLOAT"
  | string => "STRING"
  | boolean => "BOOLEAN"
  | null => "NULL"
  | array => "ARRAY"
  | hash => "HASH"
  | function => "FUNCTION"
  | builtin => "BUILTIN"
  | error => "ERROR"

def Key.value : Key → Value
  | int n => .int n
  | string s => .string s
  | bool b => .bool b

namespace Value

def kind : Value → Kind
  | int _ => .integer
  | float _ => .float
  | string _ => .string
  | bool _ => .boolean
  | null => .null
  | array _ => .array
  | hash _ => .hash
  | function .. => .function
  | builtin _ => .builtin

def key? : Value → Option Key
  | int n => some (.int n)
  | string s => some (.string s)
  | bool b => some (.bool b)
  | _ => none

def truthy : Value → Bool
  | bool false => false
  | null => false
  | _ => true

theorem key?_value (k : Key) : k.value.key? = some k := by
  cases k <;> rfl

theorem value_of_key? {v : Value} {k : Key} (h : v.key? = some k) : k.value = v := by
  cases v <;> cases h <;> rfl

end Value

end Nut
