import Nut.Value.Text

/-! Why an evaluation fails. -/

namespace Nut

inductive Numeral where
  | int (value : Int64)
  | float (value : Float)

def Numeral.text : Numeral → String
  | int n => integerText n
  | float x => floatText x

inductive Fault where
  | unknownIdentifier (name : String)
  | undeclared (name : String)
  | unknownPrefix (op : PrefixOp) (kind : Kind)
  | unknownInfix (left : Kind) (op : InfixOp) (right : Kind)
  | typeMismatch (left : Kind) (op : InfixOp) (right : Kind)
  | negationOverflow (value : Int64)
  | overflow (left : Int64) (op : InfixOp) (right : Int64)
  | zeroDivisor (left : Numeral) (right : Numeral)
  | zeroModulus (left : Numeral) (right : Numeral)
  | unhashable (kind : Kind)
  | nonIntegerIndex (kind : Kind)
  | notIndexable (kind : Kind)
  | notCallable (kind : Kind)
  | arity (wanted found : Nat)
  | builtinArity (function : Builtin) (wanted : String) (found : Nat)
  | argumentKind (function : Builtin) (position : Option Nat) (wanted found : Kind)
  | unsupportedArgument (function : Builtin) (position : Option Nat) (found : Kind)
  | nonPositiveBound (bound : Int64)
  | outOfBounds (index : Int64) (length : Nat)

namespace Fault

def argumentText : Option Nat → String
  | none => "argument"
  | some position => "argument " ++ toString position

def operationText (left operator right : String) : String :=
  left ++ " " ++ operator ++ " " ++ right

def message : Fault → String
  | unknownIdentifier name => "identifier not found: " ++ name
  | undeclared name => "cannot assign to undeclared identifier: " ++ name
  | unknownPrefix op kind => "unknown operator: " ++ op.text ++ kind.name
  | unknownInfix left op right =>
    "unknown operator: " ++ operationText left.name op.text right.name
  | typeMismatch left op right => "type mismatch: " ++ operationText left.name op.text right.name
  | negationOverflow value => "integer overflow: -" ++ integerText value
  | overflow left op right =>
    "integer overflow: " ++ operationText (integerText left) op.text (integerText right)
  | zeroDivisor left right => "division by zero: " ++ operationText left.text "/" right.text
  | zeroModulus left right => "modulo by zero: " ++ operationText left.text "%" right.text
  | unhashable kind => "unusable as hash key: " ++ kind.name
  | nonIntegerIndex kind => "array index must be INTEGER, got " ++ kind.name
  | notIndexable kind => "index operator not supported: " ++ kind.name
  | notCallable kind => "not a function: " ++ kind.name
  | arity wanted found =>
    "wrong number of arguments: want=" ++ toString wanted ++ ", got=" ++ toString found
  | builtinArity function wanted found =>
    "wrong number of arguments for " ++ function.name ++ ": want=" ++ wanted ++ ", got=" ++
      toString found
  | argumentKind function position wanted found =>
    argumentText position ++ " to `" ++ function.name ++ "` must be " ++ wanted.name ++ ", got " ++
      found.name
  | unsupportedArgument function position found =>
    argumentText position ++ " to `" ++ function.name ++ "` not supported, got " ++ found.name
  | nonPositiveBound bound => "argument to `rand` must be positive, got " ++ integerText bound
  | outOfBounds index length =>
    "index " ++ integerText index ++ " out of bounds in array of length " ++ toString length

end Fault

end Nut
