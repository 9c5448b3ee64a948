import Nut.Evaluation.Fault
import Nut.Value.Same

/-! Operators on values. -/

namespace Nut

namespace PrefixOp

def apply : PrefixOp → Value → Except Fault Value
  | not, v => .ok (.bool !v.truthy)
  | neg, .int n =>
    match int64? (-n.toInt) with
    | some m => .ok (.int m)
    | none => .error (.negationOverflow n)
  | neg, .float x => .ok (.float (-x))
  | neg, v => .error (.unknownPrefix neg v.kind)

end PrefixOp

namespace InfixOp

def exact (a : Int64) (op : InfixOp) (b : Int64) (n : Int) : Except Fault Value :=
  match int64? n with
  | some m => .ok (.int m)
  | none => .error (.overflow a op b)

/-- Division goes toward zero, and the remainder has the sign of the dividend. A remainder fails
where the quotient does. -/
def onIntegers (op : InfixOp) (a b : Int64) : Except Fault Value :=
  match op with
  | add => exact a op b (a.toInt + b.toInt)
  | sub => exact a op b (a.toInt - b.toInt)
  | mul => exact a op b (a.toInt * b.toInt)
  | div =>
    if b = 0 then .error (.zeroDivisor (.int a) (.int b))
    else exact a op b (a.toInt.tdiv b.toInt)
  | mod =>
    if b = 0 then .error (.zeroModulus (.int a) (.int b))
    else
      match int64? (a.toInt.tdiv b.toInt) with
      | some _ => exact a op b (a.toInt.tmod b.toInt)
      | none => .error (.overflow a op b)
  | bitAnd => .ok (.int (a &&& b))
  | bitOr => .ok (.int (a ||| b))
  | lt => .ok (.bool (a < b))
  | le => .ok (.bool (a ≤ b))
  | gt => .ok (.bool (b < a))
  | ge => .ok (.bool (b ≤ a))
  | eq => .ok (.bool (a == b))
  | ne => .ok (.bool (a != b))
  | and | or => .error (.unknownInfix .integer op .integer)

def onFloats (op : InfixOp) (x y : Float) : Except Fault Value :=
  match op with
  | add => .ok (.float (x + y))
  | sub => .ok (.float (x - y))
  | mul => .ok (.float (x * y))
  | div => if y == 0.0 then .error (.zeroDivisor (.float x) (.float y)) else .ok (.float (x / y))
  | mod =>
    if y == 0.0 then .error (.zeroModulus (.float x) (.float y))
    else .ok (.float (remainder x y))
  | lt => .ok (.bool (x < y))
  | le => .ok (.bool (x ≤ y))
  | gt => .ok (.bool (y < x))
  | ge => .ok (.bool (y ≤ x))
  | eq => .ok (.bool (x == y))
  | ne => .ok (.bool (x != y))
  | bitAnd | bitOr | and | or => .error (.unknownInfix .float op .float)

/-- Both sides are already evaluated, so nothing is left to skip. -/
def onBooleans (op : InfixOp) (a b : Bool) : Except Fault Value :=
  match op with
  | eq => .ok (.bool (a == b))
  | ne => .ok (.bool (a != b))
  | and => .ok (.bool (a && b))
  | or => .ok (.bool (a || b))
  | _ => .error (.unknownInfix .boolean op .boolean)

def onStrings (op : InfixOp) (a b : String) : Except Fault Value :=
  match op with
  | add => .ok (.string (a ++ b))
  | eq => .ok (.bool (a == b))
  | ne => .ok (.bool (a != b))
  | _ => .error (.unknownInfix .string op .string)

def onNulls : InfixOp → Except Fault Value
  | eq => .ok (.bool true)
  | ne => .ok (.bool false)
  | op => .error (.unknownInfix .null op .null)

/-- An integer next to a float is rounded to a float. -/
def apply (op : InfixOp) : Value → Value → Except Fault Value
  | .int a, .int b => op.onIntegers a b
  | .int a, .float y => op.onFloats (Float.ofInt a.toInt) y
  | .float x, .int b => op.onFloats x (Float.ofInt b.toInt)
  | .float x, .float y => op.onFloats x y
  | .bool a, .bool b => op.onBooleans a b
  | .string a, .string b => op.onStrings a b
  | .null, .null => op.onNulls
  | v, w =>
    if v.kind = w.kind then .error (.unknownInfix v.kind op w.kind)
    else .error (.typeMismatch v.kind op w.kind)

end InfixOp

namespace Value

def key : Value → Except Fault Key := fun v =>
  match v.key? with
  | some k => .ok k
  | none => .error (.unhashable v.kind)

def elementAt? (elements : List Value) (position : Int64) : Option Value :=
  if position < 0 then none else elements[position.toInt.toNat]?

/-- Nothing at a position or under a key reads as null. -/
def index : Value → Value → Except Fault Value
  | .array elements, .int position => .ok ((elementAt? elements position).getD .null)
  | .array _, v => .error (.nonIntegerIndex v.kind)
  | .hash entries, v => do
    let k ← v.key
    return (Entries.get? k entries).getD .null
  | v, _ => .error (.notIndexable v.kind)

end Value

end Nut
