import Nut.Evaluation.Eval
import Nut.Text.Pieces
import Nut.Value.Same

/-! The functions that every program can use. None of them changes its arguments. -/

namespace Nut.Builtin

def wantedCount : Builtin → String
  | rand => "0 or 1"
  | min | max | push | remove | unshift | includes | trim | split => "2"
  | _ => "1"

def onArray (b : Builtin) (f : List Value → Except Fault Value) : Value → Except Fault Value
  | .array elements => f elements
  | v => .error (.argumentKind b none .array v.kind)

def onIntegers (b : Builtin) (f : Int64 → Int64 → Value) : Value → Value → Except Fault Value
  | .int m, .int n => .ok (f m n)
  | .int _, v => .error (.argumentKind b (some 2) .integer v.kind)
  | v, _ => .error (.argumentKind b (some 1) .integer v.kind)

def onStrings (b : Builtin) (f : List Char → List Char → Value) : Value → Value → Except Fault Value
  | .string s, .string t => .ok (f s.toList t.toList)
  | .string _, v => .error (.argumentKind b (some 2) .string v.kind)
  | v, _ => .error (.argumentKind b (some 1) .string v.kind)

/-- The length of a string is that of its encoding in bytes. -/
def length : Value → Except Fault Value
  | .string s => .ok (.int (Int64.ofNat s.utf8ByteSize))
  | .array elements => .ok (.int (Int64.ofNat elements.length))
  | v => .error (.unsupportedArgument len none v.kind)

def tail : List Value → Value
  | [] => .null
  | _ :: elements => .array elements

def removeAt (elements : List Value) : Value → Except Fault Value
  | .int n =>
    if 0 ≤ n.toInt ∧ n.toInt < elements.length then
      .ok (.array (elements.eraseIdx n.toInt.toNat))
    else
      .error (.outOfBounds n elements.length)
  | v => .error (.argumentKind remove (some 2) .integer v.kind)

/-- An array is put in front element by element, anything else as one element. -/
def putInFront (elements : List Value) : Value → Value
  | .array before => .array (before ++ elements)
  | v => .array (v :: elements)

def contains : Value → Value → Except Fault Value
  | .array elements, .int n => .ok (.bool (elements.any fun v => v.same (.int n)))
  | .array elements, .string s => .ok (.bool (elements.any fun v => v.same (.string s)))
  | .string s, .string t => .ok (.bool (Pieces.occurs t.toList s.toList))
  | .array _, v => .error (.unsupportedArgument includes (some 2) v.kind)
  | .string _, v => .error (.unsupportedArgument includes (some 2) v.kind)
  | v, _ => .error (.unsupportedArgument includes (some 1) v.kind)

def trimmed (text cutset : List Char) : Value :=
  .string (String.ofList (Pieces.trim cutset text))

def pieces (text separator : List Char) : Value :=
  .array ((Pieces.split separator text).map fun piece => .string (String.ofList piece))

def drawBound : List Value → Except Fault Nat
  | [] => .ok (Nat.pow 2 63)
  | [.int n] => if 0 < n.toInt then .ok n.toInt.toNat else .error (.nonPositiveBound n)
  | [v] => .error (.argumentKind rand none .integer v.kind)
  | vs => .error (.builtinArity rand (wantedCount rand) vs.length)

def result (b : Builtin) (arguments : List Value) : Except Fault Value :=
  match b, arguments with
  | len, [v] => length v
  | first, [v] => onArray b (fun vs => .ok (vs.head?.getD .null)) v
  | last, [v] => onArray b (fun vs => .ok (vs.getLast?.getD .null)) v
  | rest, [v] => onArray b (fun vs => .ok (tail vs)) v
  | pop, [v] => onArray b (fun vs => .ok (.array vs.dropLast)) v
  | shift, [v] => onArray b (fun vs => .ok (.array vs.tail)) v
  | min, [v, w] => onIntegers b (fun m n => .int (if m ≤ n then m else n)) v w
  | max, [v, w] => onIntegers b (fun m n => .int (if m ≤ n then n else m)) v w
  | push, [v, w] => onArray b (fun vs => .ok (.array (vs ++ [w]))) v
  | remove, [v, w] => onArray b (fun vs => removeAt vs w) v
  | unshift, [v, w] => onArray b (fun vs => .ok (putInFront vs w)) v
  | includes, [v, w] => contains v w
  | trim, [v, w] => onStrings b trimmed v w
  | split, [v, w] => onStrings b pieces v w
  | _, _ => .error (.builtinArity b b.wantedCount arguments.length)

def printAll : List Value → Eval Value
  | [] => pure .null
  | v :: vs => do
    Eval.printLine v
    printAll vs

def call (b : Builtin) (arguments : List Value) : Eval Value :=
  match b with
  | puts => printAll arguments
  | rand => do
    let n ← Eval.draw (← Eval.ofExcept (drawBound arguments))
    return .int (Int64.ofNat n)
  | b => Eval.ofExcept (b.result arguments)

end Nut.Builtin
