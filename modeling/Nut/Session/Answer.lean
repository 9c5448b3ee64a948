import Nut.Evaluation.Evaluate
import Nut.Syntax.Program
import Nut.Value.Object

/-! Running texts one after the other on one state. -/

namespace Nut

inductive Verdict where
  | value (v : Value)
  | fault (fault : Fault)
  | rejected (errors : List ParseError)
  | unfinished

/-- An allowance of steps that no evaluation lives to use up. -/
def ample : Nat := Nat.pow 2 62

namespace Verdict

def ofOutcome (before : State) : Outcome Value → Verdict × State
  | .normal v after => (.value v, after)
  | .unwound (.returned v) after => (.value v, after)
  | .unwound (.failed f) after => (.fault f, after)
  | .exhausted => (.unfinished, before)

def errors : Verdict → List String
  | value _ => []
  | fault f => [f.message]
  | rejected es => es.map ParseError.message
  | unfinished => []

end Verdict

/-- A text with a broken statement is not evaluated at all. -/
def run (steps : Nat) (scope : Nat) (source : String) (state : State) : Verdict × State :=
  match Program.ofText source with
  | .error errors => (.rejected errors, state)
  | .ok program => Verdict.ofOutcome state (Program.eval steps scope program state)

inductive Answer where
  | value (v : Value)
  | error (message : String)

namespace Answer

def ofVerdict : Verdict → Answer
  | .value v => value v
  | .fault f => error f.message
  | .rejected _ => value .null
  | .unfinished => value .null

def object : Answer → Object
  | value v => v.object
  | error message => .error message

def kind : Answer → Kind
  | value v => v.kind
  | error _ => .error

def text (a : Answer) (arrangement : Arrangement := .asPut) : String :=
  match a with
  | value v => v.text arrangement
  | error message => "ERROR: " ++ message

def truthy : Answer → Bool
  | value v => v.truthy
  | error _ => true

def hashable : Answer → Bool
  | value v => v.key?.isSome
  | error _ => false

def orderFree : Answer → Bool
  | value v => v.orderFree
  | error _ => true

def same : Answer → Answer → Bool
  | value v, value w => v.same w
  | error m, error n => m == n
  | _, _ => false

end Answer

end Nut
