import Nut.Evaluation.Fault
import Nut.Evaluation.Heap
import Nut.Evaluation.Host

/-! Computations on a state. One that ends does so normally or by unwinding, and either way
leaves a state behind; one that does not end exhausts every allowance of steps. -/

namespace Nut

structure State where
  heap : Heap
  output : String
  host : Host

namespace State

def fresh (host : Host) : State := ⟨Heap.initial, "", host⟩

def initial (seed : Nat) : State := fresh (.seeded seed)

end State

/-- What travels outward through a program: a result to the call that it ends, or a fault. -/
inductive Signal where
  | returned (value : Value)
  | failed (fault : Fault)

inductive Outcome (α : Type) where
  | normal (value : α) (state : State)
  | unwound (signal : Signal) (state : State)
  | exhausted

def Eval (α : Type) : Type := State → Outcome α

namespace Eval

variable {α β : Type}

@[always_inline]
protected def pure (a : α) : Eval α := fun s => .normal a s

@[always_inline]
protected def bind (m : Eval α) (f : α → Eval β) : Eval β := fun s =>
  match m s with
  | .normal a s => f a s
  | .unwound signal s => .unwound signal s
  | .exhausted => .exhausted

instance : Monad Eval where
  pure := Eval.pure
  bind := Eval.bind

def exhausted : Eval α := fun _ => .exhausted

def unwind (signal : Signal) : Eval α := fun s => .unwound signal s

def fail (fault : Fault) : Eval α := unwind (.failed fault)

def ofExcept : Except Fault α → Eval α
  | .ok a => pure a
  | .error fault => fail fault

/-- A call is where a returned value stops. -/
def catchReturn (m : Eval Value) : Eval Value := fun s =>
  match m s with
  | .unwound (.returned v) s => .normal v s
  | outcome => outcome

def lookup (scope : Nat) (name : String) : Eval (Option Value) := fun s =>
  .normal (s.heap.get? scope name) s

def declare (scope : Nat) (name : String) (value : Value) : Eval Unit := fun s =>
  .normal () { s with heap := s.heap.declare scope name value }

def assign (scope : Nat) (name : String) (value : Value) : Eval Unit := fun s =>
  match s.heap.nearest? scope name with
  | some d => declare d name value s
  | none => .unwound (.failed (.undeclared name)) s

def enclose (outer : Nat) : Eval Nat := fun s =>
  .normal s.heap.size { s with heap := s.heap.extend (some outer) }

def printLine (v : Value) : Eval Unit := fun s =>
  .normal () { s with output := s.output ++ (v.text s.host.arrangement ++ "\n") }

def draw (bound : Nat) : Eval Nat := fun s =>
  let (n, random) := s.host.random.next bound
  .normal n { s with host := { s.host with random } }

end Eval

end Nut
