import Nut.Evaluation.Evaluate
import Nut.Syntax.Program

/-! An evaluator that lives on from program to program. It is in one scope at a time, and goes into
the scopes of blocks, loops and calls and back again. -/

namespace Nut

/-- A computation that starts in a scope and may leave the evaluator in another one. -/
def Walk (α : Type) : Type := Nat → State → Outcome α × Nat

namespace Walk

variable {α β : Type}

@[always_inline]
protected def pure (a : α) : Walk α := fun scope s => (.normal a s, scope)

@[always_inline]
protected def bind (m : Walk α) (f : α → Walk β) : Walk β := fun scope s =>
  match m scope s with
  | (.normal a s, scope) => f a scope s
  | (.unwound signal s, scope) => (.unwound signal s, scope)
  | (.exhausted, scope) => (.exhausted, scope)

instance : Monad Walk where
  pure := Walk.pure
  bind := Walk.bind

def lift (m : Eval α) : Walk α := fun scope s => (m s, scope)

def current : Walk Nat := fun scope s => (.normal scope s, scope)

/-- The scope before is put back however `m` ends. -/
def within (inner : Nat) (m : Walk α) : Walk α := fun previous s =>
  let (outcome, _) := m inner s
  (outcome, previous)

def catchReturn (m : Walk Value) : Walk Value := fun scope s =>
  match m scope s with
  | (.unwound (.returned v) s, scope) => (.normal v s, scope)
  | ended => ended

def all (f : Expr → Walk Value) : List Expr → Walk (List Value)
  | [] => pure []
  | e :: es => do
    let v ← f e
    return v :: (← all f es)

def pairs (f : Expr → Walk Value) (entries : Entries Key Value) :
    List (Expr × Expr) → Walk (Entries Key Value)
  | [] => pure entries
  | (key, value) :: rest => do
    let k ← lift (Eval.ofExcept (← f key).key)
    let v ← f value
    pairs f (Entries.put k v entries) rest

def sequence (f : Stmt → Walk Value) (last : Value) : List Stmt → Walk Value
  | [] => pure last
  | s :: ss => do
    let v ← f s
    sequence f v ss

def block (f : Stmt → Walk Value) (body : List Stmt) : Walk Value := do
  let inner ← lift (Eval.enclose (← current))
  within inner (sequence f .null body)

def loop (condition : Walk Value) (round : Walk Unit) : Nat → Walk Value
  | 0 => lift Eval.exhausted
  | steps + 1 => do
    let v ← condition
    if v.truthy then
      round
      loop condition round steps
    else
      return .null

def call (f : Stmt → Walk Value) (callee : Value) (arguments : List Value) : Walk Value :=
  match callee with
  | .function parameters body captured =>
    if parameters.length = arguments.length then do
      let inner ← lift (Eval.enclose captured)
      lift (declareAll inner (parameters.zip arguments))
      catchReturn (within inner (sequence f .null body))
    else
      lift (Eval.fail (.arity parameters.length arguments.length))
  | .builtin b => lift (b.call arguments)
  | v => lift (Eval.fail (.notCallable v.kind))

end Walk

open Walk

mutual

def Expr.walk (steps : Nat) (e : Expr) : Walk Value :=
  match steps with
  | 0 => lift Eval.exhausted
  | steps + 1 =>
    match e with
    | .ident name => do lift (evalName (← current) name)
    | .int n => pure (.int n)
    | .float x => pure (.float x)
    | .string s => pure (.string s)
    | .bool b => pure (.bool b)
    | .array es => do
      let vs ← all (Expr.walk steps) es
      return .array vs
    | .hash entries => do
      let entries ← pairs (Expr.walk steps) [] entries
      return .hash entries
    | .prefixOp op right => do
      let v ← right.walk steps
      lift (Eval.ofExcept (op.apply v))
    | .infixOp left op right => do
      let v ← left.walk steps
      let w ← right.walk steps
      lift (Eval.ofExcept (op.apply v w))
    | .cond condition consequence alternative => do
      let v ← condition.walk steps
      if v.truthy then
        block (Stmt.walk steps) consequence
      else
        match alternative with
        | some body => block (Stmt.walk steps) body
        | none => return .null
    | .function parameters body => do
      let scope ← current
      return .function parameters body scope
    | .call callee es => do
      let f ← callee.walk steps
      let vs ← all (Expr.walk steps) es
      call (Stmt.walk steps) f vs
    | .index left position => do
      let v ← left.walk steps
      let w ← position.walk steps
      lift (Eval.ofExcept (v.index w))
    | .assign name value => do
      let v ← value.walk steps
      lift (Eval.assign (← current) name v)
      return v

def Stmt.walk (steps : Nat) (s : Stmt) : Walk Value :=
  match steps with
  | 0 => lift Eval.exhausted
  | steps + 1 =>
    match s with
    | .expr e => e.walk steps
    | .result e => do
      let v ← e.walk steps
      lift (Eval.unwind (.returned v))
    | .declare name e => do
      let v ← e.walk steps
      lift (Eval.declare (← current) name v)
      return .null
    | .block body => block (Stmt.walk steps) body
    | .loop init condition post body => do
      let inner ← lift (Eval.enclose (← current))
      within inner do
        let _ ← init.walk steps
        let round : Walk Unit := do
          let _ ← block (Stmt.walk steps) body
          let _ ← post.walk steps
        loop (condition.walk steps) round steps

end

structure Evaluator where
  scope : Nat
  state : State

namespace Evaluator

def start (host : Host) : Evaluator := ⟨0, State.fresh host⟩

def fresh (seed : Nat) : Evaluator := start (.seeded seed)

def eval (e : Evaluator) (steps : Nat) (program : Program) :
    Option (Except Fault Value) × Evaluator :=
  match sequence (Stmt.walk steps) .null program e.scope e.state with
  | (.normal v s, scope) | (.unwound (.returned v) s, scope) => (some (.ok v), ⟨scope, s⟩)
  | (.unwound (.failed fault) s, scope) => (some (.error fault), ⟨scope, s⟩)
  | (.exhausted, _) => (none, e)

/-- A text that is no program is left out. -/
def evalText (e : Evaluator) (steps : Nat) (source : String) :
    Option (Except Fault Value) × Evaluator :=
  match Program.ofText source with
  | .ok program => e.eval steps program
  | .error _ => (none, e)

end Evaluator

end Nut
