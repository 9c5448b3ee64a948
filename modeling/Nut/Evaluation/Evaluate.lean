import Nut.Evaluation.Arithmetic
import Nut.Evaluation.Builtins

/-! The meaning of programs. Evaluation is given an allowance of steps; a larger one never
changes an outcome, it only lets more evaluations end. -/

namespace Nut

open Eval

/-- The operations that a program can be kept from. -/
structure Operations where
  call : Builtin → List Value → Eval Value
  assign : Nat → String → Value → Eval Unit

def Operations.all : Operations := ⟨Builtin.call, Eval.assign⟩

def evalAll (f : Expr → Eval Value) : List Expr → Eval (List Value)
  | [] => pure []
  | e :: es => do
    let v ← f e
    return v :: (← evalAll f es)

/-- Each key is checked before its value is evaluated. -/
def evalPairs (f : Expr → Eval Value) (entries : Entries Key Value) :
    List (Expr × Expr) → Eval (Entries Key Value)
  | [] => pure entries
  | (key, value) :: pairs => do
    let k ← ofExcept (← f key).key
    let v ← f value
    evalPairs f (Entries.put k v entries) pairs

def evalSequence (f : Stmt → Eval Value) (last : Value) : List Stmt → Eval Value
  | [] => pure last
  | s :: ss => do
    let v ← f s
    evalSequence f v ss

def evalBlock (f : Nat → Stmt → Eval Value) (scope : Nat) (body : List Stmt) : Eval Value := do
  let inner ← enclose scope
  evalSequence (f inner) .null body

def evalLoop (condition : Eval Value) (round : Eval Unit) : Nat → Eval Value
  | 0 => exhausted
  | steps + 1 => do
    let v ← condition
    if v.truthy then
      round
      evalLoop condition round steps
    else
      return .null

def declareAll (scope : Nat) : List (String × Value) → Eval Unit
  | [] => pure ()
  | (name, value) :: rest => do
    declare scope name value
    declareAll scope rest

/-- The body of a function runs in a scope inside the one that the function was made in,
whatever the scope of the call. -/
def evalCall (ops : Operations) (f : Nat → Stmt → Eval Value) (callee : Value)
    (arguments : List Value) : Eval Value :=
  match callee with
  | .function parameters body captured =>
    if parameters.length = arguments.length then do
      let scope ← enclose captured
      declareAll scope (parameters.zip arguments)
      catchReturn (evalSequence (f scope) .null body)
    else
      fail (.arity parameters.length arguments.length)
  | .builtin b => ops.call b arguments
  | v => fail (.notCallable v.kind)

def evalName (scope : Nat) (name : String) : Eval Value := do
  match ← lookup scope name with
  | some v => return v
  | none =>
    match Builtin.ofName? name with
    | some b => return .builtin b
    | none => fail (.unknownIdentifier name)

mutual

def Expr.evalWith (ops : Operations) (steps : Nat) (scope : Nat) (e : Expr) : Eval Value :=
  match steps with
  | 0 => exhausted
  | steps + 1 =>
    match e with
    | .ident name => evalName scope name
    | .int n => pure (.int n)
    | .float x => pure (.float x)
    | .string s => pure (.string s)
    | .bool b => pure (.bool b)
    | .array es => do
      let vs ← evalAll (Expr.evalWith ops steps scope) es
      return .array vs
    | .hash pairs => do
      let entries ← evalPairs (Expr.evalWith ops steps scope) [] pairs
      return .hash entries
    | .prefixOp op right => do
      let v ← right.evalWith ops steps scope
      ofExcept (op.apply v)
    | .infixOp left op right => do
      let v ← left.evalWith ops steps scope
      let w ← right.evalWith ops steps scope
      ofExcept (op.apply v w)
    | .cond condition consequence alternative => do
      let v ← condition.evalWith ops steps scope
      if v.truthy then
        evalBlock (Stmt.evalWith ops steps) scope consequence
      else
        match alternative with
        | some body => evalBlock (Stmt.evalWith ops steps) scope body
        | none => return .null
    | .function parameters body => pure (.function parameters body scope)
    | .call callee es => do
      let f ← callee.evalWith ops steps scope
      let vs ← evalAll (Expr.evalWith ops steps scope) es
      evalCall ops (Stmt.evalWith ops steps) f vs
    | .index left position => do
      let v ← left.evalWith ops steps scope
      let w ← position.evalWith ops steps scope
      ofExcept (v.index w)
    | .assign name value => do
      let v ← value.evalWith ops steps scope
      ops.assign scope name v
      return v

def Stmt.evalWith (ops : Operations) (steps : Nat) (scope : Nat) (s : Stmt) : Eval Value :=
  match steps with
  | 0 => exhausted
  | steps + 1 =>
    match s with
    | .expr e => e.evalWith ops steps scope
    | .result e => do
      let v ← e.evalWith ops steps scope
      unwind (.returned v)
    | .declare name e => do
      let v ← e.evalWith ops steps scope
      declare scope name v
      return .null
    | .block body => evalBlock (Stmt.evalWith ops steps) scope body
    | .loop init condition post body => do
      let inner ← enclose scope
      let _ ← init.evalWith ops steps inner
      let round : Eval Unit := do
        let _ ← evalBlock (Stmt.evalWith ops steps) inner body
        let _ ← post.evalWith ops steps inner
      evalLoop (condition.evalWith ops steps inner) round steps

end

abbrev Expr.eval : Nat → Nat → Expr → Eval Value := Expr.evalWith .all

abbrev Stmt.eval : Nat → Nat → Stmt → Eval Value := Stmt.evalWith .all

/-- A program is the body of a function that is called once, in a scope that is already there. -/
def Program.eval (steps : Nat) (scope : Nat) (program : Program) : Eval Value :=
  catchReturn (evalSequence (Stmt.eval steps scope) .null program)

end Nut
