import Mathlib
import Nut.Session.Evaluator

/-! However a walk ends, it does what the evaluation in the scope does where it started, and ends in
that scope again. -/

namespace Nut

namespace Walk

variable {α β : Type} {scope : Nat}

def Keeps (scope : Nat) (m : Walk α) (n : Eval α) : Prop := ∀ s, m scope s = (n s, scope)

namespace Keeps

variable {m : Walk α} {n : Eval α} {f : α → Walk β} {g : α → Eval β}

protected lemma pure (a : α) : Keeps scope (pure a) (pure a) := fun _ => rfl

protected lemma bind (h : Keeps scope m n) (hf : ∀ a, Keeps scope (f a) (g a)) :
    Keeps scope (m >>= f) (n >>= g) := by
  intro s
  show Walk.bind m f scope s = (Eval.bind n g s, scope)
  rw [Walk.bind, Eval.bind, h s]
  cases n s with
  | normal a t => exact hf a t
  | unwound | exhausted => rfl

lemma lift (n : Eval α) : Keeps scope (lift n) n := fun _ => rfl

lemma current {f : Nat → Walk α} (h : Keeps scope (f scope) n) : Keeps scope (current >>= f) n := h

lemma within {inner : Nat} (h : Keeps inner m n) : Keeps scope (within inner m) n := by
  intro s
  rw [Walk.within, h s]

lemma catchReturn {m : Walk Value} {n : Eval Value} (h : Keeps scope m n) :
    Keeps scope (catchReturn m) (Eval.catchReturn n) := by
  intro s
  rw [Walk.catchReturn, Eval.catchReturn, h s]
  cases n s with
  | unwound signal => cases signal <;> rfl
  | normal | exhausted => rfl

section Lists

variable {f : Expr → Walk Value} {g : Expr → Eval Value}

lemma all (h : ∀ e, Keeps scope (f e) (g e)) (es : List Expr) :
    Keeps scope (all f es) (evalAll g es) := by
  induction es with
  | nil => exact .pure _
  | cons e es ih => exact (h e).bind fun v => ih.bind fun vs => .pure _

lemma pairs (h : ∀ e, Keeps scope (f e) (g e)) (entries : Entries Key Value)
    (rest : List (Expr × Expr)) :
    Keeps scope (pairs f entries rest) (evalPairs g entries rest) := by
  induction rest generalizing entries with
  | nil => exact .pure _
  | cons pair rest ih =>
    refine (h pair.1).bind fun k => (lift _).bind fun key => ?_
    exact (h pair.2).bind fun v => ih _

end Lists

section Statements

variable {f : Stmt → Walk Value} {g : Nat → Stmt → Eval Value}

lemma sequence (h : ∀ s, Keeps scope (f s) (g scope s)) (last : Value) (ss : List Stmt) :
    Keeps scope (sequence f last ss) (evalSequence (g scope) last ss) := by
  induction ss generalizing last with
  | nil => exact .pure _
  | cons s ss ih => exact (h s).bind fun v => ih v

variable (h : ∀ scope s, Keeps scope (f s) (g scope s))

include h

lemma block (scope : Nat) (body : List Stmt) :
    Keeps scope (block f body) (evalBlock g scope body) := by
  refine current ((lift _).bind fun inner => ?_)
  exact within (sequence (h inner) .null body)

lemma call (scope : Nat) (callee : Value) (arguments : List Value) :
    Keeps scope (call f callee arguments) (evalCall .all g callee arguments) := by
  cases callee with
  | function parameters body captured =>
    rw [Walk.call, evalCall]
    split
    · refine (lift _).bind fun inner => (lift _).bind fun _ => ?_
      exact catchReturn (within (sequence (h inner) .null body))
    · exact lift _
  | _ => exact lift _

end Statements

lemma loop {condition : Walk Value} {condition' : Eval Value} {round : Walk Unit}
    {round' : Eval Unit} (hc : Keeps scope condition condition') (hr : Keeps scope round round')
    (steps : Nat) :
    Keeps scope (loop condition round steps) (evalLoop condition' round' steps) := by
  induction steps with
  | zero => exact lift _
  | succ steps ih =>
    refine hc.bind fun v => ?_
    split
    · exact hr.bind fun _ => ih
    · exact .pure _

end Keeps

end Walk

open Walk.Keeps

lemma keeps_walk (steps : Nat) :
    (∀ scope e, Walk.Keeps scope (Expr.walk steps e) (e.eval steps scope)) ∧
      ∀ scope s, Walk.Keeps scope (Stmt.walk steps s) (s.eval steps scope) := by
  induction steps with
  | zero => exact ⟨fun _ _ => lift _, fun _ _ => lift _⟩
  | succ steps ih =>
    obtain ⟨he, hs⟩ := ih
    refine ⟨fun scope e => ?_, fun scope s => ?_⟩
    · cases e with
      | ident name => exact current (lift _)
      | int | float | string | bool => exact .pure _
      | array es => exact (all (he scope) es).bind fun vs => .pure _
      | hash entries => exact (pairs (he scope) [] entries).bind fun es => .pure _
      | prefixOp op right => exact (he scope right).bind fun v => lift _
      | infixOp left op right | index left right =>
        exact (he scope left).bind fun v => (he scope right).bind fun w => lift _
      | cond condition consequence alternative =>
        refine (he scope condition).bind fun v => ?_
        split
        · exact block hs scope consequence
        · cases alternative with
          | some body => exact block hs scope body
          | none => exact .pure _
      | function parameters body => exact current (.pure _)
      | call callee es =>
        refine (he scope callee).bind fun f => (all (he scope) es).bind fun vs => ?_
        exact call hs scope f vs
      | assign name value =>
        exact (he scope value).bind fun v => current ((lift _).bind fun _ => .pure _)
    · cases s with
      | expr e => exact he scope e
      | result e => exact (he scope e).bind fun v => lift _
      | declare name e =>
        exact (he scope e).bind fun v => current ((lift _).bind fun _ => .pure _)
      | block body => exact block hs scope body
      | loop init condition post body =>
        refine current ((lift _).bind fun inner => within ?_)
        refine (hs inner init).bind fun _ => loop (he inner condition) ?_ steps
        exact (block hs inner body).bind fun _ => (hs inner post).bind fun _ => .pure _

end Nut
