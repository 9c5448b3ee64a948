import Nut.Proofs.Evaluation.Coupling

/-! Whatever can be evaluated to a value, in one type. -/

namespace Nut

inductive Term where
  | expr (e : Expr)
  | stmt (s : Stmt)
  | body (ss : List Stmt)

namespace Term

def evalWith (ops : Operations) (steps scope : Nat) : Term → Eval Value
  | expr e => e.evalWith ops steps scope
  | stmt s => s.evalWith ops steps scope
  | body ss => evalSequence (Stmt.evalWith ops steps scope) .null ss

abbrev eval : Nat → Nat → Term → Eval Value := evalWith .all

/-- What the term itself declares, apart from its parts. -/
def declares : Term → List String
  | expr _ => []
  | stmt s => s.declared?.toList
  | body ss => ss.filterMap Stmt.declared?

end Term

namespace Outcome

variable {α : Type}

def after : Outcome α → Option State
  | normal _ s => some s
  | unwound _ s => some s
  | exhausted => none

/-- A result, also of a `return` that is still on its way. -/
def carried : Outcome Value → Option Value
  | normal v _ => some v
  | unwound (.returned v) _ => some v
  | _ => none

end Outcome

namespace Coupling

variable {C : Coupling} {ops ops' : Operations} {k n m a b : Nat}

section Ends

variable {α β : Type} {A : Nat → α → β → Prop} {s : State}

lemma Meet.state_after {o : Outcome α} {p : Outcome β} (h : C.Meet k A o p)
    (hp : p.after = some s) :
    o = .exhausted ∨ ∃ l r, k ≤ l ∧ o.after = some r ∧ C.state l r s := by
  cases h with
  | exhausted => exact .inl rfl
  | normal hl _ hs | returned hl _ hs | failed _ hl hs =>
    cases hp
    exact .inr ⟨_, _, hl, rfl, hs⟩

end Ends

lemma Lawful.term (L : C.Lawful ops ops') (hn : n ≤ m) (he : C.exact → n = m) (t : Term)
    (hab : C.scope k a b) (ho : ∀ name ∈ t.declares, C.owner k a b name) :
    C.Runs k C.value (t.evalWith ops n a) (t.evalWith ops' m b) := by
  cases t with
  | expr e => exact (L.eval hn he).1 k a b e hab
  | stmt s => exact (L.eval hn he).2 k a b s hab fun name hs => ho name (by simp [Term.declares, hs])
  | body ss =>
    refine L.evalSequence (fun s hs => ?_) ((L.likeness k).atom rfl)
    exact (L.eval hn he).2 k a b s hab fun name h => ho name (List.mem_filterMap.mpr ⟨s, hs, h⟩)

end Coupling

end Nut
