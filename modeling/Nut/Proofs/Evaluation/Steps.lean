import Nut.Proofs.Evaluation.Invariants

/-! A larger allowance of steps never changes how an evaluation ends. -/

namespace Nut

open Filter

namespace Eval

variable {α : Type}

def Within (m n : Eval α) : Prop :=
  ∀ s o, m s = o → o ≠ .exhausted → n s = o

def Ends (run : Nat → Eval α) (s : State) (o : Outcome α) : Prop :=
  ∃ steps, run steps s = o

lemma Ends.eventually {run : Nat → Eval α} {s : State} {o : Outcome α} (h : Ends run s o)
    (hrun : ∀ n m, n ≤ m → (run n).Within (run m)) (ho : o ≠ .exhausted) :
    ∀ᶠ n in atTop, run n s = o := by
  obtain ⟨n, hn⟩ := h
  filter_upwards [eventually_ge_atTop n] with m hm
  exact hrun n m hm s o hn ho

end Eval

namespace Coupling

/-- Nothing is asked of the heap, and the first evaluation may have fewer steps. -/
def steps : Coupling := invariant False (fun _ _ => True) fun _ => True

lemma lawful_steps : steps.Lawful .all .all :=
  Operations.sparing_none ▸ lawful_invariant ⟨by simp, by simp, by simp⟩ False.elim

lemma Runs.within {α : Type} {m n : Eval α} (h : steps.Runs 0 (fun _ => Eq) m n) : m.Within n := by
  rintro s _ rfl hne
  have hr := h 0 s s le_rfl ⟨rfl, trivial⟩
  generalize m s = o at hr hne
  generalize n s = p at hr
  cases hr with
  | exhausted => exact absurd rfl hne
  | normal _ ha hs => rw [ha, hs.1]
  | @returned _ v w _ _ _ hv hs => rw [show v = w from hv, hs.1]
  | failed _ _ hs => rw [hs.1]

end Coupling

section Allowances

open Coupling

variable {n m : Nat} (hn : n ≤ m) (scope : Nat)

include hn

lemma Term.within (t : Term) : (t.eval n scope).Within (t.eval m scope) :=
  (lawful_steps.term hn False.elim t rfl fun _ _ => ⟨rfl, trivial⟩).within

lemma Expr.runs_steps (e : Expr) : steps.Runs 0 steps.value (e.eval n scope) (e.eval m scope) :=
  (lawful_steps.eval hn False.elim).1 0 scope scope e rfl

lemma evalAll_within (es : List Expr) :
    (evalAll (Expr.eval n scope) es).Within (evalAll (Expr.eval m scope) es) := by
  refine (Runs.imp (lawful_steps.evalAll (Expr.runs_steps hn scope) es) fun _ vs ws h => ?_).within
  rwa [← List.forall₂_eq_eq_eq]

lemma evalPairs_within (entries : Entries Key Value) (pairs : List (Expr × Expr)) :
    (evalPairs (Expr.eval n scope) entries pairs).Within
      (evalPairs (Expr.eval m scope) entries pairs) := by
  refine (Runs.imp (lawful_steps.evalPairs (Expr.runs_steps hn scope) pairs rfl) ?_).within
  intro _ es fs h
  exact Value.hash.inj h

end Allowances

end Nut
