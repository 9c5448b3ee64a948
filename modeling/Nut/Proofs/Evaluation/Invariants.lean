import Nut.Proofs.Evaluation.Terms

/-! Properties of the heap that evaluation keeps. The evaluation is taken beside itself. -/

namespace Nut

/-- An assignment to a spared binding is never done: the evaluation does not come to its end. -/
def Operations.sparing (spared : Nat → String → Bool) : Operations where
  call := Builtin.call
  assign scope name value s :=
    match s.heap.nearest? scope name with
    | some d => if spared d name then .exhausted else Eval.assign scope name value s
    | none => Eval.assign scope name value s

lemma Operations.sparing_none : Operations.sparing (fun _ _ => false) = .all := by
  simp only [sparing, all]
  congr 1
  funext scope name value s
  cases s.heap.nearest? scope name <;> rfl

/-- What new scopes, declarations where `own` allows them and assignments to what is not spared
keep. -/
structure Heap.Invariant (own : Nat → String → Prop) (spared : Nat → String → Bool)
    (I : Heap → Prop) : Prop where
  extend {h : Heap} (outer : Nat) : I h → I (h.extend (some outer)) ∧ ∀ name, own h.size name
  declare {h : Heap} {s : Nat} {name : String} (value : Value) : I h → own s name →
    I (h.declare s name value)
  assign {h : Heap} {s d : Nat} {name : String} (value : Value) : I h →
    h.nearest? s name = some d → spared d name = false → I (h.declare d name value)

namespace Coupling

def invariant (exact : Prop) (own : Nat → String → Prop) (I : Heap → Prop) : Coupling where
  exact := exact
  state _ s t := s = t ∧ I s.heap
  scope _ a b := a = b
  owner _ a b name := a = b ∧ own a name
  value _ v w := v = w

variable {exact : Prop} {own : Nat → String → Prop} {spared : Nat → String → Bool}
variable {I : Heap → Prop}

lemma runs_assign (hI : Heap.Invariant own spared I) (he : exact → ∀ d x, spared d x = false)
    (k a : Nat) (name : String) (v : Value) :
    (invariant exact own I).Runs k (fun _ _ _ => True)
      ((Operations.sparing spared).assign a name v) (Eval.assign a name v) := by
  rintro _ s _ - ⟨rfl, hs⟩
  cases hd : s.heap.nearest? a name with
  | none =>
    simp only [Operations.sparing, Eval.assign, hd]
    exact .failed _ le_rfl ⟨rfl, hs⟩
  | some d =>
    simp only [Operations.sparing, Eval.assign, hd]
    cases hsp : spared d name with
    | true => exact .exhausted fun h => absurd hsp (by simp [he h d name])
    | false => exact .normal le_rfl trivial ⟨rfl, hI.assign _ hs hd hsp⟩

lemma lawful_invariant (hI : Heap.Invariant own spared I)
    (he : exact → ∀ d x, spared d x = false) :
    (invariant exact own I).Lawful (.sparing spared) .all where
  scope_later _ h := h
  owner_later _ h := h
  value_later _ h := h
  likeness _ := .eq
  function _ _ h := by
    cases h
    rfl
  of_function h := by
    cases h
    exact ⟨rfl, rfl, rfl⟩
  lookup {_ s _ a _} name hs hab := by
    obtain ⟨rfl, -⟩ := hs
    obtain rfl := hab
    exact rel_self _
  enclose hab _ s _ _ hs := by
    obtain ⟨rfl, hs⟩ := hs
    obtain rfl := hab
    obtain ⟨he, ho⟩ := hI.extend _ hs
    exact .normal le_rfl ⟨rfl, fun name => ⟨rfl, ho name⟩⟩ ⟨rfl, he⟩
  declare hab hv _ s _ _ hs := by
    obtain ⟨rfl, hs⟩ := hs
    obtain ⟨rfl, ho⟩ := hab
    obtain rfl := hv
    exact .normal le_rfl trivial ⟨rfl, hI.declare _ hs ho⟩
  assign {k a _ v _} name hab hv := by
    obtain rfl := hab
    obtain rfl := hv
    exact runs_assign hI he k a name v
  call {_ vs ws} b hvs := by
    obtain rfl : vs = ws := by rwa [← List.forall₂_eq_eq_eq]
    exact Runs.call_self (C := invariant exact own I) (fun _ => .eq) (fun h => h.1)
      (fun _ h => ⟨rfl, h.2⟩) (fun _ h => ⟨rfl, h.2⟩) b fun _ _ => hvs

end Coupling

namespace Heap.Invariant

variable {own : Nat → String → Prop} {spared : Nat → String → Bool} {I : Heap → Prop}
variable {t : Term} {steps scope : Nat} {s s' : State}

lemma after_sparing (hI : Heap.Invariant own spared I) (hs : I s.heap)
    (ho : ∀ name ∈ t.declares, own scope name) (h : (t.eval steps scope s).after = some s') :
    t.evalWith (.sparing spared) steps scope s = .exhausted ∨ I s'.heap := by
  have hr := (Coupling.lawful_invariant hI False.elim).term (le_refl steps) False.elim t (k := 0)
    (a := scope) rfl (fun name hn => ⟨rfl, ho name hn⟩) 0 s s le_rfl ⟨rfl, hs⟩
  rcases hr.state_after h with he | ⟨_, _, -, -, rfl, hI⟩
  · exact .inl he
  · exact .inr hI

lemma after (hI : Heap.Invariant own (fun _ _ => false) I) (hs : I s.heap)
    (ho : ∀ name ∈ t.declares, own scope name) (h : (t.eval steps scope s).after = some s') :
    I s'.heap := by
  rcases hI.after_sparing hs ho h with he | hs'
  · rw [Operations.sparing_none] at he
    rw [Term.eval, he] at h
    cases h
  · exact hs'

end Heap.Invariant

end Nut
