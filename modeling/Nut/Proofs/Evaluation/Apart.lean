import Nut.Proofs.Evaluation.NonInterference

/-! Evaluations on one heap, from states that differ in what was printed before and, where nothing
is drawn, in the numbers to come. Hashes are shown in the same order. -/

namespace Nut

/-- An evaluation that would call `rand` does not come to its end. -/
def Operations.undrawing : Operations where
  call
    | .rand, _ => Eval.exhausted
    | b, vs => Builtin.call b vs
  assign := Eval.assign

variable {R : Generator → Generator → Prop} {s₀ t₀ : State} {k : Nat} {ops : Operations}

structure Host.Akin (R : Generator → Generator → Prop) (h g : Host) : Prop where
  random : R h.random g.random
  arrangement : h.arrangement = g.arrangement

namespace Coupling

def apart (R : Generator → Generator → Prop) (s₀ t₀ : State) : Coupling where
  exact := False
  state _ s t := s.heap = t.heap ∧ s.host.Akin R t.host ∧ SamePrinted s₀ t₀ s t
  scope _ a b := a = b
  owner _ a b _ := a = b
  value _ := Eq

lemma call_apart {b : Builtin} (hb : b ≠ .rand) (vs : List Value) :
    (apart R s₀ t₀).Runs k (apart R s₀ t₀).value (b.call vs) (b.call vs) := by
  have hsame : List.Forall₂ (· = ·) vs vs := List.forall₂_same.mpr fun _ _ => rfl
  cases b with
  | rand => exact absurd rfl hb
  | puts =>
    refine Runs.printAll (fun v w hvw l s t _ hst => ?_) (fun _ => rfl) hsame
    obtain ⟨hheap, hhost, printed, hs, ht⟩ := hst
    subst hvw
    refine .normal le_rfl trivial
      ⟨hheap, hhost, printed ++ (v.text s.host.arrangement ++ "\n"), ?_, ?_⟩
    · simp only [hs, String.append_assoc]
    · simp only [ht, String.append_assoc, hhost.arrangement]
  | _ => exact .ofExcept fun _ _ => Builtin.result_agree .eq _ hsame

lemma declare_apart (d : Nat) (x : String) (v : Value) :
    (apart R s₀ t₀).Runs k (fun _ _ _ => True) (Eval.declare d x v) (Eval.declare d x v) := by
  rintro l s t - ⟨hheap, hhost, hprinted⟩
  refine .normal le_rfl trivial ⟨?_, hhost, hprinted⟩
  rw [hheap]

lemma lawful_apart (hassign : ops.assign = Eval.assign)
    (hcall : ∀ k b vs, (apart R s₀ t₀).Runs k (apart R s₀ t₀).value (ops.call b vs) (b.call vs)) :
    (apart R s₀ t₀).Lawful ops .all where
  scope_later _ h := h
  owner_later _ h := h
  value_later _ h := h
  likeness _ := .eq
  function _ _ h := by
    cases h
    rfl
  of_function h := by
    cases h
    exact ⟨rfl, rfl, rfl⟩
  lookup name hst hab := by
    obtain ⟨hheap, -⟩ := hst
    obtain rfl := hab
    rw [hheap]
    exact rel_self _
  enclose hab := by
    rintro _ s t - ⟨hheap, hhost, hprinted⟩
    obtain rfl := hab
    have hsize : s.heap.size = t.heap.size := congrArg Heap.size hheap
    refine .normal le_rfl ⟨hsize, fun _ => hsize⟩ ⟨?_, hhost, hprinted⟩
    rw [hheap]
  declare hab hv := by
    obtain rfl := hab
    obtain rfl := hv
    exact declare_apart _ _ _
  assign {k a _ v _} name hab hv := by
    obtain rfl := hab
    obtain rfl := hv
    rw [hassign]
    intro l s t hl hst
    simp only [Eval.assign, Operations.all, hst.1]
    cases t.heap.nearest? a name with
    | none => exact .failed _ le_rfl hst
    | some d => exact declare_apart d name v l s t hl hst
  call {_ vs ws} b hvs := by
    obtain rfl : vs = ws := List.forall₂_eq_eq_eq ▸ hvs
    exact hcall _ b vs

lemma lawful_sameDraws : (apart Eq s₀ t₀).Lawful .all .all := by
  refine lawful_apart rfl fun k b vs => ?_
  by_cases hb : b = .rand
  · subst hb
    refine Runs.bind (.ofExcept fun _ _ => .eq _) fun l bound _ _ hbound => ?_
    subst hbound
    refine Runs.bind (A := fun _ => Eq) (fun j s t _ hst => ?_) fun j i _ _ hi => ?_
    · obtain ⟨hheap, ⟨hrandom, harrangement⟩, hprinted⟩ := hst
      simp only [Eval.draw, hrandom]
      exact .normal le_rfl rfl ⟨hheap, ⟨rfl, harrangement⟩, hprinted⟩
    · subst hi
      exact .pure fun _ _ => rfl
  · exact call_apart hb vs

lemma lawful_undrawing : (apart (fun _ _ => True) s₀ t₀).Lawful .undrawing .all := by
  refine lawful_apart rfl fun k b vs => ?_
  by_cases hb : b = .rand
  · subst hb
    exact .exhausted False.elim
  · have hcall : Operations.undrawing.call b vs = b.call vs := by
      cases b <;> first | rfl | contradiction
    rw [hcall]
    exact call_apart hb vs

lemma Lawful.program (L : (apart R s₀ t₀).Lawful ops .all) (hheap : s₀.heap = t₀.heap)
    (hhost : s₀.host.Akin R t₀.host) (p : Program) (steps scope : Nat) :
    (apart R s₀ t₀).Meet 0 (fun _ => Eq)
      (Eval.catchReturn ((Term.body p).evalWith ops steps scope) s₀)
      (Program.eval steps scope p t₀) := by
  have hbody : (apart R s₀ t₀).Runs 0 (apart R s₀ t₀).value
      ((Term.body p).evalWith ops steps scope) ((Term.body p).eval steps scope) :=
    L.term le_rfl (fun _ => rfl) (.body p) rfl fun _ _ => rfl
  exact hbody.catchReturn 0 s₀ t₀ le_rfl ⟨hheap, hhost, "", by simp, by simp⟩

end Coupling

end Nut
