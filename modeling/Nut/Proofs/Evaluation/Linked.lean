import Nut.Proofs.Evaluation.Reach
import Nut.Proofs.Evaluation.Terms

/-! Two evaluations over heaps that are related wherever the evaluations can come. -/

namespace Nut

def Visible (n : Nat) (W : Nat → Prop) (k c : Nat) : Prop := c < k ∧ (c < n → W c)

/-- What two states have in common whatever is done to visible scopes. -/
structure Ambient (V : Value → Value → Prop) (n : Nat) (W : Nat → Prop)
    (A : State → State → Prop) : Prop where
  extend {s t : State} {outer : Nat} : n ≤ s.heap.size → outer < s.heap.size → A s t →
    A { s with heap := s.heap.extend (some outer) } { t with heap := t.heap.extend (some outer) }
  declare {s t : State} {d : Nat} {v w : Value} (x : String) : (d < n → W d) → V v w → A s t →
    A { s with heap := s.heap.declare d x v } { t with heap := t.heap.declare d x w }

structure ValueRelation (V : Value → Value → Prop) : Prop extends Likeness V where
  function_iff {ps qs : List String} {as bs : List Stmt} {a b : Nat} :
    V (.function ps as a) (.function qs bs b) ↔ ps = qs ∧ as = bs ∧ a = b

lemma ValueRelation.eq : ValueRelation Eq where
  toLikeness := .eq
  function_iff := by simp

namespace Coupling

variable {V : Value → Value → Prop} {n k l : Nat} {W : Nat → Prop} {A : State → State → Prop}
variable {ops ops' : Operations}

/-- The stage is the number of scopes. -/
def linked (V : Value → Value → Prop) (n : Nat) (W : Nat → Prop) (A : State → State → Prop) :
    Coupling where
  exact := True
  state k s t := n ≤ k ∧ s.heap.size = k ∧ s.heap.Like V (Visible n W k) t.heap ∧ A s t
  scope k a b := a = b ∧ Visible n W k a
  owner k a b _ := a = b ∧ Visible n W k a
  value k := Restrict V (Visible n W k)

lemma visible_later {c : Nat} (hk : k ≤ l) (hc : Visible n W k c) : Visible n W l c :=
  ⟨hc.1.trans_le hk, hc.2⟩

lemma restrict_later {v w : Value} (hk : k ≤ l) (h : Restrict V (Visible n W k) v w) :
    Restrict V (Visible n W l) v w :=
  ⟨h.1.mono fun _ => visible_later hk, h.2⟩

lemma visible_succ (hn : n ≤ k) (c : Nat) : Visible n W (k + 1) c ↔ Visible n W k c ∨ c = k := by
  constructor
  · rintro ⟨hlt, hW⟩
    exact (Nat.lt_succ_iff_lt_or_eq.mp hlt).imp_left fun hlt => ⟨hlt, hW⟩
  · rintro (hc | rfl)
    · exact visible_later (by omega) hc
    · exact ⟨by omega, fun hlt => absurd hlt (by omega)⟩

lemma linked_enclose (hA : Ambient V n W A) {a : Nat} (ha : Visible n W k a) :
    (linked V n W A).Runs k (fun l c d => c = d ∧ Visible n W l c) (Eval.enclose a)
      (Eval.enclose a) := by
  rintro l s t hl ⟨hn, rfl, H, hst⟩
  have hvis : ∀ c, Visible n W (s.heap.size + 1) c ↔ Visible n W s.heap.size c ∨ c = s.heap.size :=
    visible_succ hn
  refine .normal (Nat.le_succ _) ⟨H.size_eq, (hvis _).mpr (.inr rfl)⟩ ⟨by omega, ?_, ?_, ?_⟩
  · exact s.heap.size_extend _
  · exact H.extend (visible_later hl ha) hvis
  · exact hA.extend hn (ha.1.trans_le hl) hst

lemma linked_declare (hA : Ambient V n W A) {d : Nat} (hd : Visible n W k d) (x : String)
    {v w : Value} (hvw : Restrict V (Visible n W k) v w) :
    (linked V n W A).Runs k (fun _ _ _ => True) (Eval.declare d x v) (Eval.declare d x w) := by
  rintro l s t hl ⟨hn, hs, H, hst⟩
  refine .normal le_rfl trivial ⟨hn, (s.heap.size_declare d x v).trans hs, ?_, ?_⟩
  · exact H.declare d x (restrict_later hl hvw)
  · exact hA.declare x hd.2 hvw.2 hst

lemma linked_assign (hA : Ambient V n W A) {a : Nat} (ha : Visible n W k a) (x : String)
    {v w : Value} (hvw : Restrict V (Visible n W k) v w) :
    (linked V n W A).Runs k (fun _ _ _ => True) (Eval.assign a x v) (Eval.assign a x w) := by
  intro l s t hl hst
  obtain ⟨heq, hmem⟩ := hst.2.2.1.nearest? (visible_later hl ha) x
  simp only [Eval.assign, ← heq]
  cases hd : s.heap.nearest? a x with
  | none => exact .failed _ le_rfl hst
  | some d => exact linked_declare hA (hmem d hd) x (restrict_later hl hvw) l s t le_rfl hst

lemma lawful_linked (hV : ValueRelation V) (hA : Ambient V n W A) (hops : ops.assign = Eval.assign)
    (hops' : ops'.assign = Eval.assign)
    (hcall : ∀ k vs ws b, List.Forall₂ (Restrict V (Visible n W k)) vs ws →
      (linked V n W A).Runs k (linked V n W A).value (ops.call b vs) (ops'.call b ws)) :
    (linked V n W A).Lawful ops ops' where
  scope_later hk h := ⟨h.1, visible_later hk h.2⟩
  owner_later hk h := ⟨h.1, visible_later hk h.2⟩
  value_later hk h := restrict_later hk h
  likeness k := hV.toLikeness.restrict _
  function ps body h := by
    obtain ⟨rfl, ha⟩ := h
    exact ⟨Value.holdsIn_function.mpr ha, hV.function_iff.mpr ⟨rfl, rfl, rfl⟩⟩
  of_function h := by
    obtain ⟨hps, hbody, hscope⟩ := hV.function_iff.mp h.2
    exact ⟨hps, hbody, hscope, Value.holdsIn_function.mp h.1⟩
  lookup x hst hab := by
    obtain ⟨rfl, ha⟩ := hab
    exact hst.2.2.1.get? ha x
  enclose hab := by
    obtain ⟨rfl, ha⟩ := hab
    exact (linked_enclose hA ha).imp fun l c d h => ⟨h, fun _ => h⟩
  declare hab hvw := by
    obtain ⟨rfl, ha⟩ := hab
    exact linked_declare hA ha _ hvw
  assign x hab hvw := by
    obtain ⟨rfl, ha⟩ := hab
    rw [hops, hops']
    exact linked_assign hA ha x hvw
  call b hvs := hcall _ _ _ b hvs

end Coupling

end Nut
