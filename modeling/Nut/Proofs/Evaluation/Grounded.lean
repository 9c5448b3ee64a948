import Nut.Proofs.Evaluation.Sound

/-! Heaps in which every link leads to a scope that is there, outward to an older one. Evaluation
keeps them so, and only ever adds to them. -/

namespace Nut

structure Heap.Grounded (h : Heap) : Prop where
  outer_lt {c o : Nat} : h.outer? c = some o → o < c
  linked : h.Linked
  sound {c : Nat} {x : String} {v : Value} : h.local? c x = some v → v.Sound

structure State.Extends (s t : State) : Prop where
  size_le : s.heap.size ≤ t.heap.size
  outer_eq {c : Nat} : c < s.heap.size → t.heap.outer? c = s.heap.outer? c
  names {c : Nat} : c < s.heap.size → s.heap.names c <+: t.heap.names c
  printed : ∃ text, t.output = s.output ++ text
  arrangement_eq : t.host.arrangement = s.host.arrangement

namespace Heap.Grounded

variable {h : Heap} {c : Nat} {x : String} {v : Value}

lemma initial : Heap.initial.Grounded where
  outer_lt {c _} ho := absurd (.outer ho) (not_links_initial c _)
  linked s t hl := absurd hl (not_links_initial s t)
  sound {c x _} hv := by
    rw [Heap.local?, Heap.initial] at hv
    cases c <;> cases hv

lemma settled (hh : h.Grounded) (hv : h.local? c x = some v) : v.Settled h.size :=
  ⟨fun _ hc => hh.linked _ _ (.bound hv hc), rfl, hh.sound hv⟩

lemma extend {outer : Option Nat} (hh : h.Grounded) (ho : ∀ o, outer = some o → o < h.size) :
    (h.extend outer).Grounded where
  outer_lt := Descending.extend (fun _ _ => hh.outer_lt) ho _ _
  linked := hh.linked.extend ho
  sound hv := by
    rw [local?_extend] at hv
    exact hh.sound hv

lemma declare (hh : h.Grounded) (hv : v.Settled h.size) (d : Nat) (x : String) :
    (h.declare d x v).Grounded where
  outer_lt := Descending.declare (fun _ _ => hh.outer_lt) d x v _ _
  linked := hh.linked.declare hv.1 d x
  sound hw := by
    rw [local?_declare] at hw
    split at hw
    · cases hw
      exact hv.2.2
    · exact hh.sound hw

lemma get? (hh : h.Grounded) (hv : h.get? c x = some v) : v.Settled h.size := by
  obtain ⟨d, -, hd⟩ := Option.bind_eq_some_iff.mp hv
  exact hh.settled hd

end Heap.Grounded

namespace State.Extends

variable {s t u : State}

lemma refl (s : State) : s.Extends s :=
  ⟨le_rfl, fun _ => rfl, fun _ => List.prefix_rfl, ⟨"", by simp⟩, rfl⟩

lemma trans (h : s.Extends t) (h' : t.Extends u) : s.Extends u where
  size_le := h.size_le.trans h'.size_le
  outer_eq hc := (h'.outer_eq (hc.trans_le h.size_le)).trans (h.outer_eq hc)
  names hc := (h.names hc).trans (h'.names (hc.trans_le h.size_le))
  printed := by
    obtain ⟨a, ha⟩ := h.printed
    obtain ⟨b, hb⟩ := h'.printed
    exact ⟨a ++ b, by rw [hb, ha, String.append_assoc]⟩
  arrangement_eq := h'.arrangement_eq.trans h.arrangement_eq

lemma extend (s : State) (outer : Option Nat) :
    s.Extends { s with heap := s.heap.extend outer } where
  size_le := by simp
  outer_eq hc := by rw [Heap.outer?_extend, if_neg hc.ne]
  names hc := by rw [Heap.names_extend]
  printed := (refl s).printed
  arrangement_eq := rfl

lemma declare (s : State) (d : Nat) (x : String) (v : Value) :
    s.Extends { s with heap := s.heap.declare d x v } where
  size_le := by simp
  outer_eq _ := by rw [Heap.outer?_declare]
  names _ := by
    rw [Heap.names_declare]
    split
    · exact List.prefix_append _ _
    · exact List.prefix_rfl
  printed := (refl s).printed
  arrangement_eq := rfl

lemma print (s : State) (text : String) : s.Extends { s with output := s.output ++ text } :=
  { refl s with printed := ⟨text, rfl⟩ }

end State.Extends

/-- What an evaluation from `s` comes to, however it ends: an extension of `s` that is grounded,
and values that are at home there. -/
inductive Outcome.Grounded {α : Type} (s : State) (P : Nat → α → Prop) : Outcome α → Prop
  | normal {a t} : s.Extends t → t.heap.Grounded → P t.heap.size a → Grounded s P (.normal a t)
  | returned {v t} : s.Extends t → t.heap.Grounded → v.Settled t.heap.size →
      Grounded s P (.unwound (.returned v) t)
  | failed (fault) {t} : s.Extends t → t.heap.Grounded → Grounded s P (.unwound (.failed fault) t)
  | exhausted : Grounded s P .exhausted

namespace Outcome.Grounded

variable {α : Type} {s t : State} {P : Nat → α → Prop} {o : Outcome α}

lemma after (h : o.Grounded s P) (ho : o.after = some t) : s.Extends t ∧ t.heap.Grounded := by
  cases h with
  | normal he hg _ | returned he hg _ | failed _ he hg =>
    cases ho
    exact ⟨he, hg⟩
  | exhausted => cases ho

lemma imp {Q : Nat → α → Prop} (h : o.Grounded s P) (hPQ : ∀ n a, P n a → Q n a) :
    o.Grounded s Q := by
  cases h with
  | normal he hg ha => exact .normal he hg (hPQ _ _ ha)
  | returned he hg hv => exact .returned he hg hv
  | failed fault he hg => exact .failed fault he hg
  | exhausted => exact .exhausted

lemma carried {o : Outcome Value} {v : Value} (h : o.Grounded s fun n v => v.Settled n)
    (hv : o.carried = some v) : v.Sound := by
  cases h with
  | normal _ _ ha | returned _ _ ha =>
    cases hv
    exact (Value.settled_iff.mp ha).1
  | failed | exhausted => cases hv

end Outcome.Grounded

namespace Coupling

def grounded (s₀ : State) : Coupling where
  exact := True
  state k s t := s = t ∧ s.heap.size = k ∧ s.heap.Grounded ∧ s₀.Extends s
  scope k a b := a = b ∧ a < k
  owner k a b _ := a = b ∧ a < k
  value k := Restrict (fun v w => v = w ∧ v.Sound) (· < k)

variable {s₀ s : State} {k l a b : Nat}

lemma value_later_grounded {v w : Value} (hk : k ≤ l) (h : (grounded s₀).value k v w) :
    (grounded s₀).value l v w :=
  ⟨h.1.mono fun _ hc => hc.trans_le hk, h.2⟩

lemma settled_of_value {v w : Value} (h : (grounded s₀).value k v w) : v = w ∧ v.Settled k := by
  obtain ⟨hh, rfl, hs⟩ := h
  exact ⟨rfl, hh, rfl, hs⟩

lemma enclose_grounded (hab : (grounded s₀).scope k a b) :
    (grounded s₀).Runs k
      (fun l c d => (grounded s₀).scope l c d ∧ ∀ name, (grounded s₀).owner l c d name)
      (Eval.enclose a) (Eval.enclose b) := by
  intro l s t hl hst
  obtain ⟨rfl, rfl, hg, he⟩ := hst
  obtain ⟨rfl, ha⟩ := hab
  have hnew : s.heap.size = s.heap.size ∧ s.heap.size < s.heap.size + 1 :=
    ⟨rfl, Nat.lt_succ_self _⟩
  refine .normal (Nat.le_succ _) ⟨hnew, fun _ => hnew⟩ ⟨rfl, s.heap.size_extend _, ?_, ?_⟩
  · refine hg.extend fun o ho => ?_
    cases ho
    exact ha.trans_le hl
  · exact he.trans (.extend s _)

lemma declare_grounded (d : Nat) (x : String) {v w : Value} (hvw : (grounded s₀).value k v w) :
    (grounded s₀).Runs k (fun _ _ _ => True) (Eval.declare d x v) (Eval.declare d x w) := by
  intro l s t hl hst
  obtain ⟨rfl, rfl, hg, he⟩ := hst
  obtain ⟨rfl, hv⟩ := settled_of_value (value_later_grounded hl hvw)
  refine .normal le_rfl trivial ⟨rfl, s.heap.size_declare d x v, hg.declare hv d x, ?_⟩
  exact he.trans (.declare s d x v)

lemma assign_grounded (c : Nat) (x : String) {v w : Value} (hvw : (grounded s₀).value k v w) :
    (grounded s₀).Runs k (fun _ _ _ => True) (Eval.assign c x v) (Eval.assign c x w) := by
  intro l s t hl hst
  obtain ⟨rfl, -⟩ := id hst
  simp only [Eval.assign]
  cases s.heap.nearest? c x with
  | none => exact .failed _ le_rfl hst
  | some d => exact declare_grounded d x hvw l s s hl hst

lemma lawful_grounded : (grounded s₀).Lawful .all .all where
  scope_later hk h := ⟨h.1, h.2.trans_le hk⟩
  owner_later hk h := ⟨h.1, h.2.trans_le hk⟩
  value_later := value_later_grounded
  likeness _ := Value.sound_likeness.restrict _
  function ps body h := by
    obtain ⟨rfl, ha⟩ := h
    exact ⟨Value.holdsIn_function.mpr ha, rfl, Value.sound_function ps body _⟩
  of_function {k _ _ _ _ _ _} h := by
    obtain ⟨hh, heq, -⟩ := h
    cases heq
    exact ⟨rfl, rfl, rfl, (Value.holdsIn_function (S := (· < k))).mp hh⟩
  lookup {_ s _ c _} x hst hab := by
    obtain ⟨rfl, rfl, hg, -⟩ := hst
    obtain ⟨rfl, -⟩ := hab
    cases hv : s.heap.get? c x with
    | none => exact .none
    | some v => exact .some (hg.get? hv)
  enclose := enclose_grounded
  declare hab hvw := by
    obtain ⟨rfl, -⟩ := hab
    exact declare_grounded _ _ hvw
  assign x hab hvw := by
    obtain ⟨rfl, -⟩ := hab
    exact assign_grounded _ x hvw
  call {k vs ws} b hvs := by
    obtain rfl : vs = ws :=
      List.forall₂_eq_eq_eq ▸ hvs.imp fun _ _ h => (settled_of_value h).1
    refine Runs.call_self (C := grounded s₀) (fun _ => Value.sound_likeness.restrict _) (·.1) ?_ ?_
      b fun l hl => hvs.imp fun _ _ => value_later_grounded hl
    · exact fun text hst => ⟨rfl, hst.2.1, hst.2.2.1, hst.2.2.2.trans (.print _ text)⟩
    · exact fun _ hst => ⟨rfl, hst.2.1, hst.2.2.1, { hst.2.2.2 with }⟩

variable {α : Type} {A : Nat → α → α → Prop}

lemma Meet.grounded {o : Outcome α} (h : (grounded s).Meet k A o o) :
    o.Grounded s fun n a => A n a a := by
  cases o with
  | normal a t =>
    cases h with
    | normal _ ha hst =>
      obtain ⟨-, rfl, hg, he⟩ := hst
      exact .normal he hg ha
  | unwound signal t =>
    cases h with
    | returned _ hv hst =>
      obtain ⟨-, rfl, hg, he⟩ := hst
      exact .returned he hg (settled_of_value hv).2
    | failed _ _ hst => exact .failed _ hst.2.2.2 hst.2.2.1
  | exhausted => exact .exhausted

lemma Runs.grounded {m : Eval α} (h : (grounded s).Runs s.heap.size A m m)
    (hs : s.heap.Grounded) : (m s).Grounded s fun n a => A n a a :=
  (h _ s s le_rfl ⟨rfl, rfl, hs, .refl s⟩).grounded

end Coupling

section Evaluations

open Coupling

variable {s : State} {scope : Nat} (hs : s.heap.Grounded) (hscope : scope < s.heap.size)

include hscope in
lemma Expr.runs_grounded (e : Expr) (steps : Nat) :
    (Coupling.grounded s).Runs s.heap.size (Coupling.grounded s).value (e.eval steps scope)
      (e.eval steps scope) :=
  (lawful_grounded.eval le_rfl fun _ => rfl).1 _ _ _ e ⟨rfl, hscope⟩

include hs hscope

lemma Term.grounded (t : Term) (steps : Nat) :
    (t.eval steps scope s).Grounded s fun n v => v.Settled n :=
  (lawful_grounded.term le_rfl (fun _ => rfl) t ⟨rfl, hscope⟩ fun _ _ => ⟨rfl, hscope⟩).grounded hs

lemma evalAll_grounded (es : List Expr) (steps : Nat) :
    (evalAll (Expr.eval steps scope) es s).Grounded s fun n vs => ∀ v ∈ vs, Value.Settled n v :=
  ((lawful_grounded.evalAll (Expr.runs_grounded hscope · steps) es).grounded hs).imp
    fun _ _ => List.forall₂_same.mp

lemma evalPairs_grounded (pairs : List (Expr × Expr)) (steps : Nat) :
    (evalPairs (Expr.eval steps scope) [] pairs s).Grounded s
      fun n es => (Value.hash es).Settled n :=
  (lawful_grounded.evalPairs (Expr.runs_grounded hscope · steps) pairs
    (lawful_grounded.likeness _).hash_nil).grounded hs

lemma declareAll_grounded (names : List String) {vs : List Value}
    (hvs : ∀ v ∈ vs, v.Settled s.heap.size) :
    (declareAll scope (names.zip vs) s).Grounded s fun _ _ => True :=
  (lawful_grounded.declareAll (fun _ => ⟨rfl, hscope⟩) names
    (List.forall₂_same.mpr hvs)).grounded hs

end Evaluations

end Nut
