import Nut.Proofs.Evaluation.Grounded
import Nut.Proofs.Evaluation.Unwinding

/-! All that is come to in the course of an evaluation, through every part and every call, is
grounded. -/

namespace Nut

open Relation

structure State.Onward (s t : State) : Prop where
  extends_state : s.Extends t
  grounded : t.heap.Grounded

namespace State.Onward

variable {s t u : State} {c : Nat}

lemma refl (hs : s.heap.Grounded) : s.Onward s := ⟨.refl s, hs⟩

lemma trans (h : s.Onward t) (h' : t.Onward u) : s.Onward u :=
  ⟨h.extends_state.trans h'.extends_state, h'.grounded⟩

lemma lt (h : s.Onward t) (hc : c < s.heap.size) : c < t.heap.size :=
  hc.trans_le h.extends_state.size_le

lemma extend {outer : Option Nat} (hs : s.heap.Grounded)
    (ho : ∀ o, outer = some o → o < s.heap.size) :
    s.Onward { s with heap := s.heap.extend outer } :=
  ⟨.extend s outer, hs.extend ho⟩

lemma enclose (hs : s.heap.Grounded) (hc : c < s.heap.size) :
    s.Onward { s with heap := s.heap.extend (some c) } := by
  refine extend hs fun o ho => ?_
  cases ho
  exact hc

lemma declare {v : Value} (hs : s.heap.Grounded) (hv : v.Settled s.heap.size) (d : Nat)
    (x : String) : s.Onward { s with heap := s.heap.declare d x v } :=
  ⟨.declare s d x v, hs.declare hv d x⟩

end State.Onward

namespace Site

structure Grounded (x : Site) : Prop where
  heap : x.state.heap.Grounded
  scope_lt : x.scope < x.state.heap.size

/-- The second is come to, sooner or later, when the first is evaluated. -/
def Visits : Site → Site → Prop := ReflTransGen fun x y => x.Enters y ∨ x.Calls y

section Ends

variable {x : Site} {o : Outcome Value} {v : Value} {s t : State} {scope : Nat}

lemma Ends.grounded (h : x.Ends o) (hx : x.Grounded) :
    o.Grounded x.state fun n v => v.Settled n := by
  obtain ⟨steps, rfl⟩ := h
  exact x.term.grounded hx.heap hx.scope_lt steps

lemma Ends.onward (h : x.Ends (.normal v t)) (hx : x.Grounded) : x.state.Onward t := by
  obtain ⟨he, hg⟩ := (h.grounded hx).after rfl
  exact ⟨he, hg⟩

lemma AllEnd.grounded {es : List Expr} {vs : List Value} (h : AllEnd es scope s vs t)
    (hs : s.heap.Grounded) (hscope : scope < s.heap.size) :
    s.Onward t ∧ ∀ v ∈ vs, v.Settled t.heap.size := by
  obtain ⟨steps, h : evalAll (Expr.eval steps scope) es s = _⟩ := h
  have hg := evalAll_grounded hs hscope es steps
  rw [h] at hg
  cases hg with
  | normal he hg hvs => exact ⟨⟨he, hg⟩, hvs⟩

lemma PairsEnd.onward {pairs : List (Expr × Expr)} {entries : Entries Key Value}
    (h : PairsEnd pairs scope s entries t) (hs : s.heap.Grounded) (hscope : scope < s.heap.size) :
    s.Onward t := by
  obtain ⟨steps, h⟩ := h
  obtain ⟨he, hg⟩ := (evalPairs_grounded hs hscope pairs steps).after (congrArg Outcome.after h)
  exact ⟨he, hg⟩

lemma onward_enclosed (hs : s.heap.Grounded) (hscope : scope < s.heap.size) :
    s.Onward (enclosed s scope) :=
  .enclose hs hscope

lemma lt_enclosed (s : State) (scope : Nat) : s.heap.size < (enclosed s scope).heap.size := by
  simp [enclosed]

end Ends

section Loops

variable {init : Stmt} {condition : Expr} {post : Stmt} {body : List Stmt} {scope : Nat}
variable {s t : State}

lemma Round.onward (h : Round condition post body scope s t) (hs : s.heap.Grounded)
    (hscope : scope < s.heap.size) : s.Onward t := by
  obtain ⟨hc, -, hb, hp⟩ := h
  have h₁ := hc.onward ⟨hs, hscope⟩
  have h₂ := h₁.trans (hb.onward ⟨h₁.grounded, h₁.lt hscope⟩)
  exact h₂.trans (hp.onward ⟨h₂.grounded, h₂.lt hscope⟩)

lemma Turns.onward (h : Turns init condition post body scope s t) (hs : s.heap.Grounded)
    (hscope : scope < s.heap.size) : s.Onward t := by
  obtain ⟨hi, hr⟩ := h
  have hinit := hi.onward ⟨hs, hscope⟩
  induction hr with
  | refl => exact hinit
  | tail _ hround ih => exact ih.trans (hround.onward ih.grounded (ih.lt hscope))

end Loops

variable {x y : Site}

lemma Enters.onward (hxy : x.Enters y) (hx : x.Grounded) :
    x.state.Onward y.state ∧ y.scope < y.state.heap.size := by
  obtain ⟨hs, hc⟩ := hx
  -- One case a frame: what is evaluated before the part leads onward.
  cases hxy with
  | operand | left | callee | indexed | assigned | condition | expr | result | declared =>
    exact ⟨.refl hs, hc⟩
  | right h | position h | consequence h | alternative h | statement h =>
    have h₁ := h.onward ⟨hs, hc⟩
    exact ⟨h₁, h₁.lt hc⟩
  | argument he hes =>
    have h₁ := he.onward ⟨hs, hc⟩
    have h₂ := h₁.trans (hes.grounded h₁.grounded (h₁.lt hc)).1
    exact ⟨h₂, h₂.lt hc⟩
  | element hes =>
    have h₁ := (hes.grounded hs hc).1
    exact ⟨h₁, h₁.lt hc⟩
  | key hpairs =>
    have h₁ := hpairs.onward hs hc
    exact ⟨h₁, h₁.lt hc⟩
  | entry hpairs hk =>
    have h₁ := hpairs.onward hs hc
    have h₂ := h₁.trans (hk.onward ⟨h₁.grounded, h₁.lt hc⟩)
    exact ⟨h₂, h₂.lt hc⟩
  | block | init => exact ⟨onward_enclosed hs hc, lt_enclosed _ _⟩
  | turn ht =>
    have h₁ := onward_enclosed hs hc
    have h₂ := ht.onward h₁.grounded (lt_enclosed _ _)
    exact ⟨h₁.trans h₂, h₂.lt (lt_enclosed _ _)⟩
  | round ht he =>
    have h₁ := onward_enclosed hs hc
    have h₂ := ht.onward h₁.grounded (lt_enclosed _ _)
    have h₃ := h₂.trans (he.onward ⟨h₂.grounded, h₂.lt (lt_enclosed _ _)⟩)
    exact ⟨h₁.trans h₃, h₃.lt (lt_enclosed _ _)⟩
  | post ht he _ hb =>
    have h₁ := onward_enclosed hs hc
    have h₂ := ht.onward h₁.grounded (lt_enclosed _ _)
    have h₃ := h₂.trans (he.onward ⟨h₂.grounded, h₂.lt (lt_enclosed _ _)⟩)
    have h₄ := h₃.trans (hb.onward ⟨h₃.grounded, h₃.lt (lt_enclosed _ _)⟩)
    exact ⟨h₁.trans h₄, h₄.lt (lt_enclosed _ _)⟩

lemma Calls.onward (hxy : x.Calls y) (hx : x.Grounded) :
    x.state.Onward y.state ∧ y.scope < y.state.heap.size := by
  obtain ⟨hs, hc⟩ := hx
  obtain @⟨_, _, _, _, ps, _, captured, _, _, u, _, he, hes, -, hdecl⟩ := hxy
  have h₁ := he.onward ⟨hs, hc⟩
  obtain ⟨h₂, hvs⟩ := hes.grounded h₁.grounded (h₁.lt hc)
  have hcaptured : captured < u.heap.size := by
    cases he.grounded ⟨hs, hc⟩ with
    | normal _ _ hf => exact h₂.lt (Value.settled_function.mp hf)
  have h₃ := onward_enclosed h₂.grounded hcaptured
  have hnew := lt_enclosed u captured
  have hdeclared := declareAll_grounded h₃.grounded hnew ps fun v hv => (hvs v hv).mono hnew.le
  obtain ⟨he', hg'⟩ := hdeclared.after (congrArg Outcome.after hdecl)
  exact ⟨h₁.trans (h₂.trans (h₃.trans ⟨he', hg'⟩)), hnew.trans_le he'.size_le⟩

lemma Visits.onward (hxy : x.Visits y) (hx : x.Grounded) : x.state.Onward y.state ∧ y.Grounded := by
  induction hxy with
  | refl => exact ⟨.refl hx.heap, hx⟩
  | tail _ hyz ih =>
    obtain ⟨hon, hy⟩ := ih
    obtain ⟨hon', hz⟩ := hyz.elim (·.onward hy) (·.onward hy)
    exact ⟨hon.trans hon', hon'.grounded, hz⟩

end Site

end Nut
