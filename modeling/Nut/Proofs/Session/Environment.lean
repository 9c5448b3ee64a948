import Nut.Proofs.Evaluation.Outward
import Nut.Proofs.Session.Runs

/-! Whatever is done to environments from outside, their scopes stay in order. -/

namespace Nut

open Relation

namespace Heap

/-- Scopes are inside older ones, functions were made in scopes that are there, and a search for a
name ends, as it goes through different scopes one after the other. -/
structure InOrder (h : Heap) : Prop where
  outer_lt {c o : Nat} : h.outer? c = some o → o < c ∧ c < h.size
  made_lt {c d : Nat} {x : String} {v : Value} : h.local? c x = some v → v.Holds d → d < h.size
  searched {c : Nat} : c < h.size → ∃ way, h.Outward c way ∧ way.Nodup ∧ (∀ d ∈ way, d < h.size) ∧
    ∀ x, h.get? c x = (way.findSome? fun d => h.local? d x) ∧ ∀ v, h.assign? c x v =
      (way.find? fun d => (h.local? d x).isSome).map fun d => h.declare d x v

variable {h : Heap}

lemma lt_size_of_outer? {c o : Nat} (ho : h.outer? c = some o) : c < h.size := by
  by_contra hc
  rw [outer?_of_size_le h c (not_lt.mp hc)] at ho
  cases ho

lemma Grounded.inOrder (hh : h.Grounded) : h.InOrder where
  outer_lt ho := ⟨hh.outer_lt ho, lt_size_of_outer? ho⟩
  made_lt hv hd := hh.linked _ _ (.bound hv hd)
  searched {c} hc := by
    obtain ⟨way, hway⟩ := Outward.exists_way hh c
    refine ⟨way, hway, hway.nodup hh, fun d hd => (hway.le_of_mem hh d hd).trans_lt hc, fun x => ?_⟩
    exact ⟨hway.get?_eq hh x, hway.assign?_eq hh x⟩

end Heap

def Value.FunctionFree (v : Value) : Prop := ∀ c, ¬v.Holds c

/-- One use of an environment from outside. Where a name that is assigned is not declared, nothing
happens. -/
inductive Access : State → State → Prop
  | top (s) : Access s { s with heap := s.heap.extend none }
  | enclose {s c} : c < s.heap.size → Access s { s with heap := s.heap.extend (some c) }
  | set {s c v} (x) : c < s.heap.size → v.Sound → v.FunctionFree →
      Access s { s with heap := s.heap.declare c x v }
  | assign {s c v} (x) : c < s.heap.size → v.Sound → v.FunctionFree →
      Access s { s with heap := (s.heap.assign? c x v).getD s.heap }
  | get (s : State) (c : Nat) (x : String) : Access s s
  | run {s c} (steps source) : c < s.heap.size → Access s (run steps c source s).2

section Accesses

variable {s t : State}

lemma Value.Sound.settled {v : Value} (hv : v.Sound) (hfree : v.FunctionFree) (n : Nat) :
    v.Settled n :=
  settled_iff.mpr ⟨hv, fun c hc => absurd hc (hfree c)⟩

lemma Access.onward (h : Access s t) (hs : s.heap.Grounded) : s.Onward t := by
  cases h with
  | top => exact .extend hs nofun
  | enclose hc => exact .enclose hs hc
  | set x _ hv hfree => exact .declare hs (hv.settled hfree _) _ x
  | @assign c _ x _ hv hfree =>
    rw [Heap.assign?]
    cases s.heap.nearest? c x with
    | none => exact .refl hs
    | some d => exact .declare hs (hv.settled hfree _) d x
  | get => exact .refl hs
  | run steps source hc => exact run_onward hs hc

lemma onward_of_accesses (hst : ReflTransGen Access s t) (hs : s.heap.Grounded) : s.Onward t := by
  induction hst with
  | refl => exact .refl hs
  | tail _ htu ih => exact ih.trans (htu.onward ih.grounded)

end Accesses

theorem scopes_inOrder_and_extended {host : Host} {s : State}
    (h : ReflTransGen Access (State.fresh host) s) :
    s.heap.InOrder ∧ (∀ t, Access s t → s.Extends t) ∧
      ∀ p c x, c < s.heap.size → Site.Visits ⟨.body p, c, s⟩ x →
        (s.Extends x.state ∧ x.state.heap.InOrder) ∧
          ∀ o t, x.Ends o → o.after = some t → s.Extends t ∧ t.heap.InOrder := by
  have hs : s.heap.Grounded := (onward_of_accesses h .initial).grounded
  refine ⟨hs.inOrder, fun t ht => (ht.onward hs).extends_state, fun p c x hc hx => ?_⟩
  obtain ⟨hon, hground⟩ := hx.onward ⟨hs, hc⟩
  refine ⟨⟨hon.extends_state, hon.grounded.inOrder⟩, fun o t ho ht => ?_⟩
  obtain ⟨he, hg⟩ := (ho.grounded hground).after ht
  exact ⟨hon.extends_state.trans he, hg.inOrder⟩

def boundState : State :=
  ⟨⟨#[⟨[], none⟩, ⟨[("a", .int 3)], some 0⟩]⟩, "", .seeded 0⟩

/-- The call has changed `a`, and the addition behind it has failed. -/
def failedState : State :=
  ⟨⟨#[⟨[], none⟩, ⟨[("a", .int 4), ("f", .function [] [.expr (.assign "a" (.int 4))] 1)], some 0⟩,
    ⟨[], some 1⟩]⟩, "", .seeded 0⟩

def callAndFail : String := "f := fn() \x7b a = 4 \x7d; f() + f"

theorem scopes_inOrder_and_extended_callAndFail :
    ReflTransGen Access (State.fresh (.seeded 0)) boundState ∧ Access boundState failedState ∧
      boundState.heap.InOrder ∧ boundState.Extends failedState ∧ failedState.heap.InOrder ∧
      (run 9 1 callAndFail boundState).1 = .fault (.typeMismatch .integer .add .function) := by
  have hbound : ReflTransGen Access (State.fresh (.seeded 0)) boundState :=
    .tail (.tail .refl (.enclose (c := 0) Nat.zero_lt_one)) (.set (c := 1) "a"
      (Nat.lt_add_one 1) (Value.sound_of_isAtom rfl) (Value.holdsIn_of_isAtom rfl))
  have hrun : (run 9 1 callAndFail boundState).2 = failedState := by cbv
  have hfailed : Access boundState failedState :=
    hrun ▸ .run 9 callAndFail (Nat.lt_add_one 1)
  obtain ⟨hinOrder, hextends, -⟩ := scopes_inOrder_and_extended hbound
  refine ⟨hbound, hfailed, hinOrder, hextends _ hfailed, ?_, by cbv⟩
  exact (scopes_inOrder_and_extended (hbound.tail hfailed)).1

end Nut
