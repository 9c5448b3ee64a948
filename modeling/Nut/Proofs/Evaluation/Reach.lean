import Nut.Proofs.Evaluation.Likeness
import Nut.Evaluation.Eval

/-! Which scopes there is a way to, through outer scopes and through the functions that are
bound. -/

namespace Nut

namespace Value

inductive Holds : Value → Nat → Prop
  | function (ps body c) : Holds (.function ps body c) c
  | element {vs v c} : v ∈ vs → Holds v c → Holds (.array vs) c
  | entry {es key v c} : Entries.get? key es = some v → Holds v c → Holds (.hash es) c

def HoldsIn (S : Nat → Prop) (v : Value) : Prop := ∀ c, v.Holds c → S c

variable {S T : Nat → Prop} {v w : Value}

lemma HoldsIn.mono (h : v.HoldsIn S) (hST : ∀ c, S c → T c) : v.HoldsIn T :=
  fun c hc => hST c (h c hc)

lemma holdsIn_of_isAtom (h : v.kind.isAtom) : v.HoldsIn S := by
  intro c hc
  cases hc <;> cases h

lemma holdsIn_array {vs : List Value} : (Value.array vs).HoldsIn S ↔ ∀ v ∈ vs, v.HoldsIn S := by
  constructor
  · exact fun h v hv c hc => h c (.element hv hc)
  · rintro h c (_ | ⟨hv, hc⟩)
    exact h _ hv c hc

lemma holdsIn_hash {es : Entries Key Value} :
    (Value.hash es).HoldsIn S ↔ ∀ key v, Entries.get? key es = some v → v.HoldsIn S := by
  constructor
  · exact fun h key v hv c hc => h c (.entry hv hc)
  · rintro h c (_ | _ | ⟨hv, hc⟩)
    exact h _ _ hv c hc

lemma holdsIn_function {ps : List String} {body : List Stmt} {c : Nat} :
    (Value.function ps body c).HoldsIn S ↔ S c := by
  constructor
  · exact fun h => h c (.function ps body c)
  · rintro h _ (_ | _)
    exact h

end Value

def Restrict (V : Value → Value → Prop) (S : Nat → Prop) (v w : Value) : Prop :=
  v.HoldsIn S ∧ V v w

section Options

variable {V : Value → Value → Prop} {S : Nat → Prop} {a b : Option Value}

lemma rel_restrict (h : Option.Rel V a b) (ha : ∀ v, a = some v → v.HoldsIn S) :
    Option.Rel (Restrict V S) a b := by
  cases h with
  | some hv => exact .some ⟨ha _ rfl, hv⟩
  | none => exact .none

lemma rel_isSome (h : Option.Rel V a b) : a.isSome = b.isSome := by
  cases h <;> rfl

end Options

lemma Likeness.restrict {V : Value → Value → Prop} (L : Likeness V) (S : Nat → Prop) :
    Likeness (Restrict V S) where
  atom hv := ⟨Value.holdsIn_of_isAtom hv, L.atom hv⟩
  eq_of_atom hv h := L.eq_of_atom hv h.2
  kind_eq h := L.kind_eq h.2
  array_iff {vs ws} := by
    show (Value.array vs).HoldsIn S ∧ V (.array vs) (.array ws) ↔ _
    rw [L.array_iff, Value.holdsIn_array]
    exact (List.forall₂_and_left vs ws).symm
  hash_nil := ⟨Value.holdsIn_hash.mpr nofun, L.hash_nil⟩
  hash_put {es _ v _} key h hv := by
    refine ⟨Value.holdsIn_hash.mpr fun k u hu => ?_, L.hash_put key h.2 hv.2⟩
    rw [Entries.get?_put] at hu
    split at hu
    · cases hu
      exact hv.1
    · exact Value.holdsIn_hash.mp h.1 k u hu
  hash_get key h := rel_restrict (L.hash_get key h.2) (Value.holdsIn_hash.mp h.1 key)

namespace Heap

variable {V : Value → Value → Prop} {S T roots : Nat → Prop} {h g : Heap} {s t d : Nat}
variable {x : String} {v w : Value}

inductive Links (h : Heap) (s : Nat) : Nat → Prop
  | outer {t : Nat} : h.outer? s = some t → Links h s t
  | bound {x : String} {v : Value} {t : Nat} : h.local? s x = some v → v.Holds t → Links h s t

inductive Reaches (h : Heap) (roots : Nat → Prop) : Nat → Prop
  | root {t : Nat} : roots t → Reaches h roots t
  | link {s t : Nat} : Reaches h roots s → h.Links s t → Reaches h roots t

lemma Links.lt (hl : h.Links s t) : s < h.size := by
  by_contra hs
  cases hl with
  | outer ho => simp [h.outer?_of_size_le s (not_lt.mp hs)] at ho
  | @bound x _ _ hx _ => simp [h.local?_of_size_le s x (not_lt.mp hs)] at hx

lemma Links.of_extend {outer : Option Nat} (hl : (h.extend outer).Links s t) :
    h.Links s t ∨ s = h.size ∧ outer = some t := by
  cases hl with
  | outer ho =>
    rw [outer?_extend] at ho
    split at ho
    · next hs => exact .inr ⟨hs, ho⟩
    · exact .inl (.outer ho)
  | bound hx hv =>
    rw [local?_extend] at hx
    exact .inl (.bound hx hv)

lemma Links.of_declare (hl : (h.declare d x v).Links s t) :
    h.Links s t ∨ s = d ∧ v.Holds t := by
  cases hl with
  | outer ho =>
    rw [outer?_declare] at ho
    exact .inl (.outer ho)
  | bound hy hu =>
    rw [local?_declare] at hy
    split at hy
    · next hs =>
      cases hy
      exact .inr ⟨hs.1, hu⟩
    · exact .inl (.bound hy hu)

lemma Reaches.mem_of_closed (hS : ∀ s t, S s → h.Links s t → S t) (hr : ∀ t, roots t → S t)
    (ht : h.Reaches roots t) : S t := by
  induction ht with
  | root ht => exact hr _ ht
  | link _ hl ih => exact hS _ _ ih hl

/-- Nothing leads out of `S`, and there the two heaps are related. -/
structure Like (V : Value → Value → Prop) (S : Nat → Prop) (h g : Heap) : Prop where
  size_eq : h.size = g.size
  closed {s t : Nat} : S s → h.Links s t → S t
  outer_eq {s : Nat} : S s → h.outer? s = g.outer? s
  locals {s : Nat} (x : String) : S s → Option.Rel V (h.local? s x) (g.local? s x)

namespace Like

lemma locals_restrict (H : Like V S h g) (hs : S s) (x : String) :
    Option.Rel (Restrict V S) (h.local? s x) (g.local? s x) :=
  rel_restrict (H.locals x hs) fun _ hv _ hc => H.closed hs (.bound hv hc)

lemma nearest? (H : Like V S h g) (hs : S s) (x : String) :
    h.nearest? s x = g.nearest? s x ∧ ∀ d, h.nearest? s x = some d → S d := by
  -- The search goes on in a scope that was made before `s`.
  induction s using Nat.strongRecOn with
  | ind s ih =>
    rw [Heap.nearest?, Heap.nearest?.eq_def g, ← rel_isSome (H.locals x hs), ← H.outer_eq hs]
    split
    · refine ⟨rfl, fun d hd => ?_⟩
      cases hd
      exact hs
    · cases ho : h.outer? s with
      | none => exact ⟨rfl, fun _ hd => absurd hd (by simp)⟩
      | some o =>
        dsimp only
        split
        · next hlt => exact ih o hlt (H.closed hs (.outer ho))
        · exact ⟨rfl, fun _ hd => absurd hd (by simp)⟩

lemma get? (H : Like V S h g) (hs : S s) (x : String) :
    Option.Rel (Restrict V S) (h.get? s x) (g.get? s x) := by
  obtain ⟨heq, hmem⟩ := H.nearest? hs x
  rw [Heap.get?, Heap.get?, ← heq]
  cases hd : h.nearest? s x with
  | none => exact .none
  | some d => exact H.locals_restrict (hmem d hd) x

lemma extend (H : Like V S h g) (hs : S s) (hT : ∀ t, T t ↔ S t ∨ t = h.size) :
    Like V T (h.extend (some s)) (g.extend (some s)) where
  size_eq := by simp [H.size_eq]
  closed {a b} ha hl := by
    rcases hl.of_extend with hl | ⟨-, hb⟩
    · rcases (hT a).mp ha with ha | rfl
      · exact (hT b).mpr (.inl (H.closed ha hl))
      · exact absurd hl.lt (lt_irrefl _)
    · cases hb
      exact (hT s).mpr (.inl hs)
  outer_eq {a} ha := by
    rw [outer?_extend, outer?_extend, H.size_eq]
    split
    · rfl
    · next hne => exact H.outer_eq (((hT a).mp ha).resolve_right (by rwa [H.size_eq]))
  locals {a} y ha := by
    rw [local?_extend, local?_extend]
    rcases (hT a).mp ha with ha | rfl
    · exact H.locals y ha
    · rw [local?_of_size_le _ _ _ le_rfl, local?_of_size_le _ _ _ H.size_eq.ge]
      exact .none

lemma declare (H : Like V S h g) (d : Nat) (x : String) (hvw : Restrict V S v w) :
    Like V S (h.declare d x v) (g.declare d x w) where
  size_eq := by simp [H.size_eq]
  closed {a b} ha hl := by
    rcases hl.of_declare with hl | ⟨-, hb⟩
    · exact H.closed ha hl
    · exact hvw.1 b hb
  outer_eq ha := by
    rw [outer?_declare, outer?_declare]
    exact H.outer_eq ha
  locals {a} y ha := by
    rw [local?_declare, local?_declare, H.size_eq]
    split
    · exact .some hvw.2
    · exact H.locals y ha

end Like

end Heap

end Nut
