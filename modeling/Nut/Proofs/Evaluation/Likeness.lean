import Mathlib
import Nut.Evaluation.Arithmetic
import Nut.Evaluation.Builtins

/-! Relations of values that no operation can tell apart: related arguments have related results,
or fail alike. -/

namespace Nut

def Kind.isAtom : Kind → Bool
  | .array | .hash | .function => false
  | _ => true

lemma PrefixOp.isAtom_of_apply (op : PrefixOp) {v u : Value} (h : op.apply v = .ok u) :
    u.kind.isAtom := by
  cases op with
  | not =>
    cases h
    rfl
  | neg =>
    cases v with
    | int n =>
      simp only [apply] at h
      split at h <;> cases h
      rfl
    | float x =>
      cases h
      rfl
    | _ => cases h

namespace InfixOp

variable {u : Value}

lemma isAtom_of_exact {op : InfixOp} {a b : Int64} {n : Int} (h : exact a op b n = .ok u) :
    u.kind.isAtom := by
  simp only [exact] at h
  split at h <;> cases h
  rfl

lemma isAtom_of_onIntegers {op : InfixOp} {a b : Int64} (h : op.onIntegers a b = .ok u) :
    u.kind.isAtom := by
  cases op with
  | add | sub | mul => exact isAtom_of_exact h
  | div =>
    simp only [onIntegers] at h
    split at h
    · cases h
    · exact isAtom_of_exact h
  | mod =>
    simp only [onIntegers] at h
    split at h
    · cases h
    · split at h
      · exact isAtom_of_exact h
      · cases h
  | _ =>
    cases h
    try rfl

lemma isAtom_of_onFloats {op : InfixOp} {x y : Float} (h : op.onFloats x y = .ok u) :
    u.kind.isAtom := by
  cases op with
  | div | mod =>
    simp only [onFloats] at h
    split at h <;> cases h
    rfl
  | _ =>
    cases h
    try rfl

lemma isAtom_of_apply (op : InfixOp) {v w : Value} (h : op.apply v w = .ok u) :
    u.kind.isAtom := by
  simp only [apply] at h
  split at h
  · exact isAtom_of_onIntegers h
  · exact isAtom_of_onFloats h
  · exact isAtom_of_onFloats h
  · exact isAtom_of_onFloats h
  · cases op <;> cases h <;> rfl
  · cases op <;> cases h <;> rfl
  · cases op <;> cases h <;> rfl
  · split at h <;> cases h

end InfixOp

structure Likeness (V : Value → Value → Prop) : Prop where
  atom {v : Value} : v.kind.isAtom → V v v
  eq_of_atom {v w : Value} : v.kind.isAtom → V v w → v = w
  kind_eq {v w : Value} : V v w → v.kind = w.kind
  array_iff {vs ws : List Value} : V (.array vs) (.array ws) ↔ List.Forall₂ V vs ws
  hash_nil : V (.hash []) (.hash [])
  hash_put {es fs : Entries Key Value} {v w : Value} (key : Key) : V (.hash es) (.hash fs) →
    V v w → V (.hash (Entries.put key v es)) (.hash (Entries.put key w fs))
  hash_get {es fs : Entries Key Value} (key : Key) : V (.hash es) (.hash fs) →
    Option.Rel V (Entries.get? key es) (Entries.get? key fs)

inductive Agree {α β : Type} (V : α → β → Prop) : Except Fault α → Except Fault β → Prop
  | ok {v w} : V v w → Agree V (.ok v) (.ok w)
  | error (fault : Fault) : Agree V (.error fault) (.error fault)

lemma Agree.eq {α : Type} (r : Except Fault α) : Agree Eq r r := by
  cases r with
  | ok a => exact .ok rfl
  | error fault => exact .error fault

lemma rel_self (v : Option Value) : Option.Rel Eq v v := by
  cases v with
  | none => exact .none
  | some v => exact .some rfl

lemma Likeness.eq : Likeness Eq where
  atom _ := rfl
  eq_of_atom _ h := h
  kind_eq h := h ▸ rfl
  array_iff := by simp
  hash_nil := rfl
  hash_put key h hv := by
    cases h
    cases hv
    rfl
  hash_get key h := by
    cases h
    exact rel_self _

variable {V : Value → Value → Prop}

lemma rel_head? {vs ws : List Value} (h : List.Forall₂ V vs ws) : Option.Rel V vs.head? ws.head? := by
  cases h with
  | nil => exact .none
  | cons hv _ => exact .some hv

lemma rel_getElem? {vs ws : List Value} (h : List.Forall₂ V vs ws) (i : Nat) :
    Option.Rel V vs[i]? ws[i]? := by
  rw [← List.head?_drop, ← List.head?_drop]
  exact rel_head? (List.forall₂_drop i h)

lemma rel_getLast? {vs ws : List Value} (h : List.Forall₂ V vs ws) :
    Option.Rel V vs.getLast? ws.getLast? := by
  rw [← List.head?_reverse, ← List.head?_reverse]
  exact rel_head? (List.rel_reverse h)

lemma forall₂_eraseIdx {vs ws : List Value} (h : List.Forall₂ V vs ws) (i : Nat) :
    List.Forall₂ V (vs.eraseIdx i) (ws.eraseIdx i) := by
  rw [List.eraseIdx_eq_take_drop_succ, List.eraseIdx_eq_take_drop_succ]
  exact List.rel_append (List.forall₂_take i h) (List.forall₂_drop (i + 1) h)

namespace Likeness

/-- What is left of two related values when it is known how one of them is made. -/
inductive Shape (V : Value → Value → Prop) : Value → Value → Prop
  | int (n : Int64) : Shape V (.int n) (.int n)
  | float (x : Float) : Shape V (.float x) (.float x)
  | string (s : String) : Shape V (.string s) (.string s)
  | bool (b : Bool) : Shape V (.bool b) (.bool b)
  | null : Shape V .null .null
  | builtin (b : Builtin) : Shape V (.builtin b) (.builtin b)
  | array {vs ws} : List.Forall₂ V vs ws → Shape V (.array vs) (.array ws)
  | hash {es fs} : V (.hash es) (.hash fs) → Shape V (.hash es) (.hash fs)
  | function {ps qs as bs s t} : V (.function ps as s) (.function qs bs t) →
      Shape V (.function ps as s) (.function qs bs t)

variable (L : Likeness V)

include L

lemma shape {v w : Value} (h : V v w) : Shape V v w := by
  have hk := L.kind_eq h
  cases v with
  | array vs =>
    cases w with
    | array ws => exact .array (L.array_iff.mp h)
    | _ => cases hk
  | hash es =>
    cases w with
    | hash fs => exact .hash h
    | _ => cases hk
  | function ps as s =>
    cases w with
    | function qs bs t => exact .function h
    | _ => cases hk
  | _ =>
    obtain rfl := L.eq_of_atom rfl h
    constructor

lemma truthy_eq {v w : Value} (h : V v w) : v.truthy = w.truthy := by
  cases L.shape h <;> rfl

lemma key_eq {v w : Value} (h : V v w) : v.key = w.key := by
  cases L.shape h <;> rfl

lemma prefix_eq {v w : Value} (op : PrefixOp) (h : V v w) : op.apply v = op.apply w := by
  cases L.shape h <;> cases op <;> rfl

lemma infix_eq {v v' w w' : Value} (op : InfixOp) (hv : V v v') (hw : V w w') :
    op.apply v w = op.apply v' w' := by
  cases L.shape hv <;> cases L.shape hw <;> rfl

lemma getD {v w : Option Value} (h : Option.Rel V v w) : V (v.getD .null) (w.getD .null) := by
  cases h with
  | some h => exact h
  | none => exact L.atom rfl

lemma index {v v' w w' : Value} (hv : V v v') (hw : V w w') :
    Agree V (v.index w) (v'.index w') := by
  cases L.shape hv with
  | array h =>
    cases L.shape hw with
    | int n =>
      simp only [Value.index, Value.elementAt?]
      split
      · exact .ok (L.atom rfl)
      · exact .ok (L.getD (rel_getElem? h _))
    | _ => exact .error _
  | @hash es fs h =>
    rw [Value.index, Value.index, L.key_eq hw]
    cases w'.key with
    | ok k => exact .ok (L.getD (L.hash_get k h))
    | error fault => exact .error fault
  | _ => exact .error _

end Likeness

namespace Builtin

variable (L : Likeness V)

include L

lemma onArray_agree (b : Builtin) {f g : List Value → Except Fault Value} {v w : Value}
    (hf : ∀ vs ws, List.Forall₂ V vs ws → Agree V (f vs) (g ws)) (h : V v w) :
    Agree V (onArray b f v) (onArray b g w) := by
  cases L.shape h with
  | array hvs => exact hf _ _ hvs
  | _ => exact .error _

lemma onIntegers_agree (b : Builtin) {f : Int64 → Int64 → Value} {v v' w w' : Value}
    (hf : ∀ m n, V (f m n) (f m n)) (hv : V v v') (hw : V w w') :
    Agree V (onIntegers b f v w) (onIntegers b f v' w') := by
  cases L.shape hv with
  | int m =>
    cases L.shape hw with
    | int n => exact .ok (hf m n)
    | _ => exact .error _
  | _ => exact .error _

lemma onStrings_agree (b : Builtin) {f : List Char → List Char → Value} {v v' w w' : Value}
    (hf : ∀ s t, V (f s t) (f s t)) (hv : V v v') (hw : V w w') :
    Agree V (onStrings b f v w) (onStrings b f v' w') := by
  cases L.shape hv with
  | string s =>
    cases L.shape hw with
    | string t => exact .ok (hf _ _)
    | _ => exact .error _
  | _ => exact .error _

lemma length_agree {v w : Value} (h : V v w) : Agree V (length v) (length w) := by
  cases L.shape h with
  | string s => exact .ok (L.atom rfl)
  | array hvs =>
    rw [length, length, hvs.length_eq]
    exact .ok (L.atom rfl)
  | _ => exact .error _

lemma tail_like {vs ws : List Value} (h : List.Forall₂ V vs ws) : V (tail vs) (tail ws) := by
  cases h with
  | nil => exact L.atom rfl
  | cons _ h => exact L.array_iff.mpr h

lemma removeAt_agree {vs ws : List Value} {v w : Value} (h : List.Forall₂ V vs ws) (hv : V v w) :
    Agree V (removeAt vs v) (removeAt ws w) := by
  cases L.shape hv with
  | int n =>
    simp only [removeAt, h.length_eq]
    split
    · exact .ok (L.array_iff.mpr (forall₂_eraseIdx h _))
    · exact .error _
  | _ => exact .error _

lemma putInFront_like {vs ws : List Value} {v w : Value} (h : List.Forall₂ V vs ws) (hv : V v w) :
    V (putInFront vs v) (putInFront ws w) := by
  cases L.shape hv with
  | array hb => exact L.array_iff.mpr (List.rel_append hb h)
  | _ => exact L.array_iff.mpr (.cons hv h)

lemma any_same_eq {vs ws : List Value} {u : Value} (hu : u.kind.isAtom) (h : List.Forall₂ V vs ws) :
    (vs.any fun v => v.same u) = ws.any fun w => w.same u := by
  induction h with
  | nil => rfl
  | @cons v w _ _ hv _ ih =>
    have hs : v.same u = w.same u := by
      cases L.shape hv <;> first | rfl | (cases u <;> first | rfl | cases hu)
    rw [List.any_cons, List.any_cons, hs, ih]

lemma contains_agree {v v' w w' : Value} (hv : V v v') (hw : V w w') :
    Agree V (contains v w) (contains v' w') := by
  cases L.shape hv with
  | string s =>
    cases L.shape hw with
    | string t => exact .ok (L.atom rfl)
    | _ => exact .error _
  | array h =>
    cases L.shape hw with
    | int n =>
      rw [contains, contains, any_same_eq L rfl h]
      exact .ok (L.atom rfl)
    | string s =>
      rw [contains, contains, any_same_eq L rfl h]
      exact .ok (L.atom rfl)
    | _ => exact .error _
  | _ => exact .error _

lemma result_agree (b : Builtin) {vs ws : List Value} (h : List.Forall₂ V vs ws) :
    Agree V (b.result vs) (b.result ws) := by
  cases h with
  | nil => cases b <;> exact .error _
  | cons hv h =>
    cases h with
    | nil =>
      cases b with
      | len => exact length_agree L hv
      | first => exact onArray_agree L _ (fun _ _ h => .ok (L.getD (rel_head? h))) hv
      | last => exact onArray_agree L _ (fun _ _ h => .ok (L.getD (rel_getLast? h))) hv
      | rest => exact onArray_agree L _ (fun _ _ h => .ok (tail_like L h)) hv
      | pop =>
        refine onArray_agree L _ (fun vs ws h => .ok (L.array_iff.mpr ?_)) hv
        rw [List.dropLast_eq_take, List.dropLast_eq_take, h.length_eq]
        exact List.forall₂_take _ h
      | shift =>
        refine onArray_agree L _ (fun vs ws h => .ok (L.array_iff.mpr ?_)) hv
        rw [← List.drop_one, ← List.drop_one]
        exact List.forall₂_drop 1 h
      | _ => exact .error _
    | cons hw h =>
      cases h with
      | nil =>
        cases b with
        | min | max => exact onIntegers_agree L _ (fun _ _ => L.atom rfl) hv hw
        | push =>
          exact onArray_agree L _
            (fun _ _ h => .ok (L.array_iff.mpr (List.rel_append h (.cons hw .nil)))) hv
        | remove => exact onArray_agree L _ (fun _ _ h => removeAt_agree L h hw) hv
        | unshift => exact onArray_agree L _ (fun _ _ h => .ok (putInFront_like L h hw)) hv
        | includes => exact contains_agree L hv hw
        | trim => exact onStrings_agree L _ (fun _ _ => L.atom rfl) hv hw
        | split =>
          refine onStrings_agree L _ (fun s t => L.array_iff.mpr ?_) hv hw
          rw [List.forall₂_same]
          intro v hv
          obtain ⟨piece, -, rfl⟩ := List.mem_map.mp hv
          exact L.atom rfl
        | _ => exact .error _
      | cons _ h => cases b <;> simp only [result, List.length_cons, h.length_eq] <;> exact .error _

end Builtin

end Nut
