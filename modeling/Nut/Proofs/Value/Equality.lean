import Nut.Proofs.Evaluation.Alike
import Nut.Session.Answer

/-! Equality of values that hold no float is an equivalence. -/

namespace Nut

mutual

def Expr.floatFree : Expr → Bool
  | .float _ => false
  | .ident _ | .int _ | .string _ | .bool _ => true
  | .array es => Expr.allFloatFree es
  | .hash pairs => Expr.pairsFloatFree pairs
  | .prefixOp _ e | .assign _ e => e.floatFree
  | .infixOp l _ r => l.floatFree && r.floatFree
  | .cond e yes none => e.floatFree && Stmt.allFloatFree yes
  | .cond e yes (some no) => e.floatFree && Stmt.allFloatFree yes && Stmt.allFloatFree no
  | .function _ body => Stmt.allFloatFree body
  | .call e es => e.floatFree && Expr.allFloatFree es
  | .index l i => l.floatFree && i.floatFree

def Expr.allFloatFree : List Expr → Bool
  | [] => true
  | e :: es => e.floatFree && Expr.allFloatFree es

def Expr.pairsFloatFree : List (Expr × Expr) → Bool
  | [] => true
  | (key, value) :: pairs => key.floatFree && value.floatFree && Expr.pairsFloatFree pairs

def Stmt.floatFree : Stmt → Bool
  | .declare _ e | .result e | .expr e => e.floatFree
  | .block body => Stmt.allFloatFree body
  | .loop init e post body =>
    init.floatFree && e.floatFree && post.floatFree && Stmt.allFloatFree body

def Stmt.allFloatFree : List Stmt → Bool
  | [] => true
  | s :: ss => s.floatFree && Stmt.allFloatFree ss

end

mutual

lemma Expr.same_iff (a b : Expr) (h : a.floatFree) : a.same b ↔ a = b := by
  cases a with
  | float x => simp [Expr.floatFree] at h
  | ident | int | string | bool => cases b <;> simp [Expr.same]
  | array es =>
    cases b with
    | array fs => simp [Expr.same, Expr.sameAll_iff es fs h]
    | _ => simp [Expr.same]
  | hash ps =>
    cases b with
    | hash qs => simp [Expr.same, Expr.samePairs_iff ps qs h]
    | _ => simp [Expr.same]
  | prefixOp op e =>
    cases b with
    | prefixOp op' f => simp [Expr.same, Expr.same_iff e f h]
    | _ => simp [Expr.same]
  | assign x e =>
    cases b with
    | assign y f => simp [Expr.same, Expr.same_iff e f h]
    | _ => simp [Expr.same]
  | infixOp l op r =>
    obtain ⟨hl, hr⟩ := Bool.and_eq_true_iff.mp h
    cases b with
    | infixOp l' op' r' =>
      simp [Expr.same, Expr.same_iff l l' hl, Expr.same_iff r r' hr]
      tauto
    | _ => simp [Expr.same]
  | cond e yes no =>
    cases no with
    | none =>
      obtain ⟨he, hyes⟩ := Bool.and_eq_true_iff.mp h
      cases b with
      | cond f yes' no' =>
        cases no' <;> simp [Expr.same, Expr.same_iff e f he, Stmt.sameAll_iff yes yes' hyes]
      | _ => simp [Expr.same]
    | some no =>
      simp only [Expr.floatFree, Bool.and_eq_true] at h
      obtain ⟨⟨he, hyes⟩, hno⟩ := h
      cases b with
      | cond f yes' no' =>
        cases no' with
        | none => simp [Expr.same]
        | some no' =>
          simp [Expr.same, Expr.same_iff e f he, Stmt.sameAll_iff yes yes' hyes,
            Stmt.sameAll_iff no no' hno, and_assoc]
      | _ => simp [Expr.same]
  | function ps body =>
    cases b with
    | function qs body' => simp [Expr.same, Stmt.sameAll_iff body body' h]
    | _ => simp [Expr.same]
  | call e es =>
    obtain ⟨he, hes⟩ := Bool.and_eq_true_iff.mp h
    cases b with
    | call f fs => simp [Expr.same, Expr.same_iff e f he, Expr.sameAll_iff es fs hes]
    | _ => simp [Expr.same]
  | index l i =>
    obtain ⟨hl, hi⟩ := Bool.and_eq_true_iff.mp h
    cases b with
    | index l' i' => simp [Expr.same, Expr.same_iff l l' hl, Expr.same_iff i i' hi]
    | _ => simp [Expr.same]
termination_by structural a

lemma Expr.sameAll_iff (es fs : List Expr) (h : Expr.allFloatFree es) :
    Expr.sameAll es fs ↔ es = fs := by
  cases es with
  | nil => cases fs <;> simp [Expr.sameAll]
  | cons e es =>
    obtain ⟨he, hes⟩ := Bool.and_eq_true_iff.mp h
    cases fs with
    | nil => simp [Expr.sameAll]
    | cons f fs => simp [Expr.sameAll, Expr.same_iff e f he, Expr.sameAll_iff es fs hes]
termination_by structural es

lemma Expr.samePairs_iff (ps qs : List (Expr × Expr)) (h : Expr.pairsFloatFree ps) :
    Expr.samePairs ps qs ↔ ps = qs := by
  cases ps with
  | nil => cases qs <;> simp [Expr.samePairs]
  | cons p ps =>
    obtain ⟨key, value⟩ := p
    simp only [Expr.pairsFloatFree, Bool.and_eq_true] at h
    obtain ⟨⟨hkey, hvalue⟩, hps⟩ := h
    cases qs with
    | nil => simp [Expr.samePairs]
    | cons q qs =>
      obtain ⟨key', value'⟩ := q
      simp [Expr.samePairs, Expr.same_iff key key' hkey, Expr.same_iff value value' hvalue,
        Expr.samePairs_iff ps qs hps]
termination_by structural ps

lemma Stmt.same_iff (a b : Stmt) (h : a.floatFree) : a.same b ↔ a = b := by
  cases a with
  | declare x e =>
    cases b with
    | declare y f => simp [Stmt.same, Expr.same_iff e f h]
    | _ => simp [Stmt.same]
  | result e =>
    cases b with
    | result f => simp [Stmt.same, Expr.same_iff e f h]
    | _ => simp [Stmt.same]
  | expr e =>
    cases b with
    | expr f => simp [Stmt.same, Expr.same_iff e f h]
    | _ => simp [Stmt.same]
  | block body =>
    cases b with
    | block body' => simp [Stmt.same, Stmt.sameAll_iff body body' h]
    | _ => simp [Stmt.same]
  | loop init e post body =>
    simp only [Stmt.floatFree, Bool.and_eq_true] at h
    obtain ⟨⟨⟨hinit, he⟩, hpost⟩, hbody⟩ := h
    cases b with
    | loop init' e' post' body' =>
      simp [Stmt.same, Stmt.same_iff init init' hinit, Expr.same_iff e e' he,
        Stmt.same_iff post post' hpost, Stmt.sameAll_iff body body' hbody, and_assoc]
    | _ => simp [Stmt.same]
termination_by structural a

lemma Stmt.sameAll_iff (as bs : List Stmt) (h : Stmt.allFloatFree as) :
    Stmt.sameAll as bs ↔ as = bs := by
  cases as with
  | nil => cases bs <;> simp [Stmt.sameAll]
  | cons a as =>
    obtain ⟨ha, has⟩ := Bool.and_eq_true_iff.mp h
    cases bs with
    | nil => simp [Stmt.sameAll]
    | cons b bs => simp [Stmt.sameAll, Stmt.same_iff a b ha, Stmt.sameAll_iff as bs has]
termination_by structural as

end

namespace Entries

variable {κ α : Type} {es fs : Entries κ α} {k : κ} {a : α}

lemma length_eq_of_keys (hes : (keys es).Nodup) (hfs : (keys fs).Nodup)
    (h : ∀ k, k ∈ keys es ↔ k ∈ keys fs) : es.length = fs.length := by
  have hperm : (keys es).Perm (keys fs) := (List.perm_ext_iff_of_nodup hes hfs).mpr h
  simpa [keys] using hperm.length_eq

lemma keys_of_length (hes : (keys es).Nodup) (hlen : es.length = fs.length)
    (h : ∀ k ∈ keys es, k ∈ keys fs) (k : κ) : k ∈ keys es ↔ k ∈ keys fs := by
  have hle : (keys fs).length ≤ (keys es).length := by simp [keys, hlen]
  exact ((List.subperm_of_subset hes h).perm_of_length_le hle).mem_iff

variable [DecidableEq κ]

lemma get?_eq_some_iff (h : (keys es).Nodup) : get? k es = some a ↔ (k, a) ∈ es := by
  refine ⟨mem_of_get?, fun hm => ?_⟩
  induction es with
  | nil => cases hm
  | cons e es ih =>
    obtain ⟨hnot, hnodup⟩ := List.nodup_cons.mp h
    rw [get?]
    rcases List.mem_cons.mp hm with rfl | hm
    · exact if_pos rfl
    · have hk : k ∈ keys es := List.mem_map_of_mem (f := Prod.fst) hm
      rw [if_neg (fun heq : k = e.1 => hnot (heq ▸ hk)), ih hnodup hm]

lemma get?_perm (hes : (keys es).Nodup) (h : es.Perm fs) (k : κ) : get? k es = get? k fs := by
  have hfs : (keys fs).Nodup := (h.map Prod.fst).nodup_iff.mp hes
  ext a
  rw [get?_eq_some_iff hes, get?_eq_some_iff hfs, h.mem_iff]

end Entries

namespace Value

/-- Hashes have different keys, and there is no float, also not in the bodies of functions. -/
inductive Plain : Value → Prop
  | int (n) : Plain (.int n)
  | string (s) : Plain (.string s)
  | bool (b) : Plain (.bool b)
  | null : Plain .null
  | builtin (b) : Plain (.builtin b)
  | array {vs} : (∀ v ∈ vs, Plain v) → Plain (.array vs)
  | hash {es : List (Key × Value)} : (Entries.keys es).Nodup → (∀ e ∈ es, Plain e.2) → Plain (.hash es)
  | function {body} (ps scope) : Stmt.allFloatFree body → Plain (.function ps body scope)

variable {u v w : Value} {vs ws : List Value} {es fs : Entries Key Value}

lemma sameAll_iff : sameAll vs ws ↔ List.Forall₂ (fun v w => v.same w) vs ws := by
  induction vs generalizing ws with
  | nil => cases ws <;> simp [sameAll]
  | cons v vs ih => cases ws <;> simp [sameAll, ih]

lemma same_array_iff : (array vs).same (array ws) ↔ vs.length = ws.length ∧
    ∀ (i : Nat) v w, vs[i]? = some v → ws[i]? = some w → v.same w := by
  rw [same, sameAll_iff]
  constructor
  · intro h
    refine ⟨h.length_eq, fun i v w hv hw => ?_⟩
    have hi := rel_getElem? h i
    rw [hv, hw] at hi
    cases hi with
    | some hvw => exact hvw
  · rintro ⟨hlen, h⟩
    exact forall₂_of_getElem? hlen h

lemma within_iff : within es fs ↔ ∀ e ∈ es, ∃ w, Entries.get? e.1 fs = some w ∧ e.2.same w := by
  induction es with
  | nil => simp [within]
  | cons e es ih =>
    obtain ⟨k, v⟩ := e
    rw [within, Bool.and_eq_true, ih, List.forall_mem_cons]
    refine and_congr_left fun _ => ?_
    cases Entries.get? k fs <;> simp

lemma same_hash_iff (hes : (Entries.keys es).Nodup) (hfs : (Entries.keys fs).Nodup) :
    (hash es).same (hash fs) ↔ (∀ k, k ∈ Entries.keys es ↔ k ∈ Entries.keys fs) ∧
      ∀ k v w, Entries.get? k es = some v → Entries.get? k fs = some w → v.same w := by
  rw [same, Bool.and_eq_true, beq_iff_eq, within_iff]
  constructor
  · rintro ⟨hlen, h⟩
    refine ⟨Entries.keys_of_length hes hlen fun k hk => ?_, fun k v w hv hw => ?_⟩
    · obtain ⟨e, he, rfl⟩ := List.mem_map.mp hk
      obtain ⟨w, hw, -⟩ := h e he
      exact (Entries.get?_isSome_iff e.1 fs).mp (hw ▸ rfl)
    · obtain ⟨w', hw', hvw⟩ := h _ (Entries.mem_of_get? hv)
      cases hw.symm.trans hw'
      exact hvw
  · rintro ⟨hkeys, h⟩
    refine ⟨Entries.length_eq_of_keys hes hfs hkeys, fun e he => ?_⟩
    have hk : e.1 ∈ Entries.keys fs := (hkeys e.1).mp (List.mem_map_of_mem he)
    obtain ⟨w, hw⟩ := Option.isSome_iff_exists.mp ((Entries.get?_isSome_iff e.1 fs).mpr hk)
    exact ⟨w, hw, h e.1 e.2 w ((Entries.get?_eq_some_iff hes).mpr he) hw⟩

lemma plain_array : (array vs).Plain ↔ ∀ v ∈ vs, v.Plain :=
  ⟨fun h => by cases h; assumption, .array⟩

lemma plain_hash : (hash es).Plain ↔ (Entries.keys es).Nodup ∧ ∀ e ∈ es, e.2.Plain :=
  ⟨fun h => by cases h; exact ⟨‹_›, ‹_›⟩, fun h => .hash h.1 h.2⟩

lemma eq_of_same_atom (ha : v.kind.isAtom) (hf : v.kind != .float) (h : v.same w) : v = w := by
  cases v with
  | array | hash | function => cases ha
  | float => cases hf
  | int | string | bool | null | builtin => cases w <;> simp_all [same]

lemma Plain.same_self (h : v.Plain) : v.same v := by
  induction h with
  | int | string | bool | null | builtin => simp [same]
  | array _ ih =>
    refine same_array_iff.mpr ⟨rfl, fun i v w hv hw => ?_⟩
    cases hv.symm.trans hw
    exact ih _ (List.mem_of_getElem? hv)
  | hash hes _ ih =>
    refine (same_hash_iff hes hes).mpr ⟨fun k => .rfl, fun k v w hv hw => ?_⟩
    cases hv.symm.trans hw
    exact ih _ (Entries.mem_of_get? hv)
  | function ps scope hbody => simp [same, (Stmt.sameAll_iff _ _ hbody).mpr rfl]

lemma Plain.same_symm (hv : v.Plain) (hw : w.Plain) (h : v.same w) : w.same v := by
  induction hv generalizing w with
  | int | string | bool | null | builtin =>
    obtain rfl := eq_of_same_atom rfl rfl h
    exact h
  | @array vs _ ih =>
    cases w with
    | array ws =>
      have hplain := plain_array.mp hw
      obtain ⟨hlen, h⟩ := same_array_iff.mp h
      refine same_array_iff.mpr ⟨hlen.symm, fun i w v hw hv => ?_⟩
      exact ih v (List.mem_of_getElem? hv) (hplain w (List.mem_of_getElem? hw)) (h i v w hv hw)
    | _ => cases h
  | @hash es hes _ ih =>
    cases w with
    | hash fs =>
      obtain ⟨hfs, hplain⟩ := plain_hash.mp hw
      obtain ⟨hkeys, h⟩ := (same_hash_iff hes hfs).mp h
      refine (same_hash_iff hfs hes).mpr ⟨fun k => (hkeys k).symm, fun k w v hw hv => ?_⟩
      exact ih _ (Entries.mem_of_get? hv) (hplain _ (Entries.mem_of_get? hw)) (h k v w hv hw)
    | _ => cases h
  | function ps scope hbody =>
    cases w with
    | function qs body' scope' =>
      simp only [same, Bool.and_eq_true, beq_iff_eq, Stmt.sameAll_iff _ _ hbody] at h
      obtain ⟨rfl, rfl⟩ := h
      simp [same, (Stmt.sameAll_iff _ _ hbody).mpr rfl]
    | _ => cases h

lemma Plain.same_trans (hu : u.Plain) (hv : v.Plain) (hw : w.Plain) (huv : u.same v)
    (hvw : v.same w) : u.same w := by
  induction hu generalizing v w with
  | int | string | bool | null | builtin =>
    obtain rfl := eq_of_same_atom rfl rfl huv
    exact hvw
  | @array us _ ih =>
    match v, w, huv, hvw with
    | .array vs, .array ws, huv, hvw =>
      have hvs := plain_array.mp hv
      have hws := plain_array.mp hw
      obtain ⟨hlen, huv⟩ := same_array_iff.mp huv
      obtain ⟨hlen', hvw⟩ := same_array_iff.mp hvw
      refine same_array_iff.mpr ⟨hlen.trans hlen', fun i u w hu hw => ?_⟩
      have hi : i < vs.length := hlen ▸ (List.getElem?_eq_some_iff.mp hu).1
      have hv := List.getElem?_eq_getElem hi
      exact ih u (List.mem_of_getElem? hu) (hvs _ (List.mem_of_getElem? hv))
        (hws w (List.mem_of_getElem? hw)) (huv i u _ hu hv) (hvw i _ w hv hw)
  | @hash es hes _ ih =>
    match v, w, huv, hvw with
    | .hash fs, .hash gs, huv, hvw =>
      obtain ⟨hfs, hplain⟩ := plain_hash.mp hv
      obtain ⟨hgs, hplain'⟩ := plain_hash.mp hw
      obtain ⟨hkeys, huv⟩ := (same_hash_iff hes hfs).mp huv
      obtain ⟨hkeys', hvw⟩ := (same_hash_iff hfs hgs).mp hvw
      refine (same_hash_iff hes hgs).mpr ⟨fun k => (hkeys k).trans (hkeys' k), fun k u w hu hw => ?_⟩
      have hk : k ∈ Entries.keys fs := (hkeys k).mp ((Entries.get?_isSome_iff k es).mp (hu ▸ rfl))
      obtain ⟨v, hv⟩ := Option.isSome_iff_exists.mp ((Entries.get?_isSome_iff k fs).mpr hk)
      exact ih _ (Entries.mem_of_get? hu) (hplain _ (Entries.mem_of_get? hv))
        (hplain' _ (Entries.mem_of_get? hw)) (huv k u v hu hv) (hvw k v w hv hw)
  | function ps scope hbody =>
    match v, w, huv, hvw with
    | .function qs body' scope', .function rs body'' scope'', huv, hvw =>
      simp only [same, Bool.and_eq_true, beq_iff_eq, Stmt.sameAll_iff _ _ hbody] at huv
      obtain ⟨rfl, rfl⟩ := huv
      exact hvw

lemma kind_eq_of_same (h : v.same w) : v.kind = w.kind := by
  cases v <;> cases w <;> first | rfl | cases h

lemma truthy_eq_of_same (h : v.same w) : v.truthy = w.truthy := by
  cases v <;> cases w <;> first | rfl | cases h | skip
  simp_all [same]

lemma key?_eq_of_same (h : v.same w) : v.key? = w.key? := by
  cases v <;> cases w <;> simp_all [same, key?]

lemma same_congr (hx : u.kind = .integer ∨ u.kind = .string) (h : v.same w) :
    v.same u = w.same u := by
  by_cases hk : v.kind = u.kind
  · have ha : v.kind.isAtom ∧ v.kind != .float := by
      obtain hu | hu := hx <;> rw [hk, hu] <;> decide
    obtain rfl := eq_of_same_atom ha.1 ha.2 h
    rfl
  · have hk' : w.kind ≠ u.kind := kind_eq_of_same h ▸ hk
    rw [Bool.eq_false_iff.mpr (hk ∘ kind_eq_of_same), Bool.eq_false_iff.mpr (hk' ∘ kind_eq_of_same)]

end Value

def Answer.Plain : Answer → Prop
  | .value v => v.Plain
  | .error _ => True

lemma Answer.same_equivalence : Equivalence fun a b : {a : Answer // a.Plain} => a.1.same b.1 where
  refl := by
    rintro ⟨v | m, h⟩
    · exact Value.Plain.same_self h
    · exact beq_self_eq_true m
  symm := by
    rintro ⟨v | m, hv⟩ ⟨w | n, hw⟩ h
    · exact Value.Plain.same_symm hv hw h
    · cases h
    · cases h
    · exact (beq_iff_eq.mpr (beq_iff_eq.mp h).symm : (n == m) = true)
  trans := by
    rintro ⟨u | l, hu⟩ ⟨v | m, hv⟩ ⟨w | n, hw⟩ huv hvw
    · exact Value.Plain.same_trans hu hv hw huv hvw
    · cases hvw
    · cases huv
    · cases huv
    · cases huv
    · cases huv
    · cases hvw
    · exact (beq_iff_eq.mpr ((beq_iff_eq.mp huv).trans (beq_iff_eq.mp hvw)) : (l == n) = true)

section Includes

open Builtin

variable {vs : List Value} {v w x : Value} {i : Nat}

lemma any_set {p : Value → Bool} (hi : vs[i]? = some v) (hp : p v = p w) :
    (vs.set i w).any p = vs.any p := by
  induction vs generalizing i with
  | nil => rfl
  | cons u vs ih =>
    cases i with
    | zero =>
      cases hi
      rw [List.set_cons_zero, List.any_cons, List.any_cons, hp]
    | succ i => rw [List.set_cons_succ, List.any_cons, List.any_cons, ih hi]

lemma call_includes_array (hx : x.kind = .integer ∨ x.kind = .string) (vs : List Value) (s : State) :
    includes.call [.array vs, x] s = .normal (.bool (vs.any fun v => v.same x)) s := by
  cases x with
  | int | string => rfl
  | _ => exact absurd hx (by simp [Value.kind])

end Includes

structure EqualityLaws : Prop where
  equivalence : Equivalence fun a b : {a : Answer // a.Plain} => a.1.same b.1
  hashes {es fs : Entries Key Value} : (Value.hash es).Plain → (Value.hash fs).Plain →
    ((Value.hash es).same (.hash fs) ↔ (∀ k, k ∈ Entries.keys es ↔ k ∈ Entries.keys fs) ∧
      ∀ k v w, Entries.get? k es = some v → Entries.get? k fs = some w → v.same w)
  reordered {es fs : Entries Key Value} : (Value.hash es).Plain → es.Perm fs →
    (Value.hash es).same (.hash fs)
  alike {a b : Answer} : a.same b →
    a.kind.name = b.kind.name ∧ a.truthy = b.truthy ∧ a.hashable = b.hashable
  includes {x : Value} : x.kind = .integer ∨ x.kind = .string → ∀ (vs : List Value) (s : State),
    ∃ found : Bool, Builtin.includes.call [.array vs, x] s = .normal (.bool found) s ∧
      (found ↔ ∃ (i : Nat) (v : Value), vs[i]? = some v ∧ v.same x) ∧
      ∀ (i : Nat) (v w : Value), vs[i]? = some v → v.same w →
        Builtin.includes.call [.array (vs.set i w), x] s = .normal (.bool found) s

theorem equality_lawful : EqualityLaws where
  equivalence := Answer.same_equivalence
  hashes hes hfs := Value.same_hash_iff (Value.plain_hash.mp hes).1 (Value.plain_hash.mp hfs).1
  reordered {es fs} hes hperm := by
    obtain ⟨hnodup, hplain⟩ := Value.plain_hash.mp hes
    have hkeys := hperm.map Prod.fst
    refine (Value.same_hash_iff hnodup (hkeys.nodup_iff.mp hnodup)).mpr ⟨fun k => hkeys.mem_iff, ?_⟩
    intro k v w hv hw
    rw [← Entries.get?_perm hnodup hperm, hv] at hw
    cases hw
    exact (hplain _ (Entries.mem_of_get? hv)).same_self
  alike {a b} h := by
    match a, b, h with
    | .value v, .value w, h =>
      refine ⟨congrArg Kind.name (Value.kind_eq_of_same h), Value.truthy_eq_of_same h, ?_⟩
      exact congrArg Option.isSome (Value.key?_eq_of_same h)
    | .error _, .error _, _ => exact ⟨rfl, rfl, rfl⟩
  includes {x} hx vs s := by
    refine ⟨_, call_includes_array hx vs s, ?_, fun i v w hi hvw => ?_⟩
    · rw [List.any_eq_true]
      constructor
      · rintro ⟨v, hv, hvx⟩
        obtain ⟨i, hi⟩ := List.mem_iff_getElem?.mp hv
        exact ⟨i, v, hi, hvx⟩
      · rintro ⟨i, v, hi, hvx⟩
        exact ⟨v, List.mem_of_getElem? hi, hvx⟩
    · rw [call_includes_array hx, any_set (p := fun v => v.same x) hi (Value.same_congr hx hvw)]

-- Keys of different types are apart, and the order in which they were put does not count.
example : (Value.hash [(.int 1, .null), (.string "1", .bool true)]).same
    (.hash [(.string "1", .bool true), (.int 1, .null)]) := rfl

end Nut
