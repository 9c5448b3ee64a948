import Nut.Proofs.Evaluation.Linked
import Nut.Value.Text

/-! Values that are the same but for the order of entries in hashes. -/

namespace Nut

namespace Value

inductive Alike : Value → Value → Prop
  | atom {v} : v.kind.isAtom → Alike v v
  | array {vs ws} : vs.length = ws.length →
      (∀ (i : Nat) v w, vs[i]? = some v → ws[i]? = some w → Alike v w) → Alike (.array vs) (.array ws)
  | hash {es fs} : es.length = fs.length →
      (∀ key, (Entries.get? key es).isSome = (Entries.get? key fs).isSome) →
      (∀ key v w, Entries.get? key es = some v → Entries.get? key fs = some w → Alike v w) →
      Alike (.hash es) (.hash fs)
  | function (ps body c) : Alike (.function ps body c) (.function ps body c)

end Value

lemma rel_of_isSome {α β : Type} {R : α → β → Prop} {a : Option α} {b : Option β}
    (hsome : a.isSome = b.isSome) (h : ∀ v w, a = some v → b = some w → R v w) :
    Option.Rel R a b := by
  cases a with
  | none =>
    cases b with
    | none => exact .none
    | some w => cases hsome
  | some v =>
    cases b with
    | none => cases hsome
    | some w => exact .some (h v w rfl rfl)

lemma forall₂_of_getElem? {α β : Type} {R : α → β → Prop} {as : List α} {bs : List β}
    (hlen : as.length = bs.length) (h : ∀ (i : Nat) a b, as[i]? = some a → bs[i]? = some b → R a b) :
    List.Forall₂ R as bs := by
  refine List.forall₂_iff_get.mpr ⟨hlen, fun i ha hb => h i _ _ ?_ ?_⟩
  · exact List.getElem?_eq_getElem ha
  · exact List.getElem?_eq_getElem hb

namespace Value.Alike

variable {v w : Value} {vs ws : List Value} {es fs : Entries Key Value}

lemma array_iff : Alike (.array vs) (.array ws) ↔ List.Forall₂ Alike vs ws := by
  constructor
  · rintro (h | ⟨hlen, h⟩)
    · cases h
    · exact forall₂_of_getElem? hlen h
  · intro h
    refine .array h.length_eq fun i v w hv hw => ?_
    have hi := rel_getElem? h i
    rw [hv, hw] at hi
    cases hi with
    | some hvw => exact hvw

lemma hash_iff : Alike (.hash es) (.hash fs) ↔
    es.length = fs.length ∧ ∀ key, Option.Rel Alike (Entries.get? key es) (Entries.get? key fs) := by
  constructor
  · rintro (h | _ | ⟨hlen, hsome, h⟩)
    · cases h
    · exact ⟨hlen, fun key => rel_of_isSome (hsome key) (h key)⟩
  · rintro ⟨hlen, h⟩
    refine .hash hlen (fun key => rel_isSome (h key)) fun key v w hv hw => ?_
    have hkey := h key
    rw [hv, hw] at hkey
    cases hkey with
    | some hvw => exact hvw

lemma relation : ValueRelation Alike where
  atom := .atom
  eq_of_atom ha h := by
    cases h with
    | atom => rfl
    | _ => cases ha
  kind_eq h := by cases h <;> rfl
  array_iff := array_iff
  hash_nil := hash_iff.mpr ⟨rfl, fun _ => .none⟩
  hash_put {es fs _ _} key h hv := by
    obtain ⟨hlen, hget⟩ := hash_iff.mp h
    refine hash_iff.mpr ⟨?_, fun k => ?_⟩
    · rw [Entries.length_put, Entries.length_put, rel_isSome (hget key), hlen]
    · rw [Entries.get?_put, Entries.get?_put]
      split
      · exact .some hv
      · exact hget k
  hash_get key h := (hash_iff.mp h).2 key
  function_iff {_ _ _ _ _ _} := by
    constructor
    · rintro (h | _)
      · cases h
      · exact ⟨rfl, rfl, rfl⟩
    · rintro ⟨rfl, rfl, rfl⟩
      exact .function _ _ _

end Value.Alike

namespace Value

/-- Nothing shows an order: neither of the two does, or their texts are the same. -/
def SameText (v w : Value) : Prop :=
  v.orderFree = w.orderFree ∧ (v.orderFree → ∀ a b, v.text a = w.text b)

lemma text_of_isAtom {v : Value} (h : v.kind.isAtom) (a b : Arrangement) : v.text a = v.text b := by
  cases v with
  | array | hash | function => cases h
  | _ => rfl

lemma sameText_all {vs ws : List Value} (h : List.Forall₂ SameText vs ws) :
    allOrderFree vs = allOrderFree ws ∧
      (allOrderFree vs → List.Forall₂ (fun v w => ∀ a b, v.text a = w.text b) vs ws) := by
  induction h with
  | nil => exact ⟨rfl, fun _ => .nil⟩
  | @cons v w _ _ hv _ ih =>
    refine ⟨by rw [allOrderFree, allOrderFree, hv.1, ih.1], fun hall => ?_⟩
    obtain ⟨hfree, hall⟩ := Bool.and_eq_true_iff.mp hall
    exact .cons (hv.2 hfree) (ih.2 hall)

lemma texts_congr {vs ws : List Value} {a b : Arrangement}
    (h : List.Forall₂ (fun v w => ∀ a b, v.text a = w.text b) vs ws) :
    texts a vs = texts b ws := by
  induction h with
  | nil => rfl
  | cons hv _ ih => rw [texts, texts, hv a b, ih]

lemma sameText_hash {es fs : Entries Key Value} (hlen : es.length = fs.length)
    (h : ∀ key, Option.Rel SameText (Entries.get? key es) (Entries.get? key fs)) :
    SameText (.hash es) (.hash fs) := by
  match es, fs, hlen with
  | [], [], _ =>
    refine ⟨rfl, fun _ a b => ?_⟩
    rw [text_hash, text_hash, entryTexts, entryTexts, a.order_nil, b.order_nil]
  | [(k, v)], [(l, w)], _ =>
    have hk := h k
    simp only [Entries.get?, if_true] at hk
    split at hk
    · next hkl =>
      subst hkl
      cases hk with
      | some hvw =>
        refine ⟨hvw.1, fun hfree a b => ?_⟩
        -- One entry stands alone, however entries are arranged.
        rw [text_hash, text_hash, entryTexts, entryTexts, entryTexts, entryTexts,
          a.order_singleton, b.order_singleton, hvw.2 hfree a b]
    · cases hk
  | _ :: _ :: _, _ :: _ :: _, _ => exact ⟨rfl, fun hfree => absurd hfree (by simp [orderFree])⟩

lemma Alike.sameText {v w : Value} (h : v.Alike w) : v.SameText w := by
  induction h with
  | @atom v hv => exact ⟨rfl, fun _ a b => text_of_isAtom hv a b⟩
  | function => exact ⟨rfl, fun _ _ _ => rfl⟩
  | array hlen _ ih =>
    obtain ⟨hfree, htexts⟩ := sameText_all (forall₂_of_getElem? hlen ih)
    refine ⟨hfree, fun hall a b => ?_⟩
    rw [text_array, text_array, texts_congr (htexts hall)]
  | hash hlen hsome _ ih => exact sameText_hash hlen fun key => rel_of_isSome (hsome key) (ih key)

end Value

end Nut
