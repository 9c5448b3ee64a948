import Nut.Proofs.Parsing.Entries

/-! The two ways to write a declaration, and parsers that succeed alike on either of them. -/

namespace Nut

/-- Some of the `let name =` in the first list are `name :=` in the second. -/
inductive Rebound : List Token → List Token → Prop
  | nil : Rebound [] []
  | keep {ts us} (t : Token) : Rebound ts us → Rebound (t :: ts) (t :: us)
  | rebind {ts us} (name : String) : Rebound ts us →
      Rebound (.keyword .binding :: .ident name :: .assign :: ts) (.ident name :: .bind :: us)

namespace Rebound

variable {ts us vs ws : List Token} {t : Token}

lemma append (h : Rebound ts us) (h' : Rebound vs ws) : Rebound (ts ++ vs) (us ++ ws) := by
  induction h with
  | nil => exact h'
  | keep t _ ih => exact .keep t ih
  | rebind name _ ih => exact .rebind name ih

lemma length_le (h : Rebound ts us) : us.length ≤ ts.length := by
  induction h with
  | nil => exact Nat.le_refl _
  | keep t _ ih => simpa using ih
  | rebind name _ ih =>
    simp only [List.length_cons]
    omega

lemma tail (h : Rebound (t :: ts) us) (ht : t ≠ .keyword .binding) :
    ∃ vs, us = t :: vs ∧ Rebound ts vs := by
  cases h with
  | keep _ h => exact ⟨_, rfl, h⟩
  | rebind => exact absurd rfl ht

lemma head?_iff (h : Rebound ts us) (ht : t ≠ .keyword .binding) (hn : ∀ name, t ≠ .ident name) :
    us.head? = some t ↔ ts.head? = some t := by
  cases h with
  | nil | keep => rfl
  | rebind name =>
    simp only [List.head?_cons, Option.some.injEq]
    exact iff_of_false (Ne.symm (hn name)) (Ne.symm ht)

lemma getLast?_semicolon (h : Rebound ts us) (hl : ts.getLast? = some .semicolon) :
    us.getLast? = some .semicolon := by
  induction h with
  | nil => exact hl
  | @keep ts us t h ih =>
    by_cases hts : ts = []
    · subst hts
      cases h
      exact hl
    · rw [List.getLast?_cons_of_ne_nil hts] at hl
      rw [List.getLast?_cons, ih hl]
      rfl
  | @rebind ts us name h ih =>
    by_cases hts : ts = []
    · subst hts
      cases hl
    · rw [List.getLast?_cons_cons, List.getLast?_cons_cons, List.getLast?_cons_of_ne_nil hts] at hl
      rw [List.getLast?_cons_cons, List.getLast?_cons, ih hl]
      rfl

end Rebound

namespace Parse

variable {α β : Type}

/-- Where `p` succeeds on the first list it succeeds on the second, with the same value, and what it
takes and what it leaves over are again the same but for some declarations. -/
def CarriesOn (p : Parse α) (ts us : List Token) : Prop :=
  ∀ a rest, p ts = .done a rest → ∃ u v rest', ts = u ++ rest ∧ us = v ++ rest' ∧ Rebound u v ∧
    Rebound rest rest' ∧ p us = .done a rest'

def Carries (p : Parse α) : Prop :=
  ∀ ts us, Rebound ts us → CarriesOn p ts us

namespace CarriesOn

variable {p q : Parse α} {ts us : List Token}

lemma cons {t : Token} (hq : CarriesOn q ts us) (hp : ∀ xs, p (t :: xs) = q xs) :
    CarriesOn p (t :: ts) (t :: us) := by
  intro a rest h
  rw [hp] at h
  obtain ⟨u, v, rest', rfl, rfl, hu, hr, hd⟩ := hq a rest h
  exact ⟨t :: u, t :: v, rest', rfl, rfl, hu.keep t, hr, by rw [hp, hd]⟩

lemma congr (hq : CarriesOn q ts us) (hts : p ts = q ts) (hus : p us = q us) : CarriesOn p ts us := by
  intro a rest h
  rw [hts] at h
  rw [hus]
  exact hq a rest h

end CarriesOn

namespace Carries

variable {p q : Parse α} {f : α → Parse β}

lemma bind (hp : Carries p) (hf : ∀ a, Carries (f a)) : Carries (p >>= f) := by
  intro ts us hr b rest h
  obtain ⟨a, mid, ha, hb⟩ := bind_eq_done.mp h
  obtain ⟨u, v, mid', rfl, rfl, hu, hmid, ha'⟩ := hp ts us hr a mid ha
  obtain ⟨u', v', rest', rfl, rfl, hu', hrest, hb'⟩ := hf a mid mid' hmid b rest hb
  refine ⟨u ++ u', v ++ v', rest', by simp, by simp, hu.append hu', hrest, ?_⟩
  rw [bind_of_done ha', hb']

lemma stop {ts us : List Token} (h : Rebound ts us) {a : α} (hts : p ts = .done a ts)
    (hus : p us = .done a us) : CarriesOn p ts us := by
  intro b rest hb
  obtain ⟨rfl, rfl⟩ := Parsed.done.inj (hts.symm.trans hb)
  exact ⟨[], [], us, rfl, rfl, .nil, h, hus⟩

lemma pure (a : α) : Carries (Pure.pure a) := fun _ _ h => stop h rfl rfl

lemma map (g : α → β) (hp : Carries p) : Carries (g <$> p) :=
  hp.bind fun a => pure (g a)

lemma fail (error : ParseError) : Carries (Parse.fail error : Parse α) := by
  rintro ts us - a rest ⟨⟩

lemma exhausted : Carries (Parse.exhausted : Parse α) := by
  rintro ts us - a rest ⟨⟩

section Wanted

variable {wanted : Token} (hw : wanted ≠ .keyword .binding)

include hw

lemma expect : Carries (Parse.expect wanted) := by
  intro ts us h a rest hd
  cases ts with
  | nil => cases hd
  | cons t ts =>
    rw [Parse.expect] at hd
    split at hd
    · next ht =>
      subst ht
      cases hd
      obtain ⟨vs, rfl, hv⟩ := h.tail hw
      exact ⟨[t], [t], vs, rfl, rfl, .keep t .nil, hv, by rw [Parse.expect, if_pos rfl]⟩
    · cases hd

variable (hn : ∀ name, wanted ≠ .ident name)

include hn

lemma accept : Carries (Parse.accept wanted) := by
  have hmiss (ts : List Token) (ht : ts.head? ≠ some wanted) : Parse.accept wanted ts = .done false ts := by
    cases ts with
    | nil => rfl
    | cons t ts => rw [Parse.accept, if_neg (by simpa using ht)]
  intro ts us h
  by_cases ht : ts.head? = some wanted
  · obtain ⟨ts, rfl⟩ := List.head?_eq_some_iff.mp ht
    obtain ⟨vs, rfl, hv⟩ := h.tail hw
    exact (pure true ts vs hv).cons fun xs => by rw [Parse.accept, if_pos rfl]; rfl
  · exact stop h (hmiss ts ht) (hmiss us (mt (h.head?_iff hw hn).mp ht))

lemma ifPeek (hp : Carries p) (hq : Carries q) :
    Carries (peek? >>= fun next => if next = some wanted then p else q) := by
  have heq (ts : List Token) : (peek? >>= fun next => if next = some wanted then p else q) ts =
      (if ts.head? = some wanted then p else q) ts := rfl
  intro ts us h
  by_cases ht : ts.head? = some wanted
  · have hu := (h.head?_iff hw hn).mpr ht
    exact (hp ts us h).congr (by rw [heq, if_pos ht]) (by rw [heq, if_pos hu])
  · have hu := mt (h.head?_iff hw hn).mp ht
    exact (hq ts us h).congr (by rw [heq, if_neg ht]) (by rw [heq, if_neg hu])

end Wanted

lemma terminator : Carries Parse.terminator :=
  (accept (by simp) (by simp)).bind fun _ => pure ()

end Carries

end Parse

end Nut
