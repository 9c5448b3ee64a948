import Mathlib
import Nut.Syntax.Program

/-! Token lists whose last token is their only semicolon outside braces, and the search for the end
of a broken statement in them. -/

namespace Nut

open Recovery (step)

/-- From `d` open braces on, the braces of the list close, and its last token is the one semicolon
outside of them. No loop stands outside of them either. -/
inductive Fenced : Nat → List Token → Prop
  | fence : Fenced 0 [.semicolon]
  | cons {d : Nat} {t : Token} {ts : List Token}
      (ht : d = 0 → t ≠ .semicolon ∧ t ≠ .rbrace ∧ t ≠ .keyword .loop)
      (hts : Fenced (step d t) ts) : Fenced d (t :: ts)

def Landed (d : Nat) (ts : List Token) : Prop :=
  Fenced d ts ∨ d = 0 ∧ ts = []

namespace Fenced

variable {d : Nat} {t : Token} {ts : List Token}

lemma ne_nil (h : Fenced d ts) : ts ≠ [] := by
  cases h <;> simp

lemma tail (h : Fenced d (t :: ts)) (ht : d ≠ 0 ∨ t ≠ .semicolon) : Fenced (step d t) ts := by
  cases h with
  | fence => simp at ht
  | cons _ hts => exact hts

lemma not_singleton (ht : t ≠ .semicolon) : ¬ Fenced d [t] :=
  fun h => (h.tail (.inr ht)).ne_nil rfl

lemma eq_nil (h : Fenced 0 (.semicolon :: ts)) : ts = [] := by
  cases h with
  | fence => rfl
  | cons ht => simp at ht

lemma ne_of_zero (h : Fenced 0 (t :: ts)) : t ≠ .rbrace ∧ t ≠ .keyword .loop := by
  cases h with
  | fence => simp
  | cons ht => exact (ht rfl).2

lemma drop {k : Nat} (h : Fenced d ts) (hk : k < ts.length) :
    Fenced ((ts.take k).foldl step d) (ts.drop k) := by
  induction h generalizing k with
  | fence =>
    obtain rfl : k = 0 := by simpa using hk
    exact .fence
  | cons ht hts ih =>
    cases k with
    | zero => exact .cons ht hts
    | succ k => exact ih (by simpa using hk)

end Fenced

lemma Landed.fenced {d : Nat} {ts : List Token} (h : Landed (d + 1) ts) : Fenced (d + 1) ts := by
  simpa [Landed] using h

namespace Recovery

lemma dropTerminator_append {ts : List Token} (h : Fenced 0 ts) (more : List Token) :
    dropTerminator (ts ++ more) = dropTerminator ts ++ more := by
  cases h with
  | fence => rfl
  | @cons _ t => cases t <;> rfl

lemma landed_dropTerminator {ts : List Token} (h : Fenced 0 ts) : Landed 0 (dropTerminator ts) := by
  cases h with
  | fence => exact .inr ⟨rfl, rfl⟩
  | @cons _ t ts ht hts =>
    have hd : dropTerminator (t :: ts) = t :: ts := by
      have := (ht rfl).1
      cases t <;> first | rfl | exact absurd rfl this
    rw [hd]
    exact .inl (.cons ht hts)

lemma skip_fenced {d : Nat} {ts : List Token} (h : Fenced d ts) (more : List Token) :
    skip d (ts ++ more) = skip d ts ++ more ∧ Landed 0 (skip d ts) := by
  induction h with
  | fence => exact ⟨by simp [skip], .inr ⟨rfl, by simp [skip]⟩⟩
  | @cons d t ts ht hts ih =>
    cases t with
    | semicolon =>
      have hd : d ≠ 0 := fun h => (ht h).1 rfl
      simpa [skip, hd, step] using ih
    | rbrace =>
      by_cases hd : d - 1 = 0
      · have hts' : Fenced 0 ts := by simpa [step, hd] using hts
        simpa [skip, hd] using ⟨dropTerminator_append hts' more, landed_dropTerminator hts'⟩
      · simpa [skip, hd, step] using ih
    | _ => simpa [skip] using ih

lemma resume_fenced {ts : List Token} (h : Fenced 0 ts) (rest more : List Token) :
    resume (ts ++ more) (rest ++ more) = resume ts rest ++ more ∧ Landed 0 (resume ts rest) := by
  have hlen : 0 < ts.length := List.length_pos_iff.mpr h.ne_nil
  have hk : ts.length - rest.length - 1 < ts.length := by omega
  have he : (ts ++ more).length - (rest ++ more).length - 1 = ts.length - rest.length - 1 := by
    simp only [List.length_append]
    omega
  unfold resume
  dsimp only
  rw [he, List.take_append_of_le_length (Nat.le_of_lt hk),
    List.drop_append_of_le_length (Nat.le_of_lt hk)]
  exact skip_fenced (h.drop hk) more

end Recovery

def Outside (ts : List Token) (k : Nat) : Prop :=
  (ts.take k).count .lbrace = (ts.take k).count .rbrace

instance (ts : List Token) (k : Nat) : Decidable (Outside ts k) :=
  inferInstanceAs (Decidable (_ = _))

/-- The braces are balanced, and outside of them stand no loop and only one semicolon, the last
token. -/
structure Sealed (ts : List Token) : Prop where
  balanced : ts.count .lbrace = ts.count .rbrace
  closed : ∀ k < ts.length, (ts.take k).count .rbrace ≤ (ts.take k).count .lbrace
  last : ts.getLast? = some .semicolon
  only : ∀ k < ts.length, ts[k]? = some .semicolon → Outside ts k → k + 1 = ts.length
  no_loop : ∀ k < ts.length, ts[k]? = some (.keyword .loop) → ¬ Outside ts k

namespace Sealed

variable {ts : List Token} (h : Sealed ts)

include h

lemma fenced_after (us : List Token) {vs : List Token} (hts : ts = us ++ vs) (hne : vs ≠ []) :
    us.count .rbrace ≤ us.count .lbrace ∧ Fenced (us.count .lbrace - us.count .rbrace) vs := by
  induction vs generalizing us with
  | nil => exact absurd rfl hne
  | cons t vs ih =>
    have hlen : us.length < ts.length := by simp [hts]
    have htake : ts.take us.length = us := by rw [hts, List.take_left]
    have hget : ts[us.length]? = some t := by simp [hts]
    have hclosed : us.count .rbrace ≤ us.count .lbrace := htake ▸ h.closed us.length hlen
    have houtside (hd : us.count .lbrace - us.count .rbrace = 0) : Outside ts us.length := by
      rw [Outside, htake]
      omega
    refine ⟨hclosed, ?_⟩
    by_cases hvs : vs = []
    · subst hvs
      have hlast := h.last
      have hbalanced := h.balanced
      subst hts
      obtain rfl : t = .semicolon := by simpa using hlast
      have hz : us.count .lbrace - us.count .rbrace = 0 := by
        simp at hbalanced
        omega
      exact hz ▸ .fence
    · obtain ⟨hclosed', hnext⟩ := ih (us ++ [t]) (by simp [hts]) hvs
      have hstep : (us ++ [t]).count .lbrace - (us ++ [t]).count .rbrace =
          step (us.count .lbrace - us.count .rbrace) t := by
        simp only [List.count_append] at hclosed' ⊢
        cases t <;> simp [step] at * <;> omega
      refine .cons (fun hd => ⟨?_, ?_, ?_⟩) (hstep ▸ hnext)
      · rintro rfl
        have := h.only us.length hlen hget (houtside hd)
        simp [hts, hvs] at this
      · rintro rfl
        simp at hclosed'
        omega
      · rintro rfl
        exact h.no_loop us.length hlen hget (houtside hd)

lemma fenced : Fenced 0 ts :=
  (h.fenced_after [] rfl fun hts => by simpa [hts] using h.last).2

end Sealed

end Nut
