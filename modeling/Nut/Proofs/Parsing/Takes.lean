import Nut.Proofs.Parsing.Yield
import Nut.Syntax.Parse

/-! The tokens that are taken on the way to a value. -/

namespace Nut

namespace Parse

variable {α β : Type}

def Takes (p : Parse α) (Y : α → List Token → Prop) : Prop :=
  ∀ ts a rest, p ts = .done a rest → ∃ u, ts = u ++ rest ∧ Y a u

namespace Takes

variable {p : Parse α} {f : α → Parse β} {Y : α → List Token → Prop} {Z : β → List Token → Prop}

lemma bind (hp : Takes p Y) (hf : ∀ a u, Y a u → Takes (f a) fun b v => Z b (u ++ v)) :
    Takes (p >>= f) Z := by
  intro ts b rest h
  obtain ⟨a, mid, hpa, hfa⟩ := bind_eq_done.mp h
  obtain ⟨u, rfl, hu⟩ := hp _ _ _ hpa
  obtain ⟨v, rfl, hv⟩ := hf a u hu _ _ _ hfa
  exact ⟨u ++ v, by rw [List.append_assoc], hv⟩

lemma pure {a : α} (h : Y a []) : Takes (Pure.pure a) Y := by
  rintro ts b rest ⟨⟩
  exact ⟨[], rfl, h⟩

lemma map {g : α → β} (hp : Takes p Y) (hg : ∀ a u, Y a u → Z (g a) u) : Takes (g <$> p) Z :=
  hp.bind fun a u hu => pure (by simpa using hg a u hu)

lemma mono {Y' : α → List Token → Prop} (hp : Takes p Y) (h : ∀ a u, Y a u → Y' a u) :
    Takes p Y' := by
  intro ts a rest ha
  obtain ⟨u, hu, hy⟩ := hp ts a rest ha
  exact ⟨u, hu, h a u hy⟩

lemma fail (error : ParseError) : Takes (Parse.fail error) Y := by
  rintro ts a rest ⟨⟩

lemma expect (wanted : Token) : Takes (Parse.expect wanted) fun _ u => u = [wanted] := by
  rintro (_ | ⟨t, ts⟩) a rest h
  · cases h
  · by_cases ht : t = wanted
    · rw [Parse.expect, if_pos ht] at h
      cases h
      exact ⟨[t], rfl, by rw [ht]⟩
    · rw [Parse.expect, if_neg ht] at h
      cases h

lemma accept (wanted : Token) :
    Takes (Parse.accept wanted) fun found u => u = if found then [wanted] else [] := by
  rintro (_ | ⟨t, ts⟩) a rest h
  · cases h
    exact ⟨[], rfl, rfl⟩
  · by_cases ht : t = wanted
    · rw [Parse.accept, if_pos ht] at h
      cases h
      exact ⟨[t], rfl, by rw [ht]; rfl⟩
    · rw [Parse.accept, if_neg ht] at h
      cases h
      exact ⟨[], rfl, rfl⟩

lemma terminator : Takes Parse.terminator fun _ u => Terminator u := by
  refine (accept .semicolon).bind fun found u hu => pure ?_
  cases found with
  | true => exact .inr (by simp [hu])
  | false => exact .inl (by simp [hu])

lemma withLast (hp : Takes p Y) : Takes p.withLast fun x u => Y x.1 u ∧ x.2 = u.getLast? := by
  intro ts x rest h
  rw [Parse.withLast] at h
  cases hd : p ts with
  | done a rest' =>
    rw [hd] at h
    cases h
    obtain ⟨u, rfl, hu⟩ := hp _ _ _ hd
    exact ⟨u, rfl, hu, by simp [consumed]⟩
  | failed | exhausted =>
    rw [hd] at h
    cases h

end Takes

end Parse

end Nut
