import Nut.Proofs.Parsing.Depth
import Nut.Proofs.Parsing.Fence

/-! A rule comes to its result before it has seen all of its input, unless the input ends too early,
and in front of a fence it always does. -/

namespace Nut

open Recovery (step)

namespace Parsed

variable {α : Type}

def rest : Parsed α → List Token
  | .done _ rest => rest
  | .failed _ rest => rest
  | .exhausted => []

def extend (more : List Token) : Parsed α → Parsed α
  | .done a rest => .done a (rest ++ more)
  | .failed error rest => .failed error (rest ++ more)
  | .exhausted => .exhausted

end Parsed

namespace Parse

variable {α β : Type}

def Steady (p : Parse α) (ts : List Token) : Prop :=
  ∀ more, p (ts ++ more) = (p ts).extend more

lemma Steady.bind {p : Parse α} {f : α → Parse β} {ts : List Token} (hp : Steady p ts)
    (hf : ∀ a rest, p ts = .done a rest → Steady (f a) rest) : Steady (p >>= f) ts := by
  intro more
  rw [bind_apply, bind_apply, hp more]
  cases h : p ts with
  | done a rest => exact hf a rest h more
  | failed | exhausted => rfl

lemma rest_bind {p : Parse α} {f : α → Parse β} {ts : List Token}
    (hf : ∀ a mid, (f a mid).rest <:+ mid) : ((p >>= f) ts).rest <:+ (p ts).rest := by
  rw [bind_apply]
  cases p ts with
  | done a mid => exact hf a mid
  | failed | exhausted => exact List.suffix_rfl

/-- What `p` leaves over of `ts` is the end of it. Where that is not empty, or a fence closes `ts`,
the result is steady, and from `d` open braces on, success leads to `Q`. -/
structure ContainedOn (d : Nat) (Q : List Token → Prop) (p : Parse α) (ts : List Token) : Prop where
  suffix : (p ts).rest <:+ ts
  steady : (p ts).rest ≠ [] → Steady p ts
  fenced : Fenced d ts → Steady p ts ∧ ∀ a rest, p ts = .done a rest → Q rest

def Contained (d : Nat) (Q : List Token → Prop) (p : Parse α) : Prop :=
  ∀ ts, ContainedOn d Q p ts

namespace ContainedOn

variable {d d' : Nat} {Q : List Token → Prop} {p q : Parse α} {f : α → Parse β} {ts : List Token}

lemma congr (h : ContainedOn d Q q ts) (hpq : ∀ more, p (ts ++ more) = q (ts ++ more)) :
    ContainedOn d Q p ts := by
  have he : p ts = q ts := by simpa using hpq []
  have hs (h : Steady q ts) : Steady p ts := fun more => by rw [hpq, he, h more]
  refine ⟨he ▸ h.suffix, fun hr => hs (h.steady (he ▸ hr)), fun hf => ?_⟩
  obtain ⟨hq, hQ⟩ := h.fenced hf
  exact ⟨hs hq, he ▸ hQ⟩

lemma cons {t : Token} (h : ContainedOn d' Q q ts) (hd : step d t = d')
    (ht : d ≠ 0 ∨ t ≠ .semicolon) (hpq : ∀ more, p (t :: (ts ++ more)) = q (ts ++ more)) :
    ContainedOn d Q p (t :: ts) := by
  subst hd
  have he : p (t :: ts) = q ts := by simpa using hpq []
  have hs (h : Steady q ts) : Steady p (t :: ts) := fun more => by
    rw [List.cons_append, hpq, he, h more]
  refine ⟨he ▸ h.suffix.trans (List.suffix_cons t ts), fun hr => hs (h.steady (he ▸ hr)), fun hf => ?_⟩
  obtain ⟨hq, hQ⟩ := h.fenced (hf.tail ht)
  exact ⟨hs hq, he ▸ hQ⟩

lemma of_end (he : (p ts).rest = []) (hf : ¬ Fenced d ts) : ContainedOn d Q p ts :=
  ⟨he ▸ List.nil_suffix, fun hr => absurd he hr, fun h => absurd h hf⟩

lemma unfenced (h : ContainedOn d Q p ts) (hf : ¬ Fenced d' ts) {Q' : List Token → Prop} :
    ContainedOn d' Q' p ts :=
  ⟨h.suffix, h.steady, fun hd => absurd hd hf⟩

lemma nil (he : (p []).rest = []) : ContainedOn d Q p [] :=
  of_end he fun h => h.ne_nil rfl

lemma bind (hp : ContainedOn d (Fenced d') p ts) (hf : ∀ a mid, ContainedOn d' Q (f a) mid) :
    ContainedOn d Q (p >>= f) ts := by
  have hs := hp.suffix
  refine ⟨?_, fun hr => ?_, fun hd => ?_⟩
  · rw [bind_apply]
    cases h : p ts with
    | done a mid => exact (hf a mid).suffix.trans (by simpa [h, Parsed.rest] using hs)
    | failed => simpa [h, Parsed.rest] using hs
    | exhausted => exact List.nil_suffix
  · rw [bind_apply] at hr
    cases h : p ts with
    | done a mid =>
      rw [h] at hr
      have hmid : mid ≠ [] := by
        rintro rfl
        exact hr (List.suffix_nil.mp (hf a []).suffix)
      apply (hp.steady (by simpa [h, Parsed.rest] using hmid)).bind
      rintro b rest hb
      obtain ⟨rfl, rfl⟩ := Parsed.done.inj (h.symm.trans hb)
      exact (hf a mid).steady hr
    | failed error mid =>
      rw [h] at hr
      apply (hp.steady (by simpa [h, Parsed.rest] using hr)).bind
      rintro b rest hb
      rw [h] at hb
      cases hb
    | exhausted =>
      rw [h] at hr
      exact absurd rfl hr
  · obtain ⟨hsteady, hmid⟩ := hp.fenced hd
    refine ⟨hsteady.bind fun a mid ha => ((hf a mid).fenced (hmid a mid ha)).1, fun b rest hb => ?_⟩
    obtain ⟨a, mid, ha, hfa⟩ := bind_eq_done.mp hb
    exact ((hf a mid).fenced (hmid a mid ha)).2 b rest hfa

lemma pure (a : α) (ts : List Token) : ContainedOn d (Fenced d) (Pure.pure a) ts :=
  ⟨List.suffix_rfl, fun _ _ => rfl, fun hd => ⟨fun _ => rfl, by rintro b rest ⟨⟩; exact hd⟩⟩

lemma map (g : α → β) (hp : ContainedOn d Q p ts) : ContainedOn d Q (g <$> p) ts := by
  have hrest : ((g <$> p) ts).rest = (p ts).rest := by
    rw [map_apply]
    cases p ts <;> rfl
  have hs (h : Steady p ts) : Steady (g <$> p) ts := h.bind fun a rest _ more => rfl
  refine ⟨hrest ▸ hp.suffix, fun hr => hs (hp.steady (hrest ▸ hr)), fun hd => ?_⟩
  obtain ⟨hsteady, hQ⟩ := hp.fenced hd
  refine ⟨hs hsteady, fun b rest hb => ?_⟩
  obtain ⟨a, mid, ha, hab⟩ := bind_eq_done.mp hb
  cases hab
  exact hQ a _ ha

lemma refused {t : Token} {error : ParseError} (h : ∀ us, p (t :: us) = .failed error us) :
    ContainedOn d Q p (t :: ts) := by
  have hs : Steady p (t :: ts) := fun more => by rw [List.cons_append, h, h]; rfl
  refine ⟨?_, fun _ => hs, fun _ => ⟨hs, fun a rest ha => ?_⟩⟩
  · rw [h]
    exact List.suffix_cons t ts
  · rw [h] at ha
    cases ha

end ContainedOn

namespace Contained

variable {d d' : Nat} {Q Q' : List Token → Prop} {p q : Parse α} {f : α → Parse β}

lemma bind (hp : Contained d (Fenced d') p) (hf : ∀ a, Contained d' Q (f a)) :
    Contained d Q (p >>= f) := fun ts =>
  (hp ts).bind fun a => hf a

lemma mono (hp : Contained d Q p) (hQ : ∀ ts, Q ts → Q' ts) : Contained d Q' p := fun ts =>
  ⟨(hp ts).suffix, (hp ts).steady, fun hd =>
    ⟨((hp ts).fenced hd).1, fun a rest ha => hQ rest (((hp ts).fenced hd).2 a rest ha)⟩⟩

lemma pure (a : α) : Contained d (Fenced d) (Pure.pure a) := fun ts =>
  ContainedOn.pure a ts

lemma map (g : α → β) (hp : Contained d Q p) : Contained d Q (g <$> p) := fun ts =>
  (hp ts).map g

lemma fail (error : ParseError) : Contained d Q (Parse.fail error : Parse α) := fun ts =>
  ⟨List.suffix_rfl, fun _ _ => rfl, fun _ => ⟨fun _ => rfl, by rintro b rest ⟨⟩⟩⟩

lemma peek? : Contained d (Fenced d) Parse.peek? := by
  rintro (_ | ⟨t, ts⟩)
  · exact .nil rfl
  · exact ⟨List.suffix_rfl, fun _ _ => rfl, fun hd => ⟨fun _ => rfl, by rintro b rest ⟨⟩; exact hd⟩⟩

lemma expect (wanted : Token) (hw : d ≠ 0 ∨ wanted ≠ .semicolon) :
    Contained d (Fenced (step d wanted)) (Parse.expect wanted) := by
  rintro (_ | ⟨t, ts⟩)
  · exact .nil rfl
  · by_cases ht : t = wanted
    · subst ht
      exact (pure () ts).cons rfl hw fun more => by simp only [Parse.expect, if_true]; rfl
    · exact (fail (.expectedToken wanted t) (t :: ts)).congr fun more => by
        simp only [List.cons_append, Parse.expect, if_neg ht]; rfl

lemma accept (wanted : Token) (hw : d ≠ 0 ∨ wanted ≠ .semicolon) (hd : step d wanted = d) :
    Contained d (Fenced d) (Parse.accept wanted) := by
  rintro (_ | ⟨t, ts⟩)
  · exact .nil rfl
  · by_cases ht : t = wanted
    · subst ht
      exact (pure true ts).cons hd hw fun more => by simp only [Parse.accept, if_true]; rfl
    · exact (pure false (t :: ts)).congr fun more => by
        simp only [List.cons_append, Parse.accept, if_neg ht]; rfl

lemma terminator : Contained d (Landed d) Parse.terminator := by
  rintro (_ | ⟨t, ts⟩)
  · exact .nil rfl
  · by_cases ht : t = .semicolon
    · subst ht
      refine ⟨List.suffix_cons _ _, fun _ _ => rfl, fun hd => ⟨fun _ => rfl, ?_⟩⟩
      rintro _ rest ⟨⟩
      cases d with
      | zero => exact .inr ⟨rfl, hd.eq_nil⟩
      | succ d => exact .inl (hd.tail (by simp))
    · have hc : ContainedOn d (Fenced d) (Parse.terminator) (t :: ts) :=
        (pure () (t :: ts)).congr fun more => by
          simp only [List.cons_append, Parse.terminator, bind_apply, Parse.accept, if_neg ht]
      exact ⟨hc.suffix, hc.steady, fun hd =>
        ⟨(hc.fenced hd).1, fun a rest ha => .inl ((hc.fenced hd).2 a rest ha)⟩⟩

lemma withLast (hp : Contained d Q p) : Contained d Q p.withLast := by
  have hs (ts : List Token) (h : Steady p ts) : Steady p.withLast ts := by
    intro more
    rw [Parse.withLast, Parse.withLast, h more]
    cases hr : p ts with
    | done a rest =>
      have hl := (hp ts).suffix.length_le
      rw [hr, Parsed.rest] at hl
      simp only [Parsed.extend, consumed, List.length_append, Nat.add_sub_add_right]
      rw [List.take_append_of_le_length (Nat.sub_le _ _)]
    | failed | exhausted => rfl
  have hrest (ts : List Token) : (p.withLast ts).rest = (p ts).rest := by
    rw [Parse.withLast]
    cases p ts <;> rfl
  refine fun ts => ⟨hrest ts ▸ (hp ts).suffix, fun hr => hs ts ((hp ts).steady (hrest ts ▸ hr)),
    fun hd => ⟨hs ts ((hp ts).fenced hd).1, fun a rest ha => ?_⟩⟩
  rw [Parse.withLast] at ha
  cases h : p ts with
  | done b mid =>
    rw [h] at ha
    cases ha
    exact ((hp ts).fenced hd).2 b rest h
  | failed | exhausted =>
    rw [h] at ha
    cases ha

end Contained

end Parse

end Nut
