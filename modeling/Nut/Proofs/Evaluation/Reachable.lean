import Nut.Proofs.Evaluation.Linked

/-! What an evaluation does to the scopes that there are, and the heaps that come about so. -/

namespace Nut

def Kept (Q : Heap → Prop) (s t : State) : Prop := s = t ∧ Q s.heap

/-- A state beside itself, in which the scopes outside `W` are still those of `h`. -/
def Untouched (h : Heap) (W : Nat → Prop) (s t : State) : Prop :=
  s = t ∧ ∀ c < h.size, ¬W c → s.heap.scopes[c]? = h.scopes[c]?

namespace Coupling

variable {h : Heap} {W : Nat → Prop}

lemma ambient_untouched : Ambient Eq h.size W (Untouched h W) where
  extend hsize _ := by
    rintro ⟨rfl, hu⟩
    refine ⟨rfl, fun c hc hW => ?_⟩
    rw [Heap.scopes_extend _ _ _ (hc.trans_le hsize)]
    exact hu c hc hW
  declare x hd hvw := by
    rintro ⟨rfl, hu⟩
    obtain rfl := hvw
    refine ⟨rfl, fun c hc hW => ?_⟩
    rw [Heap.scopes_declare _ _ _ _ _ (by rintro rfl; exact hW (hd hc))]
    exact hu c hc hW

lemma lawful_kept {Q : Heap → Prop} {n : Nat} (hA : Ambient Eq n W (Kept Q)) :
    (linked Eq n W (Kept Q)).Lawful .all .all := by
  refine lawful_linked .eq hA rfl rfl fun k vs ws b hvs => ?_
  obtain ⟨hin, heq⟩ := (List.forall₂_and_left vs ws).mp hvs
  obtain rfl := List.forall₂_eq_eq_eq ▸ heq
  refine Runs.call_self (C := linked Eq n W (Kept Q))
    (fun k => Likeness.eq.restrict _) (fun hst => hst.2.2.2.1) ?_ ?_ b ?_
  · exact fun _ hst => ⟨hst.1, hst.2.1, hst.2.2.1, rfl, hst.2.2.2.2⟩
  · exact fun _ hst => ⟨hst.1, hst.2.1, hst.2.2.1, rfl, hst.2.2.2.2⟩
  · exact fun l hl => hvs.imp fun _ _ => restrict_later hl

end Coupling

namespace Heap

def Linked (h : Heap) : Prop := ∀ s t, h.Links s t → t < h.size

lemma Linked.reaches_lt {h : Heap} {roots : Nat → Prop} (hh : h.Linked)
    (hr : ∀ c, roots c → c < h.size) {c : Nat} (hc : h.Reaches roots c) : c < h.size :=
  hc.mem_of_closed (S := (· < h.size)) (fun _ _ _ => hh _ _) hr

lemma Linked.extend {h : Heap} {outer : Option Nat} (hh : h.Linked)
    (ho : ∀ o, outer = some o → o < h.size) : (h.extend outer).Linked := by
  intro s t hl
  rw [size_extend]
  rcases hl.of_extend with hl | ⟨-, ht⟩
  · exact (hh s t hl).trans (Nat.lt_succ_self _)
  · exact (ho t ht).trans (Nat.lt_succ_self _)

lemma Linked.declare {h : Heap} {v : Value} (hh : h.Linked) (hv : v.HoldsIn (· < h.size)) (d : Nat)
    (x : String) : (h.declare d x v).Linked := by
  intro s t hl
  rw [size_declare]
  rcases hl.of_declare with hl | ⟨-, ht⟩
  · exact hh s t hl
  · exact hv t ht

end Heap

/-- What one evaluation leaves behind, when nothing leads out of `W` before it. -/
structure Confined (h : Heap) (W : Nat → Prop) (o : Outcome Value) (s : State) : Prop where
  size_le : h.size ≤ s.heap.size
  closed {a b : Nat} : Visible h.size W s.heap.size a → s.heap.Links a b →
    Visible h.size W s.heap.size b
  untouched {c : Nat} : c < h.size → ¬W c → s.heap.scopes[c]? = h.scopes[c]?
  carried {v : Value} : o.carried = some v → v.HoldsIn (Visible h.size W s.heap.size)

lemma Term.meet_kept {e : Nat} {s : State} {W : Nat → Prop} {Q : Heap → Prop}
    (hA : Ambient Eq s.heap.size W (Kept Q)) (hs : s.heap.Linked)
    (hW : ∀ a b, W a → s.heap.Links a b → W b) (he : e < s.heap.size) (hWe : W e) (hQ : Q s.heap)
    (t : Term) (steps : Nat) :
    (Coupling.linked Eq s.heap.size W (Kept Q)).Meet s.heap.size
      (Coupling.linked Eq s.heap.size W (Kept Q)).value (t.eval steps e s) (t.eval steps e s) := by
  have H : s.heap.Like Eq (Visible s.heap.size W s.heap.size) s.heap := by
    refine ⟨rfl, fun {a b} ha hl => ⟨hs a b hl, fun _ => hW a b (ha.2 ha.1) hl⟩, fun _ => rfl, ?_⟩
    exact fun _ _ => rel_self _
  exact (Coupling.lawful_kept hA).term (le_refl steps) (fun _ => rfl) t
    (k := s.heap.size) (a := e) ⟨rfl, he, fun _ => hWe⟩ (fun _ _ => ⟨rfl, he, fun _ => hWe⟩)
    s.heap.size s s le_rfl ⟨le_rfl, rfl, H, rfl, hQ⟩

lemma Term.confined {t : Term} {steps e : Nat} {s s' : State} {W : Nat → Prop}
    (hs : s.heap.Linked) (hW : ∀ a b, W a → s.heap.Links a b → W b) (he : e < s.heap.size)
    (hWe : W e) (h : (t.eval steps e s).after = some s') :
    Confined s.heap W (t.eval steps e s) s' := by
  have hr := Term.meet_kept (Q := fun g => ∀ c < s.heap.size, ¬W c → g.scopes[c]? = s.heap.scopes[c]?)
    Coupling.ambient_untouched hs hW he hWe (fun _ _ _ => rfl) t steps
  generalize t.eval steps e s = o at h hr ⊢
  rcases hr.state_after h with rfl | ⟨l, _, hl, -, hn, rfl, H', rfl, hu⟩
  · cases h
  refine ⟨hn, H'.closed, hu _, fun {v} hv => ?_⟩
  cases hr with
  | normal _ hvw hst | returned _ hvw hst =>
    cases hv
    cases h
    exact hst.2.1 ▸ hvw.1
  | failed | exhausted => cases hv

namespace Heap

inductive Reachable : Heap → Prop
  | initial : Reachable .initial
  | top {h : Heap} : Reachable h → Reachable (h.extend none)
  | enclose {h : Heap} {outer : Nat} : Reachable h → outer < h.size →
      Reachable (h.extend (some outer))
  | declare {h : Heap} {v : Value} (s : Nat) (x : String) : Reachable h → v.HoldsIn (· < h.size) →
      Reachable (h.declare s x v)
  | assign {h h' : Heap} {s : Nat} {x : String} {v : Value} : Reachable h →
      v.HoldsIn (· < h.size) → h.assign? s x v = some h' → Reachable h'
  | run {t : Term} {steps scope : Nat} {s s' : State} : Reachable s.heap → scope < s.heap.size →
      (t.eval steps scope s).after = some s' → Reachable s'.heap

lemma not_links_initial (s t : Nat) : ¬Heap.initial.Links s t := by
  intro hl
  obtain rfl : s = 0 := Nat.lt_one_iff.mp hl.lt
  cases hl with
  | outer ho => cases ho
  | bound hx _ => cases hx

lemma Reachable.linked {h : Heap} (hh : h.Reachable) : h.Linked := by
  induction hh with
  | initial => exact fun s t hl => absurd hl (not_links_initial s t)
  | top _ ih => exact ih.extend nofun
  | enclose _ ho ih =>
    refine ih.extend fun o hs => ?_
    cases hs
    exact ho
  | declare s x _ hv ih => exact ih.declare hv s x
  | assign _ hv ha ih =>
    obtain ⟨d, -, rfl⟩ := Option.map_eq_some_iff.mp ha
    exact ih.declare hv d _
  | run _ hscope ho ih =>
    intro a b hl
    have hc := Term.confined ih (fun _ _ _ _ => trivial) hscope trivial ho
    exact (hc.closed ⟨hl.lt, fun _ => trivial⟩ hl).1

def Descending (h : Heap) : Prop := ∀ c o, h.outer? c = some o → o < c

lemma Descending.extend {h : Heap} {outer : Option Nat} (hh : h.Descending)
    (ho : ∀ o, outer = some o → o < h.size) : (h.extend outer).Descending := by
  intro c o hc
  rw [outer?_extend] at hc
  split at hc
  · next heq => exact heq ▸ ho o hc
  · exact hh c o hc

lemma Descending.enclose {h : Heap} {outer : Nat} (hh : h.Descending) (ho : outer < h.size) :
    (h.extend (some outer)).Descending := by
  refine hh.extend fun o hs => ?_
  cases hs
  exact ho

lemma Descending.declare {h : Heap} (hh : h.Descending) (d : Nat) (x : String) (v : Value) :
    (h.declare d x v).Descending := by
  intro c o hc
  rw [outer?_declare] at hc
  exact hh c o hc

lemma ambient_descending {n : Nat} {W : Nat → Prop} : Ambient Eq n W (Kept Descending) where
  extend _ ho := by
    rintro ⟨rfl, hd⟩
    exact ⟨rfl, hd.enclose ho⟩
  declare x _ hvw := by
    rintro ⟨rfl, hd⟩
    obtain rfl := hvw
    exact ⟨rfl, hd.declare _ x _⟩

lemma Reachable.descending {h : Heap} (hh : h.Reachable) : h.Descending := by
  induction hh with
  | initial => exact fun c o ho => absurd (.outer ho) (not_links_initial c o)
  | top _ ih => exact ih.extend nofun
  | enclose _ ho ih => exact ih.enclose ho
  | declare s x _ _ ih => exact ih.declare s x _
  | assign _ _ ha ih =>
    obtain ⟨d, -, rfl⟩ := Option.map_eq_some_iff.mp ha
    exact ih.declare d _ _
  | @run t steps scope s s' hs hscope ho ih =>
    have hm := Term.meet_kept ambient_descending hs.linked (fun _ _ _ _ => trivial) hscope trivial ih
      t steps
    obtain hend | ⟨_, _, -, -, -, -, -, rfl, hd⟩ := hm.state_after ho
    · rw [hend] at ho
      cases ho
    · exact hd

end Heap

end Nut
