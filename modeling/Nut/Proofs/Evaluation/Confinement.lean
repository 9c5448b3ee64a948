import Nut.Proofs.Evaluation.Reachable

/-! An evaluation stays within what can be reached from its scope. -/

namespace Nut

namespace Heap

variable {h g : Heap} {roots : Nat → Prop} {s t : Nat}

lemma Links.congr (heq : g.scopes[s]? = h.scopes[s]?) (hl : g.Links s t) : h.Links s t := by
  cases hl with
  | outer ho =>
    rw [outer?, heq] at ho
    exact .outer ho
  | bound hx hv =>
    rw [local?, heq] at hx
    exact .bound hx hv

lemma Reaches.congr (heq : ∀ c, h.Reaches roots c → g.scopes[c]? = h.scopes[c]?) (c : Nat) :
    g.Reaches roots c ↔ h.Reaches roots c := by
  constructor <;> intro hc
  · induction hc with
    | root hc => exact .root hc
    | link _ hl ih => exact .link ih (hl.congr (heq _ ih))
  · induction hc with
    | root hc => exact .root hc
    | link hs hl ih => exact .link ih (hl.congr (heq _ hs).symm)

end Heap

theorem confined_to_reachable {t : Term} {steps e : Nat} {s s' : State} (hs : s.heap.Reachable)
    (he : e < s.heap.size) (h : (t.eval steps e s).after = some s') :
    (∀ c < s.heap.size, ¬s.heap.Reaches (· = e) c → s'.heap.scopes[c]? = s.heap.scopes[c]?) ∧
      (∀ c < s.heap.size, s'.heap.Reaches (· = e) c → s.heap.Reaches (· = e) c) ∧
      (∀ v, (t.eval steps e s).carried = some v → ∀ c < s.heap.size, s'.heap.Reaches v.Holds c →
        s.heap.Reaches (· = e) c) ∧
      ∀ e' < s.heap.size, (∀ c, s.heap.Reaches (· = e) c → ¬s.heap.Reaches (· = e') c) →
        (∀ c, s.heap.Reaches (· = e') c → s'.heap.scopes[c]? = s.heap.scopes[c]?) ∧
        (∀ c, s'.heap.Reaches (· = e') c ↔ s.heap.Reaches (· = e') c) ∧
        ∀ c, s'.heap.Reaches (· = e) c → ¬s'.heap.Reaches (· = e') c := by
  have hc := Term.confined (W := s.heap.Reaches (· = e)) hs.linked (fun _ _ => .link) he
    (.root rfl) h
  have hvisible {roots : Nat → Prop} {c : Nat}
      (hr : ∀ a, roots a → Visible s.heap.size (s.heap.Reaches (· = e)) s'.heap.size a)
      (hlt : c < s.heap.size) (hreach : s'.heap.Reaches roots c) : s.heap.Reaches (· = e) c :=
    (hreach.mem_of_closed (fun _ _ => hc.closed) hr).2 hlt
  have hself {c : Nat} (hlt : c < s.heap.size) (hreach : s'.heap.Reaches (· = e) c) :
      s.heap.Reaches (· = e) c := by
    refine hvisible ?_ hlt hreach
    rintro _ rfl
    exact ⟨he.trans_le hc.size_le, fun _ => .root rfl⟩
  refine ⟨fun c hlt hno => hc.untouched hlt hno, fun c => hself, ?_, fun e' he' hapart => ?_⟩
  · exact fun v hv c => hvisible (hc.carried hv)
  · have hlt {c : Nat} (hreach : s.heap.Reaches (· = e') c) : c < s.heap.size :=
      hs.linked.reaches_lt (by rintro _ rfl; exact he') hreach
    have hsame : ∀ c, s.heap.Reaches (· = e') c → s'.heap.scopes[c]? = s.heap.scopes[c]? :=
      fun c hreach => hc.untouched (hlt hreach) fun hr => hapart c hr hreach
    refine ⟨hsame, Heap.Reaches.congr hsame, fun c hr hr' => ?_⟩
    rw [Heap.Reaches.congr hsame] at hr'
    exact hapart c (hself (hlt hr') hr) hr'

/-- A closure is made that keeps a scope of its own alive, and is returned by the program. -/
def returnClosure : List Stmt :=
  [.declare "make" (.function []
      [.declare "n" (.bool true), .result (.function [] [.expr (.assign "n" (.bool false))])]),
    .result (.call (.ident "make") [])]

theorem confined_to_reachable_returnClosure :
    let s : State := ⟨(Heap.initial.extend none).declare 1 "x" .null, "", .seeded 0⟩
    ∃ s', ((Term.body returnClosure).eval 9 0 s).after = some s' ∧
      ¬s.heap.Reaches (· = 0) 1 ∧ s'.heap.scopes[1]? = s.heap.scopes[1]? ∧
      (∀ c, s'.heap.Reaches (· = 1) c ↔ s.heap.Reaches (· = 1) c) ∧
      (∀ c, s'.heap.Reaches (· = 0) c → ¬s'.heap.Reaches (· = 1) c) ∧
      ∃ f, ((Term.body returnClosure).eval 9 0 s).carried = some f ∧
        ∀ c < 2, s'.heap.Reaches f.Holds c → s.heap.Reaches (· = 0) c := by
  intro s
  have hs : s.heap.Reachable := .declare 1 "x" (.top .initial) (Value.holdsIn_of_isAtom rfl)
  have hno : ∀ a b, ¬s.heap.Links a b := by
    intro a b hl
    rcases hl.of_declare with hl | ⟨-, hb⟩
    · rcases hl.of_extend with hl | ⟨-, hb⟩
      · exact Heap.not_links_initial a b hl
      · cases hb
    · cases hb
  have hroot {e c : Nat} (hc : s.heap.Reaches (· = e) c) : c = e := by
    cases hc with
    | root hc => exact hc
    | link _ hl => exact absurd hl (hno _ _)
  let f : Value := .function [] [.expr (.assign "n" (.bool false))] 2
  let make : Value := .function []
    [.declare "n" (.bool true), .result (.function [] [.expr (.assign "n" (.bool false))])] 0
  let s' : State :=
    ⟨⟨#[⟨[("make", make)], none⟩, ⟨[("x", .null)], none⟩, ⟨[("n", .bool true)], some 0⟩]⟩, "",
      .seeded 0⟩
  have hs' : ((Term.body returnClosure).eval 9 0 s).after = some s' := by cbv
  have hf : ((Term.body returnClosure).eval 9 0 s).carried = some f := by cbv
  obtain ⟨hsame, -, hcarried, hapart⟩ := confined_to_reachable hs (by decide) hs'
  have h1 : ¬s.heap.Reaches (· = 0) 1 := fun h => absurd (hroot h) (by decide)
  obtain ⟨-, hreach, hstill⟩ := hapart 1 (by decide) fun c hc hc' => by
    exact absurd ((hroot hc).symm.trans (hroot hc')) (by decide)
  exact ⟨s', hs', h1, hsame 1 (by decide) h1, hreach, hstill, f, hf, hcarried f hf⟩

end Nut
