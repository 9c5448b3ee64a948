import Nut.Proofs.Evaluation.Invariants

/-! Names are declared where a declaration stands, and in scopes made for blocks, loops and calls. -/

namespace Nut

/-- The evaluation does not come to its end when this one binding cannot be assigned. -/
def Term.Assigns (t : Term) (steps scope : Nat) (s : State) (d : Nat) (x : String) : Prop :=
  t.evalWith (.sparing fun a y => a == d && y == x) steps scope s = .exhausted

namespace Heap

/-- Any name in scopes made since there were `n`, and some in the scope `c`. -/
def Local (n c : Nat) (names : List String) (d : Nat) (x : String) : Prop :=
  n ≤ d ∨ d = c ∧ x ∈ names

variable {h₀ : Heap} {c : Nat} {names : List String}

lemma names_assigned {h : Heap} {s d : Nat} {x : String} (v : Value)
    (hd : h.nearest? s x = some d) (t : Nat) : (h.declare d x v).names t = h.names t := by
  have hx : x ∈ h.names d := h.mem_names d x |>.mpr (h.nearest?_isSome s x hd).2
  rw [names_declare, if_neg (by simp [hx])]

lemma invariant_names : Invariant (Local h₀.size c names) (fun _ _ => false) fun h =>
    h₀.size ≤ h.size ∧ ∀ d < h₀.size, ∃ new, h.names d = h₀.names d ++ new ∧
      ∀ x ∈ new, d = c ∧ x ∈ names where
  extend outer := by
    rintro ⟨hsize, hnames⟩
    refine ⟨⟨by simp; omega, ?_⟩, fun x => .inl hsize⟩
    simpa using hnames
  declare {h s x} v := by
    rintro ⟨hsize, hnames⟩ ho
    refine ⟨by simpa using hsize, fun d hd => ?_⟩
    obtain ⟨new, hnew, hin⟩ := hnames d hd
    rw [names_declare]
    split
    · next hx =>
      obtain ⟨rfl, -, -⟩ := hx
      refine ⟨new ++ [x], by rw [hnew, List.append_assoc], fun y hy => ?_⟩
      rcases List.mem_append.mp hy with hy | hy
      · exact hin y hy
      · obtain rfl := List.mem_singleton.mp hy
        exact ho.resolve_left (by omega)
    · exact ⟨new, hnew, hin⟩
  assign {h s d x} v := by
    rintro ⟨hsize, hnames⟩ hd -
    refine ⟨by simpa using hsize, ?_⟩
    simpa only [names_assigned v hd] using hnames

lemma invariant_local {d : Nat} {x : String} (hd : d < h₀.size) (hx : ¬(d = c ∧ x ∈ names)) :
    Invariant (Local h₀.size c names) (fun a y => a == d && y == x) fun h =>
      h₀.size ≤ h.size ∧ h.local? d x = h₀.local? d x where
  extend outer := by
    rintro ⟨hsize, hlocal⟩
    exact ⟨⟨by simp; omega, by simpa using hlocal⟩, fun y => .inl hsize⟩
  declare {h s y} v := by
    rintro ⟨hsize, hlocal⟩ ho
    refine ⟨by simpa using hsize, ?_⟩
    rw [local?_declare, if_neg, hlocal]
    rintro ⟨rfl, rfl, -⟩
    exact ho.elim (by omega) hx
  assign {h s a y} v := by
    rintro ⟨hsize, hlocal⟩ - hsp
    refine ⟨by simpa using hsize, ?_⟩
    rw [local?_declare, if_neg, hlocal]
    rintro ⟨rfl, rfl, -⟩
    simp at hsp

end Heap

theorem names_after {t : Term} {steps scope : Nat} {s s' : State} (hscope : scope < s.heap.size)
    (h : (t.eval steps scope s).after = some s') :
    (∀ d < s.heap.size, d ≠ scope → s'.heap.names d = s.heap.names d) ∧
      (∃ new ⊆ t.declares, s'.heap.names scope = s.heap.names scope ++ new) ∧
      (t.declares = [] → s'.heap.names scope = s.heap.names scope) ∧
      ∀ d < s.heap.size, ∀ x, (d = scope → x ∉ t.declares) →
        s'.heap.local? d x ≠ s.heap.local? d x → t.Assigns steps scope s d x := by
  have hown : ∀ x ∈ t.declares, Heap.Local s.heap.size scope t.declares scope x :=
    fun x hx => .inr ⟨rfl, hx⟩
  obtain ⟨-, hnames⟩ := Heap.invariant_names.after ⟨le_rfl, fun d _ => ⟨[], by simp⟩⟩ hown h
  obtain ⟨new, hnew, hin⟩ := hnames scope hscope
  refine ⟨fun d hd hne => ?_, ⟨new, fun x hx => (hin x hx).2, hnew⟩, fun hempty => ?_, ?_⟩
  · obtain ⟨new, hnew, hin⟩ := hnames d hd
    cases new with
    | nil => simpa using hnew
    | cons x new => exact absurd (hin x (by simp)).1 hne
  · cases new with
    | nil => simpa using hnew
    | cons x new => exact absurd (hin x (by simp)).2 (by simp [hempty])
  · intro d hd x hx hchanged
    have hlocal := Heap.invariant_local hd (x := x) fun ⟨hdc, hmem⟩ => hx hdc hmem
    rcases hlocal.after_sparing ⟨le_rfl, rfl⟩ hown h with ha | ⟨-, hsame⟩
    · exact ha
    · exact absurd hsame hchanged

def setOuter : Expr :=
  .function [] [.expr (.assign "x" (.bool true)), .declare "y" (.bool true)]

/-- A closure that assigns an outer name is called in a loop, and then a name is unknown. -/
def callThenFail : List Stmt :=
  [.declare "f" setOuter,
    .loop (.declare "go" (.bool true)) (.ident "go") (.expr (.assign "go" (.bool false)))
      [.declare "z" (.call (.ident "f") [])],
    .expr (.ident "unknown")]

theorem names_after_callThenFail :
    let s : State := ⟨⟨#[⟨[("x", .null)], none⟩, ⟨[], some 0⟩]⟩, "", .seeded 0⟩
    ∃ s', ((Term.body callThenFail).eval 9 1 s).after = some s' ∧
      s'.heap.local? 0 "x" = some (.bool true) ∧ s'.heap.names 0 = s.heap.names 0 ∧
      (∃ new ⊆ ["f"], s'.heap.names 1 = s.heap.names 1 ++ new) ∧
      (Term.body callThenFail).Assigns 9 1 s 0 "x" := by
  intro s
  let f : Value := .function [] [.expr (.assign "x" (.bool true)), .declare "y" (.bool true)] 1
  let s' : State :=
    ⟨⟨#[⟨[("x", .bool true)], none⟩, ⟨[("f", f)], some 0⟩, ⟨[("go", .bool false)], some 1⟩,
      ⟨[("z", .null)], some 2⟩, ⟨[("y", .bool true)], some 1⟩]⟩, "", .seeded 0⟩
  have hs' : ((Term.body callThenFail).eval 9 1 s).after = some s' := by cbv
  obtain ⟨hother, hscope, -, hassigned⟩ := names_after (by decide) hs'
  refine ⟨s', hs', rfl, hother 0 (by decide) (by decide), hscope, ?_⟩
  refine hassigned 0 (by decide) "x" (by decide) fun h => ?_
  cases h

end Nut
