import Nut.Proofs.Parsing.Agreement

/-! Three rules at most take turns on one token, so a depth of three for each token is enough, and
the rules of that depth are tied together for good. -/

namespace Nut.Rules

lemma agree_zero (g h : Rules) : Agree g h 0 where
  statement hn := by omega
  statements hn := by omega
  expression floor hn := by omega
  infixes floor left hn := by omega
  elements close hn := by omega
  pairs hn := by omega

lemma agree_nested {d m n : Nat} (hm : d ≤ m) (hn : d ≤ n) : Agree (nested m) (nested n) d := by
  induction d generalizing m n with
  | zero => exact agree_zero _ _
  | succ d ih =>
    obtain ⟨m, rfl⟩ : ∃ k, m = k + 1 := ⟨m - 1, by omega⟩
    obtain ⟨n, rfl⟩ : ∃ k, n = k + 1 := ⟨n - 1, by omega⟩
    exact (ih (by omega) (by omega)).deeper

def enough (ts : List Token) : Nat := 3 * ts.length + 3

def unbounded : Rules where
  statement ts := (nested (enough ts)).statement ts
  statements ts := (nested (enough ts)).statements ts
  expression floor ts := (nested (enough ts)).expression floor ts
  infixes floor left ts := (nested (enough ts)).infixes floor left ts
  elements close ts := (nested (enough ts)).elements close ts
  pairs ts := (nested (enough ts)).pairs ts

lemma agree_enough {α : Type} {k r d n : Nat} (part : Rules → Parse α) (hr : r ≤ 3)
    (hp : ∀ g h d n, Agree g h d → 3 * n + r ≤ d → Parse.Agree k n (part g) (part h))
    (hn : 3 * n + r ≤ d) :
    Parse.Agree k n (fun ts => part (nested (enough ts)) ts) (part (nested d)) := by
  intro ts hts
  have hd : 3 * ts.length + r ≤ d := by omega
  have he : 3 * ts.length + r ≤ enough ts := by simp [enough, hr]
  exact hp _ _ _ _ (agree_nested he hd) (Nat.le_refl _) ts (Nat.le_refl _)

lemma agree_unbounded (d : Nat) : Agree unbounded (nested d) d where
  statement hn := agree_enough statement (by omega) (fun _ _ _ _ hr => hr.statement) hn
  statements hn := agree_enough statements (by omega) (fun _ _ _ _ hr => hr.statements) hn
  expression floor hn :=
    agree_enough (·.expression floor) (by omega) (fun _ _ _ _ hr => hr.expression floor) hn
  infixes floor left hn :=
    agree_enough (·.infixes floor left) (by omega) (fun _ _ _ _ hr => hr.infixes floor left) hn
  elements close hn :=
    agree_enough (·.elements close) (by omega) (fun _ _ _ _ hr => hr.elements close) hn
  pairs hn := agree_enough pairs (by omega) (fun _ _ _ _ hr => hr.pairs) hn

lemma eq_of_agree {g h : Rules} (hg : ∀ d, Agree g (nested d) d) (hh : ∀ d, Agree h (nested d) d) :
    g = h := by
  have hn (ts : List Token) {r : Nat} (hr : r ≤ 3) : 3 * ts.length + r ≤ enough ts := by
    simp [enough, hr]
  have he {α : Type} {k l : Nat} {p q r : Parse α} {ts : List Token}
      (hp : Parse.Agree k ts.length p r) (hq : Parse.Agree l ts.length q r) : p ts = q ts :=
    (hp ts (Nat.le_refl _)).1.trans (hq ts (Nat.le_refl _)).1.symm
  obtain ⟨gs, gss, ge, gi, gel, gp⟩ := g
  obtain ⟨hs, hss, hx, hi, hel, hp⟩ := h
  rw [Rules.mk.injEq]
  refine ⟨funext fun ts => ?_, funext fun ts => ?_, funext fun floor => funext fun ts => ?_,
    funext fun floor => funext fun left => funext fun ts => ?_,
    funext fun close => funext fun ts => ?_, funext fun ts => ?_⟩
  · exact he ((hg _).statement (hn ts (by omega))) ((hh _).statement (hn ts (by omega)))
  · exact he ((hg _).statements (hn ts (by omega))) ((hh _).statements (hn ts (by omega)))
  · exact he ((hg _).expression floor (hn ts (by omega))) ((hh _).expression floor (hn ts (by omega)))
  · exact he ((hg _).infixes floor left (hn ts (by omega))) ((hh _).infixes floor left (hn ts (by omega)))
  · exact he ((hg _).elements close (hn ts (by omega))) ((hh _).elements close (hn ts (by omega)))
  · exact he ((hg _).pairs (hn ts (by omega))) ((hh _).pairs (hn ts (by omega)))

lemma agree_nested_of_fixed {g : Rules} (hg : g.deeper = g) (d : Nat) : Agree g (nested d) d := by
  induction d with
  | zero => exact agree_zero g _
  | succ d ih =>
    have ha := ih.deeper
    rwa [hg] at ha

theorem deeper_unbounded : unbounded.deeper = unbounded := by
  refine eq_of_agree (fun d => ?_) agree_unbounded
  cases d with
  | zero => exact agree_zero _ _
  | succ d => exact (agree_unbounded d).deeper

lemma deeper_eq_self_iff {g : Rules} : g.deeper = g ↔ g = unbounded := by
  constructor
  · intro hg
    exact eq_of_agree (agree_nested_of_fixed hg) agree_unbounded
  · rintro rfl
    exact deeper_unbounded

lemma unbounded_statement : unbounded.statement = unbounded.statementRule :=
  congrArg statement deeper_unbounded.symm

lemma unbounded_statements : unbounded.statements = unbounded.statementsRule :=
  congrArg statements deeper_unbounded.symm

lemma unbounded_expression : unbounded.expression = unbounded.expressionRule :=
  congrArg expression deeper_unbounded.symm

lemma unbounded_infixes : unbounded.infixes = unbounded.infixesRule :=
  congrArg infixes deeper_unbounded.symm

lemma unbounded_elements : unbounded.elements = unbounded.elementsRule :=
  congrArg elements deeper_unbounded.symm

lemma unbounded_pairs : unbounded.pairs = unbounded.pairsRule :=
  congrArg pairs deeper_unbounded.symm

lemma statement_nested (ts : List Token) {n : Nat} (hn : enough ts ≤ n) :
    Parse.AgreeOn 1 unbounded.statement (nested n).statement ts :=
  (agree_unbounded n).statement (n := ts.length) (by simp [enough] at hn; omega) ts (Nat.le_refl _)

lemma length_statement_lt {ts rest : List Token} {s : Stmt}
    (h : unbounded.statement ts = .done s rest) : rest.length < ts.length :=
  (statement_nested ts (Nat.le_refl _)).2.2 s rest h

end Nut.Rules
