import Nut.Proofs.Parsing.Entries
import Nut.Proofs.Parsing.Takes

/-! The rules use one another on fewer and fewer tokens, or on the same ones in order of rank, so
reading ends whatever the tokens are. -/

namespace Nut

namespace Parse

variable {α : Type}

/-- A use of `p` elsewhere never comes to an end, and nothing that it is a part of does. -/
def only (admitted : List Token → Prop) [DecidablePred admitted] (p : Parse α) : Parse α := fun ts =>
  if admitted ts then p ts else .exhausted

lemma Agree.only {k n : Nat} {p q : Parse α} {admitted : List Token → Prop} [DecidablePred admitted]
    (hp : Agree k n p q) (h : ∀ ts, ts.length ≤ n → admitted ts) : Agree k n p (p.only admitted) := by
  intro ts hn
  obtain ⟨-, hx, hr⟩ := hp ts hn
  exact ⟨(if_pos (h ts hn)).symm, hx, hr⟩

end Parse

namespace Rules

namespace Rank

def expression : Nat := 1
def infixes : Nat := 1
def elements : Nat := 2
def pairs : Nat := 2
def statement : Nat := 2
def statements : Nat := 3

end Rank

/-- A use of a rule on `ts` is lower than one of rank `r` on `n` tokens. -/
def Lower (n r rank : Nat) (ts : List Token) : Prop :=
  ts.length < n ∨ ts.length = n ∧ rank < r

instance (n r rank : Nat) : DecidablePred (Lower n r rank) := fun _ =>
  inferInstanceAs (Decidable (_ ∨ _))

def below (g : Rules) (n r : Nat) : Rules where
  statement := g.statement.only (Lower n r Rank.statement)
  statements := g.statements.only (Lower n r Rank.statements)
  expression floor := (g.expression floor).only (Lower n r Rank.expression)
  infixes floor left := (g.infixes floor left).only (Lower n r Rank.infixes)
  elements close := (g.elements close).only (Lower n r Rank.elements)
  pairs := g.pairs.only (Lower n r Rank.pairs)

/-- Each rule comes to its result by lower uses of the rules alone, and each turn of a loop takes a
token at least: the turns of the loops over statements, pairs, elements and operators are uses of
one rule, and the loop over parameters takes two tokens a turn. -/
structure Descends (g : Rules) : Prop where
  statement (ts : List Token) :
    Parse.AgreeOn 1 g.statement (g.below ts.length Rank.statement).deeper.statement ts
  statements (ts : List Token) :
    Parse.AgreeOn 1 g.statements (g.below ts.length Rank.statements).deeper.statements ts
  expression (floor : Nat) (ts : List Token) :
    Parse.AgreeOn 1 (g.expression floor)
      ((g.below ts.length Rank.expression).deeper.expression floor) ts
  infixes (floor : Nat) (left : Expr) (ts : List Token) :
    Parse.AgreeOn 0 (g.infixes floor left)
      ((g.below ts.length Rank.infixes).deeper.infixes floor left) ts
  elements (close : Token) (ts : List Token) :
    Parse.AgreeOn 1 (g.elements close)
      ((g.below ts.length Rank.elements).deeper.elements close) ts
  pairs (ts : List Token) :
    Parse.AgreeOn 1 g.pairs (g.below ts.length Rank.pairs).deeper.pairs ts
  parameters (ts : List Token) : parameterNames ts ≠ .exhausted ∧ ∀ names rest,
    parameterNames ts = .done names rest → ts.length = rest.length + 2 * names.length

lemma lower_of_le {d n r rank : Nat} (hd : d < 3 * n + r) (hr : r ≤ 3) {m : Nat}
    (hm : 3 * m + rank ≤ d) (h : 0 < rank) : ∀ ts : List Token, ts.length ≤ m → Lower n r rank ts := by
  intro ts hts
  unfold Lower
  omega

lemma agree_below {d n r : Nat} (hd : d < 3 * n + r) (hr : r ≤ 3) :
    Agree unbounded (unbounded.below n r) d where
  statement hm := ((agree_unbounded d).statement hm).only (lower_of_le hd hr hm (by decide))
  statements hm := ((agree_unbounded d).statements hm).only (lower_of_le hd hr hm (by decide))
  expression floor hm :=
    ((agree_unbounded d).expression floor hm).only (lower_of_le hd hr hm (by decide))
  infixes floor left hm :=
    ((agree_unbounded d).infixes floor left hm).only (lower_of_le hd hr hm (by decide))
  elements close hm :=
    ((agree_unbounded d).elements close hm).only (lower_of_le hd hr hm (by decide))
  pairs hm := ((agree_unbounded d).pairs hm).only (lower_of_le hd hr hm (by decide))

lemma agree_deeper {n r : Nat} (hr : 0 < r) (hr' : r ≤ 3) :
    Agree unbounded (unbounded.below n r).deeper (3 * n + r) := by
  -- Agreement at a depth weighs a token as three ranks, so the depths below are the lower uses.
  obtain ⟨d, hd⟩ : ∃ d, 3 * n + r = d + 1 := ⟨3 * n + r - 1, by omega⟩
  have ha := (agree_below (d := d) (n := n) (r := r) (by omega) hr').deeper
  rwa [deeper_unbounded, ← hd] at ha

lemma length_parameterNames {ts rest : List Token} {names : List String}
    (h : parameterNames ts = .done names rest) : ts.length = rest.length + 2 * names.length := by
  fun_induction parameterNames ts generalizing names with
  | case1 name ts names' rest' hn ih =>
    cases h
    simp only [List.length_cons, ih hn]
    omega
  | case4 name ts hts =>
    obtain ⟨_, mid, hr, ⟨⟩⟩ := Parse.bind_eq_done.mp h
    obtain ⟨_, rfl, rfl⟩ := Parse.Takes.expect _ _ _ _ hr
    simp
  | case2 | case3 | case5 | case6 => cases h

lemma descends_unbounded : unbounded.Descends where
  statement ts := (agree_deeper (by decide) (by decide)).statement (Nat.le_refl _) ts (Nat.le_refl _)
  statements ts := (agree_deeper (by decide) (by decide)).statements (Nat.le_refl _) ts (Nat.le_refl _)
  expression floor ts :=
    (agree_deeper (by decide) (by decide)).expression floor (Nat.le_refl _) ts (Nat.le_refl _)
  infixes floor left ts :=
    (agree_deeper (by decide) (by decide)).infixes floor left (Nat.le_refl _) ts (Nat.le_refl _)
  elements close ts :=
    (agree_deeper (by decide) (by decide)).elements close (Nat.le_refl _) ts (Nat.le_refl _)
  pairs ts := (agree_deeper (by decide) (by decide)).pairs (Nat.le_refl _) ts (Nat.le_refl _)
  parameters ts := by
    refine ⟨?_, fun names rest => length_parameterNames⟩
    exact (Agree.parameterNames ts (Nat.le_refl _)).2.1

end Rules

namespace Program

/-- The entries of a token list, where every turn of the loop over statements leaves fewer tokens to
the next one. -/
inductive Reads (g : Rules) : List Token → List Entry → Prop
  | nil : Reads g [] []
  | done {ts rest s found} : g.statement ts = .done s rest → rest.length < ts.length →
      Reads g rest found → Reads g ts (.ok s :: found)
  | failed {ts rest error found} : ts ≠ [] → g.statement ts = .failed error rest →
      (Recovery.resume ts rest).length < ts.length → Reads g (Recovery.resume ts rest) found →
      Reads g ts (.error error :: found)

lemma reads_allEntries (ts : List Token) : Reads Rules.unbounded ts (allEntries ts) := by
  match ts with
  | [] => exact .nil
  | t :: ts =>
    cases hs : Rules.unbounded.statement (t :: ts) with
    | done s rest =>
      have hlen := Rules.length_statement_lt hs
      rw [allEntries_done hs]
      exact .done hs hlen (reads_allEntries rest)
    | failed error rest =>
      have hlen := Recovery.length_resume_lt rest (List.cons_ne_nil t ts)
      rw [allEntries_failed hs]
      exact .failed (List.cons_ne_nil t ts) hs hlen (reads_allEntries _)
    | exhausted => exact absurd hs (statement_ne_exhausted _)
termination_by ts.length
decreasing_by all_goals assumption

end Program

open Rules (unbounded nested)

theorem reading_ends :
    (∀ g : Rules, g.deeper = g ↔ g = unbounded) ∧ unbounded.Descends ∧
      ∀ ts, ∃ found, Program.Reads unbounded ts found ∧
        (∀ more extra, Program.entries (nested (3 * ts.length + 3 + more)) (ts.length + extra) ts =
          found) ∧
        Program.ofTokens ts =
          if (Program.errors found).isEmpty then .ok (Program.statements found)
          else .error (Program.errors found) := by
  refine ⟨fun g => Rules.deeper_eq_self_iff, Rules.descends_unbounded, fun ts => ?_⟩
  refine ⟨Program.allEntries ts, Program.reads_allEntries ts, fun more extra => ?_,
    Program.ofTokens_eq ts⟩
  have hdepth : Rules.enough ts ≤ 3 * ts.length + 3 + more := Nat.le_add_right _ more
  rw [Program.entries_nested ts _ hdepth]
  exact Program.entries_congr (Nat.le_add_right _ extra) (Nat.le_refl _)

end Nut
