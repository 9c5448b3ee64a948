import Nut.Proofs.Parsing.Depth

/-! The entries of a token list, one statement or one error after the other. -/

namespace Nut

namespace Recovery

lemma length_dropTerminator_le (ts : List Token) : (dropTerminator ts).length ≤ ts.length := by
  fun_cases dropTerminator ts <;> simp

lemma length_skip_lt (d : Nat) {ts : List Token} (h : ts ≠ []) :
    (skip d ts).length < ts.length := by
  induction ts generalizing d with
  | nil => exact absurd rfl h
  | cons t ts ih =>
    have hle (d : Nat) : (skip d ts).length ≤ ts.length := by
      by_cases hts : ts = []
      · simp [hts, skip]
      · exact Nat.le_of_lt (ih d hts)
    have hdrop := length_dropTerminator_le ts
    have hskip := hle (d - 1)
    have hsame := hle d
    have hstep := hle (step d t)
    unfold skip
    split <;> grind

lemma length_resume_lt {ts : List Token} (rest : List Token) (h : ts ≠ []) :
    (resume ts rest).length < ts.length := by
  have hpos := List.length_pos_iff.mpr h
  unfold resume
  refine Nat.lt_of_lt_of_le (length_skip_lt _ ?_) (by simp)
  simp only [ne_eq, List.drop_eq_nil_iff]
  omega

end Recovery

namespace Program

open Rules (unbounded nested enough)

def allEntries (ts : List Token) : List Entry :=
  entries unbounded ts.length ts

lemma entries_nested (ts : List Token) {n : Nat} (k : Nat) (hn : enough ts ≤ n) :
    entries (nested n) k ts = entries unbounded k ts := by
  induction k generalizing ts with
  | zero => simp [entries]
  | succ k ih =>
    match ts with
    | [] => simp [entries]
    | t :: ts =>
      obtain ⟨he, hx, hl⟩ := Rules.statement_nested _ hn
      have hless {rest : List Token} (hr : rest.length < (t :: ts).length) : enough rest ≤ n := by
        unfold enough at hn ⊢
        omega
      simp only [entries, ← he]
      cases hs : unbounded.statement (t :: ts) with
      | done s rest => simp only [ih _ (hless (hl s rest hs))]
      | failed error rest => simp only [ih _ (hless (Recovery.length_resume_lt rest (by simp)))]
      | exhausted => exact absurd hs hx

lemma entries_congr {ts : List Token} {k m : Nat} (hk : ts.length ≤ k) (hm : ts.length ≤ m) :
    entries unbounded k ts = entries unbounded m ts := by
  induction k generalizing ts m with
  | zero =>
    obtain rfl := List.eq_nil_of_length_eq_zero (Nat.le_zero.mp hk)
    cases m <;> simp [entries]
  | succ k ih =>
    match ts, m with
    | [], 0 | [], m + 1 => simp [entries]
    | t :: ts, m + 1 =>
      obtain ⟨-, -, hl⟩ := Rules.statement_nested (t :: ts) (Nat.le_refl _)
      have hrest {rest : List Token} (hr : rest.length < (t :: ts).length) :
          entries unbounded k rest = entries unbounded m rest := by
        rw [List.length_cons] at *
        exact ih (by omega) (by omega)
      simp only [entries]
      cases hs : unbounded.statement (t :: ts) with
      | done s rest => simp only [hrest (hl s rest hs)]
      | failed error rest => simp only [hrest (Recovery.length_resume_lt rest (by simp))]
      | exhausted => rfl

lemma allEntries_nil : allEntries [] = [] := rfl

lemma allEntries_done {ts rest : List Token} {s : Stmt} (h : unbounded.statement ts = .done s rest) :
    allEntries ts = .ok s :: allEntries rest := by
  obtain ⟨-, -, hl⟩ := Rules.statement_nested ts (Nat.le_refl _)
  have hlen := hl s rest h
  match ts with
  | [] => simp at hlen
  | t :: ts =>
    rw [List.length_cons] at hlen
    simp only [allEntries, List.length_cons, entries, h]
    rw [entries_congr (by omega) (Nat.le_refl rest.length)]

lemma allEntries_failed {t : Token} {ts rest : List Token} {error : ParseError}
    (h : unbounded.statement (t :: ts) = .failed error rest) :
    allEntries (t :: ts) = .error error :: allEntries (Recovery.resume (t :: ts) rest) := by
  have hlen := Recovery.length_resume_lt rest (List.cons_ne_nil t ts)
  rw [List.length_cons] at hlen
  simp only [allEntries, List.length_cons, entries, h]
  rw [entries_congr (by omega) (Nat.le_refl _)]

lemma statement_ne_exhausted (ts : List Token) : unbounded.statement ts ≠ .exhausted :=
  (Rules.statement_nested ts (Nat.le_refl _)).2.1

lemma allEntries_eq_nil {ts : List Token} : allEntries ts = [] ↔ ts = [] := by
  refine ⟨fun h => ?_, fun h => h ▸ allEntries_nil⟩
  cases ts with
  | nil => rfl
  | cons t ts =>
    cases hs : unbounded.statement (t :: ts) with
    | done s rest => simp [allEntries_done hs] at h
    | failed error rest => simp [allEntries_failed hs] at h
    | exhausted => exact absurd hs (statement_ne_exhausted _)

lemma allEntries_eq_cons {ts : List Token} {s : Stmt} {found : List Entry} :
    allEntries ts = .ok s :: found ↔
      ∃ rest, unbounded.statement ts = .done s rest ∧ allEntries rest = found := by
  constructor
  · intro h
    cases ts with
    | nil => simp [allEntries_nil] at h
    | cons t ts =>
      cases hs : unbounded.statement (t :: ts) with
      | done s' rest =>
        rw [allEntries_done hs] at h
        obtain ⟨⟨⟩, hr⟩ := List.cons.inj h
        exact ⟨rest, rfl, hr⟩
      | failed error rest => simp [allEntries_failed hs] at h
      | exhausted => exact absurd hs (statement_ne_exhausted _)
  · rintro ⟨rest, hs, rfl⟩
    exact allEntries_done hs

lemma ofTokens_eq (ts : List Token) :
    ofTokens ts =
      if (errors (allEntries ts)).isEmpty then .ok (statements (allEntries ts))
      else .error (errors (allEntries ts)) := by
  have hn := entries_nested ts ts.length (Nat.le_refl _)
  unfold ofTokens allEntries
  dsimp only [enough] at hn ⊢
  rw [hn]

lemma map_ok_statements {found : List Entry} (h : errors found = []) :
    (statements found).map .ok = found := by
  induction found with
  | nil => rfl
  | cons entry found ih =>
    cases entry with
    | ok s => simp_all [errors, statements]
    | error e => simp [errors] at h

@[simp] lemma errors_map_ok (p : Program) : errors (p.map .ok) = [] := by
  simp [errors]

@[simp] lemma statements_map_ok (p : Program) : statements (p.map .ok) = p := by
  simp [statements]

lemma ofTokens_eq_ok {ts : List Token} {p : Program} :
    ofTokens ts = .ok p ↔ allEntries ts = p.map .ok := by
  rw [ofTokens_eq]
  constructor
  · intro h
    split at h
    · next he =>
      obtain rfl := Except.ok.inj h
      exact (map_ok_statements (List.isEmpty_iff.mp he)).symm
    · cases h
  · intro h
    simp [h]

end Program

end Nut
