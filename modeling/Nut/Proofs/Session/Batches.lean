import Nut.Proofs.Evaluation.Apart
import Nut.Proofs.Lexing.Seams
import Nut.Proofs.Parsing.Isolation
import Nut.Proofs.Session.Runs

/-! Texts that are run as one, and texts that are run one after the other. -/

namespace Nut

namespace Program

variable {A B : String} {p : Program}

lemma ofText_append (hA : ofText A = .ok p) (hl : (tokenize A).getLast? = some .semicolon) :
    ofText (A ++ B) = (ofText B).map (p ++ ·) := by
  have hp := ofTokens_eq_ok.mp hA
  have herrors (found : List Entry) : errors (p.map .ok ++ found) = errors found := by
    simp [errors]
  have hstatements (found : List Entry) :
      statements (p.map .ok ++ found) = p ++ statements found := by
    simp [statements]
  rw [ofText, tokenize_append hl rfl, ofTokens_eq, allEntries_append_accepted hp hl, hp, herrors,
    hstatements, ofText, ofTokens_eq]
  split <;> rfl

end Program

section Sequences

variable {f : Stmt → Eval Value} {p q : List Stmt} {s t : State} {v w : Value} {signal : Signal}

lemma evalSequence_append (h : evalSequence f w p s = .normal v t) :
    evalSequence f w (p ++ q) s = evalSequence f v q t := by
  rw [evalSequence_append_bind]
  exact Eval.bind_normal h

lemma evalSequence_append_unwound (h : evalSequence f w p s = .unwound signal t) :
    evalSequence f w (p ++ q) s = .unwound signal t := by
  rw [evalSequence_append_bind]
  exact Eval.bind_unwound h

end Sequences

section Output

variable {s : State}

lemma Verdict.ofOutcome_snd (o : Outcome Value) : (ofOutcome s o).2 = o.after.getD s := by
  cases o with
  | unwound signal => cases signal <;> rfl
  | normal | exhausted => rfl

lemma Verdict.ofOutcome_fst (s t : State) (o : Outcome Value) :
    (ofOutcome s o).1 = (ofOutcome t o).1 := by
  cases o with
  | unwound signal => cases signal <;> rfl
  | normal | exhausted => rfl

lemma Verdict.ofOutcome_of_ended {s t : State} {o : Outcome Value}
    (h : (ofOutcome t o).1 ≠ .unfinished) : ofOutcome s o = ofOutcome t o := by
  cases o with
  | exhausted => exact absurd rfl h
  | unwound signal => cases signal <;> rfl
  | normal => rfl

lemma run_printed (steps scope : Nat) (source : String) (s : State) :
    ∃ text, (run steps scope source s).2.output = s.output ++ text := by
  cases h : Program.ofText source with
  | error es =>
    rw [run_of_error h]
    exact ⟨"", by simp⟩
  | ok p =>
    rw [run_of_ok h, Verdict.ofOutcome_snd]
    cases ho : (Program.eval steps scope p s).after with
    | none => exact ⟨"", by simp⟩
    | some t =>
      have L : (Coupling.apart Eq s s).Lawful .all .all := Coupling.lawful_sameDraws
      have hmeet := L.program rfl ⟨rfl, rfl⟩ p steps scope
      rcases hmeet.state_after ho with he | ⟨-, -, -, -, -, -, text, -, ht⟩
      · rw [show Program.eval steps scope p s = .exhausted from he] at ho
        cases ho
      · exact ⟨text, ht⟩

end Output

/-- A run of `A ++ B`, where `p` is the program of `A`. -/
structure Batch (steps scope : Nat) (A B : String) (p : Program) (s : State) : Prop where
  completed {v : Value} {t : State} : (Term.body p).eval steps scope s = .normal v t →
    run steps scope A s = (.value v, t) ∧
      (run steps scope (A ++ B) s).1 = (run steps scope B t).1 ∧
      ((run steps scope B t).1 ≠ .unfinished → run steps scope (A ++ B) s = run steps scope B t ∧
        ∃ a b, t.output = s.output ++ a ∧ (run steps scope B t).2.output = t.output ++ b ∧
          (run steps scope (A ++ B) s).2.output = s.output ++ (a ++ b))
  unwound {signal : Signal} {t : State} : (Term.body p).eval steps scope s = .unwound signal t →
    run steps scope (A ++ B) s = run steps scope A s

lemma batch {A B : String} {p q : Program} {steps scope : Nat} {s : State}
    (hA : Program.ofText A = .ok p) (hB : Program.ofText B = .ok q)
    (hjoined : Program.ofText (A ++ B) = .ok (p ++ q)) (hq : q ≠ []) :
    Batch steps scope A B p s where
  completed {v t} h := by
    have heval : Program.eval steps scope (p ++ q) s = Program.eval steps scope q t := by
      obtain ⟨d, q, rfl⟩ := List.exists_cons_of_ne_nil hq
      rw [Program.eval, Eval.catchReturn, evalSequence_append h]
      rfl
    have hrun : run steps scope A s = (.value v, t) := by
      rw [run_of_ok hA, Program.eval, Eval.catchReturn, show evalSequence _ _ p s = _ from h]
      rfl
    obtain ⟨a, ha⟩ := run_printed steps scope A s
    obtain ⟨b, hb⟩ := run_printed steps scope B t
    rw [hrun] at ha
    refine ⟨hrun, ?_, fun hended => ?_⟩
    · rw [run_of_ok hjoined, run_of_ok hB, heval, Verdict.ofOutcome_fst]
    · have hboth : run steps scope (A ++ B) s = run steps scope B t := by
        rw [run_of_ok hB] at hended ⊢
        rw [run_of_ok hjoined, heval, Verdict.ofOutcome_of_ended hended]
      refine ⟨hboth, a, b, ha, hb, ?_⟩
      rw [hboth, hb, ha, String.append_assoc]
  unwound {signal t} h := by
    have hp : evalSequence (Stmt.eval steps scope) .null p s = .unwound signal t := h
    have heval : Program.eval steps scope (p ++ q) s = Program.eval steps scope p s := by
      rw [Program.eval, Program.eval, Eval.catchReturn_unwound hp,
        Eval.catchReturn_unwound (evalSequence_append_unwound hp)]
    rw [run_of_ok hjoined, run_of_ok hA, heval]

theorem run_append {A B : String} {p : Program} (hA : Program.ofText A = .ok p)
    (hl : (tokenize A).getLast? = some .semicolon) :
    (∀ q, Program.ofText B = .ok q → q ≠ [] → Program.ofText (A ++ B) = .ok (p ++ q) ∧
      ∀ steps scope s, Batch steps scope A B p s) ∧
    ∀ es, Program.ofText B = .error es → es ≠ [] ∧
      ∀ steps scope s, run steps scope (A ++ B) s = (.rejected es, s) := by
  have hjoined := Program.ofText_append (B := B) hA hl
  refine ⟨fun q hB hq => ?_, fun es hB => ⟨Program.errors_ne_nil hB, fun steps scope s => ?_⟩⟩
  · rw [hB] at hjoined
    exact ⟨hjoined, fun steps scope s => batch hA hB hjoined hq⟩
  · rw [hB] at hjoined
    exact run_of_error hjoined

def printAndAdd : Program :=
  [.expr (.call (.ident "puts") [.ident "x"]), .expr (.infixOp (.ident "x") .add (.int 1))]

def twoBound : State := ⟨⟨#[⟨[("x", .int 2)], none⟩]⟩, "", .seeded 0⟩

theorem run_append_printAndAdd :
    let s := State.initial 0
    run 9 0 "x := 2;" s = (.value .null, twoBound) ∧
      run 9 0 "puts(x); x + 1" twoBound = (.value (.int 3), { twoBound with output := "2\n" }) ∧
      run 9 0 ("x := 2;" ++ "puts(x); x + 1") s =
        (.value (.int 3), { twoBound with output := "2\n" }) ∧
      (run 9 0 ("x := 2;" ++ "let = 1") s).2 = s ∧
      run 9 0 ("return 2;" ++ "puts(x); x + 1") s = (.value (.int 2), s) := by
  intro s
  have hA : Program.ofText "x := 2;" = .ok [.declare "x" (.int 2)] := by cbv
  have hB : Program.ofText "puts(x); x + 1" = .ok printAndAdd := by cbv
  have hA' : Program.ofText "return 2;" = .ok [.result (.int 2)] := by cbv
  have hfirst : (Term.body [.declare "x" (.int 2)]).eval 9 0 s = .normal .null twoBound := by cbv
  have hsecond : run 9 0 "puts(x); x + 1" twoBound =
      (.value (.int 3), { twoBound with output := "2\n" }) := by cbv
  have hunwound : (Term.body [.result (.int 2)]).eval 9 0 s = .unwound (.returned (.int 2)) s := by
    cbv
  obtain ⟨es, hes⟩ : ∃ es, Program.ofText "let = 1" = .error es := ⟨_, by cbv⟩
  obtain ⟨haccepted, -⟩ := run_append (B := "puts(x); x + 1") hA (by cbv)
  obtain ⟨-, hrejected⟩ := run_append (B := "let = 1") hA (by cbv)
  obtain ⟨hreturned, -⟩ := run_append (B := "puts(x); x + 1") hA' (by cbv)
  obtain ⟨hrun, -, hboth⟩ := ((haccepted _ hB (List.cons_ne_nil _ _)).2 9 0 s).completed hfirst
  have hreturn : run 9 0 "return 2;" s = (.value (.int 2), s) := by cbv
  refine ⟨hrun, hsecond, ?_, ?_, ?_⟩
  · rw [← hsecond]
    exact (hboth (by simp [hsecond])).1
  · rw [(hrejected es hes).2]
  · rw [← hreturn]
    exact ((hreturned _ hB (List.cons_ne_nil _ _)).2 9 0 s).unwound hunwound

end Nut
