import Nut.Proofs.Evaluation.Visits
import Nut.Proofs.Parsing.Entries
import Nut.Proofs.Value.Objects
import Nut.Session.Console

/-! Runs of one text after the other: what they leave in the heap, and how they end. -/

namespace Nut

open Relation

namespace Eval

variable {m : Eval Value} {s t : State} {v : Value}

lemma catchReturn_ne_returned : catchReturn m s ≠ .unwound (.returned v) t := by
  rw [catchReturn]
  split
  · simp
  · next h => exact fun hr => h _ _ hr

lemma grounded_catchReturn (h : (m s).Grounded s fun n v => v.Settled n) :
    (catchReturn m s).Grounded s fun n v => v.Settled n := by
  rw [catchReturn]
  split
  · next hr =>
    rw [hr] at h
    cases h with
    | returned he hg hv => exact .normal he hg hv
  · exact h

end Eval

lemma Program.errors_ne_nil {source : String} {es : List ParseError}
    (h : Program.ofText source = .error es) : es ≠ [] := by
  rw [ofText, ofTokens] at h
  split at h
  · cases h
  · next he =>
    cases h
    exact fun hnil => he (by simp [hnil])

section Run

variable {steps scope : Nat} {source : String} {s t : State} {p : Program}

lemma run_of_ok (h : Program.ofText source = .ok p) :
    run steps scope source s = Verdict.ofOutcome s (Program.eval steps scope p s) := by
  rw [run, h]

lemma run_of_error {es : List ParseError} (h : Program.ofText source = .error es) :
    run steps scope source s = (.rejected es, s) := by
  rw [run, h]

lemma Verdict.ofOutcome_onward {o : Outcome Value} (h : o.Grounded s fun n v => v.Settled n)
    (hs : s.heap.Grounded) : s.Onward (ofOutcome s o).2 := by
  cases h with
  | normal he hg _ | returned he hg _ | failed _ he hg => exact ⟨he, hg⟩
  | exhausted => exact .refl hs

lemma run_onward (hs : s.heap.Grounded) (hscope : scope < s.heap.size) :
    s.Onward (run steps scope source s).2 := by
  cases h : Program.ofText source with
  | error es =>
    rw [run_of_error h]
    exact .refl hs
  | ok p =>
    rw [run_of_ok h]
    have hbody := Term.grounded hs hscope (.body p) steps
    exact Verdict.ofOutcome_onward (Eval.grounded_catchReturn hbody) hs

end Run

def runAll (steps : Nat) (sources : List String) (s : State) : State :=
  sources.foldl (fun s source => (run steps 0 source s).2) s

lemma runAll_onward {steps : Nat} {s : State} (sources : List String) (hs : s.heap.Grounded)
    (hscope : 0 < s.heap.size) : s.Onward (runAll steps sources s) := by
  induction sources generalizing s with
  | nil => exact .refl hs
  | cons source sources ih =>
    have h : s.Onward (run steps 0 source s).2 := run_onward hs hscope
    exact h.trans (ih h.grounded (h.lt hscope))

lemma fresh_onward (steps : Nat) (host : Host) (sources : List String) :
    (State.fresh host).Onward (runAll steps sources (State.fresh host)) :=
  runAll_onward sources .initial Nat.zero_lt_one

/-- Every value is sound that is in a scope or comes to be in one, that the evaluation comes to,
that a `return` carries, or that a call passes on. -/
structure Site.Sound (x : Site) : Prop where
  stored {c : Nat} {y : String} {v : Value} : x.state.heap.local? c y = some v →
    v.object.Sound
  left {o : Outcome Value} {t : State} {c : Nat} {y : String} {v : Value} : x.Ends o →
    o.after = some t → t.heap.local? c y = some v → v.object.Sound
  carried {o : Outcome Value} {v : Value} : x.Ends o → o.carried = some v → v.object.Sound
  passed {e : Expr} {es : List Expr} {f : Value} {t u : State} {vs : List Value} :
    x.term = .expr (.call e es) → Site.Ends ⟨.expr e, x.scope, x.state⟩ (.normal f t) →
    AllEnd es x.scope t vs u → ∀ v ∈ vs, v.object.Sound

lemma Site.Grounded.sound {x : Site} (hx : x.Grounded) : x.Sound where
  stored h := Value.sound_object_iff.mpr (hx.heap.sound h)
  left ho ht hv := Value.sound_object_iff.mpr (((ho.grounded hx).after ht).2.sound hv)
  carried ho hv := Value.sound_object_iff.mpr ((ho.grounded hx).carried hv)
  passed _ he hes v hv := by
    have h := Ends.onward he ⟨hx.heap, hx.scope_lt⟩
    have hsettled := (hes.grounded h.grounded (h.lt hx.scope_lt)).2 v hv
    exact Value.sound_object_iff.mpr (Value.settled_iff.mp hsettled).1

def FailsWith (steps : Nat) (source : String) (s : State) (message : String) : Prop :=
  ∃ p fault t, Program.ofText source = .ok p ∧
    Program.eval steps 0 p s = .unwound (.failed fault) t ∧ fault.message = message

/-- What stands on the screen in front of the errors. -/
def troubleText : String :=
  "\n      ___\n    /     \\\n   | () () |\n    \\  ^  /\n     |||||\n" ++
    "\nWoops! That one was a tough nut to crack!\n"

/-- What is shown of a run that leaves `t`, here and in the console, tells how it ended. -/
structure Verdict.Classified (verdict : Verdict) (steps : Nat) (source : String) (s t : State) :
    Prop where
  error_iff (m : String) : (Answer.ofVerdict verdict).object = .error m ↔
    FailsWith steps source s m
  errors_eq (m : String) : FailsWith steps source s m → verdict.errors = [m]
  errors_nil_iff : verdict.errors = [] ↔
    (∃ p, Program.ofText source = .ok p) ∧ ∀ m, ¬FailsWith steps source s m
  failed_shown (m : String) : FailsWith steps source s m →
    (Console.enter steps s source).output =
      t.output ++ (troubleText ++ ("eval error: " ++ m ++ "\n"))
  rejected_shown (es : List ParseError) : Program.ofText source = .error es → es ≠ [] ∧
    verdict.errors = es.map ParseError.message ∧
      (Console.enter steps s source).output = t.output ++
        (troubleText ++ String.join (es.map fun e => "parse error: " ++ e.message ++ "\n"))
  value_shown : (∃ p, Program.ofText source = .ok p) → (∀ m, ¬FailsWith steps source s m) →
    ∃ v, Answer.ofVerdict verdict = .value v ∧
      (Console.enter steps s source).output = t.output ++ (v.text t.host.arrangement ++ "\n")

section Classified

variable {steps : Nat} {source : String} {s t : State}

lemma enter_output {verdict : Verdict} (h : run steps 0 source s = (verdict, t)) :
    (Console.enter steps s source).output =
      t.output ++ Console.reply t.host.arrangement verdict := by
  rw [Console.enter, h]
  rfl

lemma Console.reply_fault (a : Arrangement) (fault : Fault) :
    reply a (.fault fault) = troubleText ++ ("eval error: " ++ fault.message ++ "\n") := by
  show troubleText ++ String.join ["eval error: " ++ fault.message ++ "\n"] = _
  rw [String.join_cons, String.join_nil, String.append_empty]

lemma Console.reply_rejected (a : Arrangement) (es : List ParseError) :
    reply a (.rejected es) =
      troubleText ++ String.join (es.map fun e => "parse error: " ++ e.message ++ "\n") := by
  show troubleText ++ String.join ((es.map _).map _) = _
  rw [List.map_map]
  rfl

lemma classified_rejected {es : List ParseError} (h : Program.ofText source = .error es) :
    (Verdict.rejected es).Classified steps source s s := by
  have hno (m : String) : ¬FailsWith steps source s m := by
    rintro ⟨p, -, -, hp, -⟩
    rw [h] at hp
    cases hp
  have hne := Program.errors_ne_nil h
  refine ⟨fun m => ⟨nofun, fun hm => absurd hm (hno m)⟩, fun m hm => absurd hm (hno m), ?_,
    fun m hm => absurd hm (hno m), ?_, ?_⟩
  · refine ⟨fun hnil => absurd (List.map_eq_nil_iff.mp hnil) hne, ?_⟩
    rintro ⟨⟨p, hp⟩, -⟩
    rw [h] at hp
    cases hp
  · intro fs hfs
    rw [h] at hfs
    cases hfs
    exact ⟨hne, rfl, by rw [enter_output (run_of_error h), Console.reply_rejected]⟩
  · rintro ⟨p, hp⟩
    rw [h] at hp
    cases hp

lemma classified_fault {p : Program} {fault : Fault} (hp : Program.ofText source = .ok p)
    (he : Program.eval steps 0 p s = .unwound (.failed fault) t) :
    (Verdict.fault fault).Classified steps source s t := by
  have hiff (m : String) : FailsWith steps source s m ↔ fault.message = m := by
    constructor
    · rintro ⟨q, f, u, hq, hf, rfl⟩
      cases hp.symm.trans hq
      cases he.symm.trans hf
      rfl
    · exact fun hm => ⟨p, fault, t, hp, he, hm⟩
  have hrun : run steps 0 source s = (.fault fault, t) := by rw [run_of_ok hp, he]; rfl
  refine ⟨fun m => ?_, fun m hm => ?_, ⟨nofun, ?_⟩, fun m hm => ?_, ?_, ?_⟩
  · rw [hiff, Answer.ofVerdict, Answer.object, Object.error.injEq]
  · rw [Verdict.errors, (hiff m).mp hm]
  · exact fun hno => absurd ((hiff _).mpr rfl) (hno.2 _)
  · rw [enter_output hrun, Console.reply_fault, (hiff m).mp hm]
  · intro es hes
    cases hp.symm.trans hes
  · exact fun _ hno => absurd ((hiff _).mpr rfl) (hno _)

lemma classified_value {p : Program} {v : Value} (hp : Program.ofText source = .ok p)
    (he : Program.eval steps 0 p s = .normal v t) :
    (Verdict.value v).Classified steps source s t := by
  have hno (m : String) : ¬FailsWith steps source s m := by
    rintro ⟨q, f, u, hq, hf, -⟩
    cases hp.symm.trans hq
    cases he.symm.trans hf
  have hrun : run steps 0 source s = (.value v, t) := by rw [run_of_ok hp, he]; rfl
  refine ⟨fun m => iff_of_false (v.object_ne_error m) (hno m), fun m hm => absurd hm (hno m),
    ⟨fun _ => ⟨⟨p, hp⟩, hno⟩, fun _ => rfl⟩, fun m hm => absurd hm (hno m), ?_, fun _ _ => ?_⟩
  · intro es hes
    cases hp.symm.trans hes
  · exact ⟨v, rfl, enter_output hrun⟩

lemma classified_run (h : (run steps 0 source s).1 ≠ .unfinished) :
    (run steps 0 source s).1.Classified steps source s (run steps 0 source s).2 := by
  cases hp : Program.ofText source with
  | error es =>
    rw [run_of_error hp]
    exact classified_rejected hp
  | ok p =>
    rw [run_of_ok hp] at h ⊢
    cases he : Program.eval steps 0 p s with
    | normal v t => exact classified_value hp he
    | unwound signal t =>
      cases signal with
      | returned v => exact absurd he Eval.catchReturn_ne_returned
      | failed fault => exact classified_fault hp he
    | exhausted =>
      rw [he] at h
      exact absurd rfl h

end Classified

theorem sound_and_classified (steps : Nat) (host : Host) (sources : List String)
    (source : String) :
    let s := runAll steps sources (State.fresh host)
    (∀ c x v, s.heap.local? c x = some v → v.object.Sound) ∧
      (∀ p, Program.ofText source = .ok p → ∀ x, Site.Visits ⟨.body p, 0, s⟩ x → x.Sound) ∧
      ((run steps 0 source s).1 ≠ .unfinished →
        (run steps 0 source s).1.Classified steps source s (run steps 0 source s).2) := by
  intro s
  have hs := fresh_onward steps host sources
  have hzero : 0 < s.heap.size := hs.lt Nat.zero_lt_one
  refine ⟨fun c x v hv => ?_, fun p _ x hx => ?_, classified_run⟩
  · exact Value.sound_object_iff.mpr (hs.grounded.sound hv)
  · exact (hx.onward ⟨hs.grounded, hzero⟩).2.sound

def earlierTexts : List String :=
  ["h := \x7b1: [2]\x7d", "f := fn(x) \x7b [x] \x7d", "let = 1"]

def keptHash : Value := .hash [(.int 1, .array [.int 2])]

def keptState : State :=
  ⟨⟨#[⟨[("h", keptHash), ("f", .function ["x"] [.expr (.array [.ident "x"])] 0)], none⟩]⟩, "",
    .seeded 0⟩

def callAndAdd : Program := [.expr (.infixOp (.call (.ident "f") [.ident "h"]) .add (.int 1))]

theorem sound_and_classified_callAndAdd :
    let verdict := (run 9 0 "f(h) + 1" keptState).1
    let message := "type mismatch: ARRAY + INTEGER"
    runAll 9 earlierTexts (State.initial 0) = keptState ∧ keptHash.object.Sound ∧
      Program.ofText "f(h) + 1" = .ok callAndAdd ∧ Site.Sound ⟨.body callAndAdd, 0, keptState⟩ ∧
      verdict ≠ .unfinished ∧ (Answer.ofVerdict verdict).object = .error message ∧
      verdict.errors = [message] ∧ (Console.enter 9 keptState "f(h) + 1").output =
        troubleText ++ "eval error: type mismatch: ARRAY + INTEGER\n" := by
  intro verdict message
  have hs : runAll 9 earlierTexts (State.initial 0) = keptState := by cbv
  have hp : Program.ofText "f(h) + 1" = .ok callAndAdd := by cbv
  have hrun : (run 9 0 "f(h) + 1" keptState).1 = .fault (.typeMismatch .array .add .integer) := by
    cbv
  have hne : verdict ≠ .unfinished := by simp [verdict, hrun]
  have hm : (Answer.ofVerdict verdict).object = .error message :=
    congrArg (fun v => (Answer.ofVerdict v).object) hrun
  have hall := sound_and_classified 9 (.seeded 0) earlierTexts "f(h) + 1"
  rw [show runAll 9 earlierTexts (State.fresh (.seeded 0)) = keptState from hs] at hall
  obtain ⟨hstored, hvisits, hclass⟩ := hall
  have hfails : FailsWith 9 "f(h) + 1" keptState message := ((hclass hne).error_iff _).mp hm
  refine ⟨hs, hstored 0 "h" keptHash rfl, hp, hvisits _ hp _ .refl, hne, hm,
    (hclass hne).errors_eq _ hfails, ?_⟩
  have hshown := (hclass hne).failed_shown _ hfails
  rwa [show (run 9 0 "f(h) + 1" keptState).2.output = "" by cbv, String.empty_append] at hshown

end Nut
