import Nut.Proofs.Evaluation.Apart
import Nut.Proofs.Session.Runs
import Nut.Proofs.Session.Walks
import Nut.Session.Engine

/-! Four ways to run the same texts one after the other: on one environment, by one evaluator, by
one engine and in the console. -/

namespace Nut

structure Determined (steps : Nat) (source : String) (s : State) : Prop where
  ended : (run steps 0 source s).1 ≠ .unfinished
  undrawn {p : Program} : Program.ofText source = .ok p →
    (Term.body p).evalWith .undrawing steps 0 s = (Term.body p).eval steps 0 s

def AllDetermined (steps : Nat) : List String → State → Prop
  | [], _ => True
  | source :: rest, s =>
    Determined steps source s ∧ AllDetermined steps rest (run steps 0 source s).2

structure State.Level (s t : State) : Prop where
  heap : s.heap = t.heap
  arrangement : s.host.arrangement = t.host.arrangement

lemma State.Level.trans {s t u : State} (h : s.Level t) (h' : t.Level u) : s.Level u :=
  ⟨h.heap.trans h'.heap, h.arrangement.trans h'.arrangement⟩

structure RunAlike (steps : Nat) (source : String) (s t : State) : Prop where
  verdict : (run steps 0 source t).1 = (run steps 0 source s).1
  level : (run steps 0 source s).2.Level (run steps 0 source t).2
  printed : SamePrinted s t (run steps 0 source s).2 (run steps 0 source t).2

section Runs

variable {steps : Nat} {source : String} {s t : State}

lemma Eval.catchReturn_congr {m n : Eval Value} (h : m s = n s) :
    catchReturn m s = catchReturn n s := by
  rw [catchReturn, catchReturn, h]

lemma Coupling.Meet.verdict {R : Generator → Generator → Prop} {o o' : Outcome Value}
    (h : (apart R s t).Meet 0 (fun _ => Eq) o o')
    (hended : (Verdict.ofOutcome s o).1 ≠ .unfinished) :
    (Verdict.ofOutcome t o').1 = (Verdict.ofOutcome s o).1 ∧
      (Verdict.ofOutcome s o).2.Level (Verdict.ofOutcome t o').2 ∧
      SamePrinted s t (Verdict.ofOutcome s o).2 (Verdict.ofOutcome t o').2 := by
  cases h with
  | normal _ hv hst | returned _ hv hst =>
    cases hv
    exact ⟨rfl, ⟨hst.1, hst.2.1.arrangement⟩, hst.2.2⟩
  | failed fault _ hst => exact ⟨rfl, ⟨hst.1, hst.2.1.arrangement⟩, hst.2.2⟩
  | exhausted => exact absurd rfl hended

lemma Determined.runAlike (h : Determined steps source s) (hlevel : s.Level t) :
    RunAlike steps source s t := by
  cases hp : Program.ofText source with
  | error es =>
    refine ⟨?_, ?_, "", ?_⟩
    all_goals simp only [run_of_error hp]
    · exact hlevel
    · simp
  | ok p =>
    have L : (Coupling.apart (fun _ _ => True) s t).Lawful .undrawing .all :=
      Coupling.lawful_undrawing
    have hmeet := L.program hlevel.heap ⟨trivial, hlevel.arrangement⟩ p steps 0
    rw [Eval.catchReturn_congr (h.undrawn hp)] at hmeet
    have hended := h.ended
    rw [run_of_ok hp] at hended
    obtain ⟨hverdict, hlevel, hprinted⟩ := hmeet.verdict hended
    constructor
    all_goals
      rw [run_of_ok hp, run_of_ok hp]
      assumption

lemma AllDetermined.cons {p : Program} {verdict : Verdict} {rest : List String}
    (hp : Program.ofText source = .ok p) (hrun : run steps 0 source s = (verdict, t))
    (hended : verdict ≠ .unfinished)
    (hundrawn : (Term.body p).evalWith .undrawing steps 0 s = (Term.body p).eval steps 0 s)
    (hrest : AllDetermined steps rest t) : AllDetermined steps (source :: rest) s := by
  rw [AllDetermined, hrun]
  refine ⟨⟨by rwa [hrun], fun hq => ?_⟩, hrest⟩
  cases hp.symm.trans hq
  exact hundrawn

lemma AllDetermined.append {before : List String}
    (h : AllDetermined steps (before ++ [source]) s) :
    AllDetermined steps before s ∧ Determined steps source (runAll steps before s) := by
  induction before generalizing s with
  | nil => exact ⟨trivial, h.1⟩
  | cons first before ih =>
    obtain ⟨hbefore, hlast⟩ := ih h.2
    exact ⟨⟨h.1, hbefore⟩, hlast⟩

lemma AllDetermined.level_foldl {next : State → String → State}
    (hnext : ∀ t source, (run steps 0 source t).2.Level (next t source))
    {sources : List String} (h : AllDetermined steps sources s) (hlevel : s.Level t) :
    (runAll steps sources s).Level (sources.foldl next t) := by
  induction sources generalizing s t with
  | nil => exact hlevel
  | cons source sources ih =>
    obtain ⟨hfirst, hrest⟩ := h
    exact ih hrest ((hfirst.runAlike hlevel).level.trans (hnext t source))

end Runs

def Verdict.evaluated : Verdict → Option (Except Fault Value)
  | value v => some (.ok v)
  | fault f => some (.error f)
  | rejected _ | unfinished => none

lemma Evaluator.evalText_eq (e : Evaluator) (steps : Nat) (source : String) :
    e.evalText steps source = ((run steps e.scope source e.state).1.evaluated,
      ⟨e.scope, (run steps e.scope source e.state).2⟩) := by
  cases hp : Program.ofText source with
  | error es =>
    rw [evalText, hp, run_of_error hp]
    rfl
  | ok p =>
    have hwalk := Walk.Keeps.sequence ((keeps_walk steps).2 e.scope) .null p e.state
    rw [evalText, hp, run_of_ok hp, Program.eval, Eval.catchReturn]
    dsimp only
    rw [eval, hwalk]
    cases evalSequence (Stmt.eval steps e.scope) .null p e.state with
    | unwound signal => cases signal <;> rfl
    | normal | exhausted => rfl

lemma Evaluator.foldl_evalText (steps : Nat) (sources : List String) (s : State) :
    sources.foldl (fun e source => (evalText e steps source).2) ⟨0, s⟩ =
      ⟨0, runAll steps sources s⟩ := by
  induction sources generalizing s with
  | nil => rfl
  | cons source sources ih =>
    rw [List.foldl_cons, evalText_eq, ih]
    rfl

def Engine.result (arrangement : Arrangement) (verdict : Verdict) : Except String String :=
  if verdict.errors.isEmpty then .ok ((Answer.ofVerdict verdict).text arrangement)
  else .error (join "\n" verdict.errors)

lemma Engine.run_eq (steps : Nat) (source : String) (s : State) :
    Engine.run steps source s =
      (result (Nut.run steps 0 source s).2.host.arrangement (Nut.run steps 0 source s).1,
        (Nut.run steps 0 source s).2) := by
  rw [Engine.run, result]
  dsimp only
  split <;> rfl

lemma Engine.foldl_run (steps : Nat) (sources : List String) (s : State) :
    sources.foldl (fun s source => (Engine.run steps source s).2) s = runAll steps sources s := by
  simp only [run_eq, runAll]

namespace Console

def IsLine (source : String) : Prop := ∃ cs, '\n' ∉ cs ∧ source.toList = cs ++ ['\n']

lemma lines_append {cs : List Char} (h : '\n' ∉ cs) (more : List Char) :
    lines (cs ++ '\n' :: more) = (cs ++ ['\n']) :: lines more := by
  induction cs with
  | nil => rfl
  | cons c cs ih =>
    obtain ⟨hc, hcs⟩ := not_or.mp (List.mem_cons.not.mp h)
    rw [List.cons_append, lines.eq_3 _ _ (Ne.symm hc), ih hcs]
    rfl

lemma lines_join {sources : List String} (h : ∀ source ∈ sources, IsLine source) :
    (lines (String.join sources).toList).map String.ofList = sources := by
  induction sources with
  | nil => rfl
  | cons source sources ih =>
    obtain ⟨⟨cs, hcs, hsource⟩, hrest⟩ := List.forall_mem_cons.mp h
    rw [String.join_cons, String.toList_append, hsource, List.append_assoc, List.singleton_append,
      lines_append hcs, List.map_cons, ih hrest, ← hsource, String.ofList_toList]

def enterAll (steps : Nat) (sources : List String) (s : State) : State :=
  sources.foldl (fun s line => write (enter steps s line) prompt) s

lemma session_join {steps : Nat} {sources : List String} (s : State)
    (h : ∀ source ∈ sources, IsLine source) :
    session steps s (String.join sources) =
      enterAll steps sources (write s (greeting ++ prompt)) := by
  rw [session, lines_join h, enterAll]

end Console

inductive Report where
  | value (v : Value)
  | failed (message : String)
  | rejected (messages : List String) (nonempty : messages ≠ [])

namespace Report

def answer : Report → Answer × List String
  | value v => (.value v, [])
  | failed m => (.error m, [m])
  | rejected ms _ => (.value .null, ms)

def evaluated : Report → Option (Except String Value)
  | value v => some (.ok v)
  | failed m => some (.error m)
  | rejected _ _ => none

def text (a : Arrangement) : Report → Except String String
  | value v => .ok (v.text a)
  | failed m => .error m
  | rejected ms _ => .error ("\n".intercalate ms)

def reply (a : Arrangement) : Report → String
  | value v => v.text a ++ "\n"
  | failed m => troubleText ++ ("eval error: " ++ m ++ "\n")
  | rejected ms _ => troubleText ++ String.join (ms.map fun m => "parse error: " ++ m ++ "\n")

lemma eq_of_answer {r r' : Report} (h : r.answer = r'.answer) : r = r' := by
  cases r <;> cases r' <;> cases h
  · rfl
  · contradiction
  · rfl
  · contradiction
  · rfl

end Report

structure Report.Tells (r : Report) (a : Arrangement) (verdict : Verdict) : Prop where
  answer : (Answer.ofVerdict verdict, verdict.errors) = r.answer
  evaluated : verdict.evaluated.map (Except.mapError Fault.message) = r.evaluated
  text : Engine.result a verdict = r.text a
  reply : Console.reply a verdict = r.reply a
  rejected {ms : List String} {nonempty : ms ≠ []} : r = .rejected ms nonempty →
    ∃ es, verdict = .rejected es ∧ ms = es.map ParseError.message

lemma join_eq_intercalate (separator : String) (texts : List String) :
    join separator texts = separator.intercalate texts := by
  induction texts with
  | nil => rfl
  | cons text texts ih =>
    cases texts with
    | nil => rw [join, String.intercalate_singleton]
    | cons next texts =>
      show text ++ separator ++ join separator (next :: texts) = _
      rw [ih, String.intercalate_cons_cons]

lemma Report.exists_tells (a : Arrangement) {verdict : Verdict} (hended : verdict ≠ .unfinished)
    (hne : ∀ es, verdict = .rejected es → es ≠ []) : ∃ r : Report, r.Tells a verdict := by
  cases verdict with
  | value v => exact ⟨.value v, rfl, rfl, rfl, rfl, nofun⟩
  | fault f => exact ⟨.failed f.message, rfl, rfl, rfl, Console.reply_fault a f, nofun⟩
  | rejected es =>
    have hms : es.map ParseError.message ≠ [] := List.map_eq_nil_iff.not.mpr (hne es rfl)
    refine ⟨.rejected _ hms, rfl, rfl, ?_, ?_, ?_⟩
    · rw [Engine.result, Verdict.errors, if_neg (List.isEmpty_iff.not.mpr hms),
        join_eq_intercalate]
      rfl
    · rw [Console.reply_rejected, reply, List.map_map]
      rfl
    · rintro ms - ⟨⟩
      exact ⟨es, rfl, rfl⟩
  | unfinished => exact absurd rfl hended

structure Sessions where
  environment : State
  evaluator : Evaluator
  engine : State
  console : State

lemma run_rejected {steps : Nat} {source : String} {s : State} {es : List ParseError}
    (h : (run steps 0 source s).1 = .rejected es) : Program.ofText source = .error es := by
  cases hp : Program.ofText source with
  | error es' =>
    rw [run_of_error hp] at h
    cases h
    rfl
  | ok p =>
    rw [run_of_ok hp] at h
    cases ho : Program.eval steps 0 p s with
    | unwound signal => cases signal <;> rw [ho] at h <;> cases h
    | normal | exhausted =>
      rw [ho] at h
      cases h

/-- Each has started afresh, with numbers of its own to draw, and has run the texts. -/
def Sessions.after (steps : Nat) (order : Arrangement) (a b c d : Generator)
    (sources : List String) : Sessions where
  environment := runAll steps sources (State.fresh ⟨a, order⟩)
  evaluator :=
    sources.foldl (fun e source => (e.evalText steps source).2) (Evaluator.start ⟨b, order⟩)
  engine := sources.foldl (fun s source => (Engine.run steps source s).2) (State.fresh ⟨c, order⟩)
  console := Console.session steps (State.fresh ⟨d, order⟩) (String.join sources)

structure Report.ShownBy (r : Report) (steps : Nat) (order : Arrangement) (source : String)
    (lines : Prop) (s t : Sessions) : Prop where
  environment : (Answer.ofVerdict (run steps 0 source s.environment).1,
    (run steps 0 source s.environment).1.errors) = r.answer
  evaluator : (s.evaluator.evalText steps source).1.map (Except.mapError Fault.message) =
    r.evaluated
  engine : (Engine.run steps source s.engine).1 = r.text order
  printed : ∃ text, t.environment.output = s.environment.output ++ text ∧
    t.evaluator.state.output = s.evaluator.state.output ++ text ∧
    t.engine.output = s.engine.output ++ text ∧
    (lines → t.console.output = s.console.output ++ (text ++ (r.reply order ++ ">> ")))
  rejected {ms : List String} {nonempty : ms ≠ []} : r = .rejected ms nonempty →
    (∃ es, Program.ofText source = .error es ∧ ms = es.map ParseError.message) ∧
      t.environment = s.environment

/-- The text is run on all four states, each of which is like the first. -/
structure Sessions.Next (steps : Nat) (order : Arrangement) (source : String) (lines : Prop)
    (s t : Sessions) : Prop where
  environment : t.environment = (run steps 0 source s.environment).2
  arrangement : (run steps 0 source s.environment).2.host.arrangement = order
  scope : s.evaluator.scope = 0
  evaluator : t.evaluator = ⟨0, (run steps 0 source s.evaluator.state).2⟩
  evaluator_alike : RunAlike steps source s.environment s.evaluator.state
  engine : t.engine = (run steps 0 source s.engine).2
  engine_alike : RunAlike steps source s.environment s.engine
  console : lines →
    t.console = Console.write (Console.enter steps s.console source) Console.prompt
  console_alike : lines → RunAlike steps source s.environment s.console

section Agreement

variable {steps : Nat} {order : Arrangement} {a b c d : Generator} {source : String}
  {sources : List String} {s t : State}

lemma runAll_concat (sources : List String) (source : String) (s : State) :
    runAll steps (sources ++ [source]) s = (run steps 0 source (runAll steps sources s)).2 := by
  rw [runAll, List.foldl_append]
  rfl

lemma AllDetermined.runAll_level (h : AllDetermined steps sources s) (hlevel : s.Level t) :
    (runAll steps sources s).Level (runAll steps sources t) := by
  refine h.level_foldl ?_ hlevel
  exact fun _ _ => ⟨rfl, rfl⟩

lemma AllDetermined.enterAll_level (h : AllDetermined steps sources s) (hlevel : s.Level t) :
    (runAll steps sources s).Level (Console.enterAll steps sources t) := by
  refine h.level_foldl ?_ hlevel
  exact fun _ _ => ⟨rfl, rfl⟩

lemma SamePrinted.output {s' t' : State} {text : String} (h : SamePrinted s t s' t')
    (hs : s'.output = s.output ++ text) : t'.output = t.output ++ text := by
  obtain ⟨text', hs', ht'⟩ := h
  rw [hs] at hs'
  rw [ht', (String.append_right_inj _).mp hs']

namespace Sessions

lemma after_evaluator : (after steps order a b c d sources).evaluator =
    ⟨0, runAll steps sources (State.fresh ⟨b, order⟩)⟩ :=
  Evaluator.foldl_evalText steps sources _

lemma after_engine :
    (after steps order a b c d sources).engine =
      runAll steps sources (State.fresh ⟨c, order⟩) :=
  Engine.foldl_run steps sources _

lemma after_console (h : ∀ line ∈ sources, Console.IsLine line) :
    (after steps order a b c d sources).console = Console.enterAll steps sources
      (Console.write (State.fresh ⟨d, order⟩) (Console.greeting ++ Console.prompt)) :=
  Console.session_join _ h

lemma next {before : List String}
    (h : AllDetermined steps (before ++ [source]) (State.fresh ⟨a, order⟩)) :
    Next steps order source (∀ line ∈ before ++ [source], Console.IsLine line)
      (after steps order a b c d before) (after steps order a b c d (before ++ [source])) := by
  obtain ⟨hbefore, hlast⟩ := h.append
  have hlines (hl : ∀ line ∈ before ++ [source], Console.IsLine line) :
      ∀ line ∈ before, Console.IsLine line :=
    fun line h => hl line (List.mem_append_left _ h)
  refine ⟨runAll_concat before source _, ?_, ?_, ?_, ?_, ?_, ?_, fun hl => ?_, fun hl => ?_⟩
  · have honward := fresh_onward steps ⟨a, order⟩ (before ++ [source])
    rw [runAll_concat] at honward
    exact honward.extends_state.arrangement_eq
  · rw [after_evaluator]
  · rw [after_evaluator, after_evaluator, runAll_concat]
  · rw [after_evaluator]
    exact hlast.runAlike (hbefore.runAll_level ⟨rfl, rfl⟩)
  · rw [after_engine, after_engine, runAll_concat]
  · rw [after_engine]
    exact hlast.runAlike (hbefore.runAll_level ⟨rfl, rfl⟩)
  · rw [after_console hl, after_console (hlines hl), Console.enterAll, List.foldl_append]
    rfl
  · rw [after_console (hlines hl)]
    exact hlast.runAlike (hbefore.enterAll_level ⟨rfl, rfl⟩)

variable {lines : Prop} {s t : Sessions} {r : Report}

lemma Next.console_output (h : Next steps order source lines s t) (hl : lines)
    (hr : r.Tells order (run steps 0 source s.environment).1) {text : String}
    (htext : (run steps 0 source s.environment).2.output = s.environment.output ++ text) :
    t.console.output = s.console.output ++ (text ++ (r.reply order ++ ">> ")) := by
  have halike := h.console_alike hl
  have hentered : (Console.enter steps s.console source).output =
      s.console.output ++ text ++ r.reply order := by
    rw [← halike.printed.output htext, ← hr.reply, ← halike.verdict, ← h.arrangement,
      halike.level.arrangement]
    rfl
  rw [h.console hl, Console.write, hentered, String.append_assoc, String.append_assoc]
  rfl

lemma Next.shownBy (h : Next steps order source lines s t)
    (hr : r.Tells order (run steps 0 source s.environment).1) :
    r.ShownBy steps order source lines s t where
  environment := hr.answer
  evaluator := by
    rw [Evaluator.evalText_eq, h.scope, h.evaluator_alike.verdict]
    exact hr.evaluated
  engine := by
    rw [Engine.run_eq, h.engine_alike.verdict, ← h.engine_alike.level.arrangement, h.arrangement]
    exact hr.text
  printed := by
    obtain ⟨text, htext, htext'⟩ := h.evaluator_alike.printed
    refine ⟨text, ?_, ?_, ?_, fun hl => h.console_output hl hr htext⟩
    · rw [h.environment, htext]
    · rw [h.evaluator, htext']
    · rw [h.engine, h.engine_alike.printed.output htext]
  rejected hrejected := by
    obtain ⟨es, hes, hms⟩ := hr.rejected hrejected
    refine ⟨⟨es, run_rejected hes, hms⟩, ?_⟩
    rw [h.environment, run_of_error (run_rejected hes)]

end Sessions

end Agreement

theorem drivers_agree {steps : Nat} {order : Arrangement} {a : Generator} {before : List String}
    {source : String} (h : AllDetermined steps (before ++ [source]) (State.fresh ⟨a, order⟩))
    (b c d : Generator) :
    let lines := ∀ line ∈ before ++ [source], Console.IsLine line
    let s := Sessions.after steps order a b c d before
    let t := Sessions.after steps order a b c d (before ++ [source])
    t.evaluator.scope = 0 ∧ t.evaluator.state.heap = t.environment.heap ∧
      t.engine.heap = t.environment.heap ∧ (lines → t.console.heap = t.environment.heap) ∧
      ∃! r : Report, r.ShownBy steps order source lines s t := by
  intro lines s t
  have hnext : s.Next steps order source lines t := Sessions.next h
  obtain ⟨r, hr⟩ := Report.exists_tells order h.append.2.ended fun es hes =>
    Program.errors_ne_nil (run_rejected hes)
  refine ⟨?_, ?_, ?_, fun hl => ?_, r, hnext.shownBy hr, fun r' hr' => ?_⟩
  · rw [hnext.evaluator]
  · rw [hnext.evaluator, hnext.environment, hnext.evaluator_alike.level.heap]
  · rw [hnext.engine, hnext.environment, hnext.engine_alike.level.heap]
  · rw [hnext.console hl, hnext.environment, (hnext.console_alike hl).level.heap]
    rfl
  · exact Report.eq_of_answer (hr'.environment.symm.trans hr.answer)

def defineTwo : String := "f := fn() \x7b return 2 \x7d\n"

def addInBlock : String := "if (true) \x7b f() + f \x7d\n"

def twoFunction : Value := .function [] [.result (.int 2)] 0

def twoDefined : State := ⟨⟨#[⟨[("f", twoFunction)], none⟩]⟩, "", .seeded 0⟩

def addFailed : State :=
  ⟨⟨#[⟨[("f", twoFunction)], none⟩, ⟨[], some 0⟩, ⟨[], some 0⟩]⟩, "", .seeded 0⟩

theorem drivers_agree_addInBlock :
    let before := [defineTwo, addInBlock]
    let s := Sessions.after 9 .asPut (.seeded 0) (.seeded 1) (.seeded 2) (.seeded 3) before
    let t := Sessions.after 9 .asPut (.seeded 0) (.seeded 1) (.seeded 2) (.seeded 3)
      (before ++ ["f()\n"])
    AllDetermined 9 (before ++ ["f()\n"]) (State.initial 0) ∧ t.evaluator.scope = 0 ∧
      t.evaluator.state.heap = t.environment.heap ∧ t.console.heap = t.environment.heap ∧
      (Engine.run 9 "f()\n" s.engine).1 = .ok "2" ∧
      t.console.output = s.console.output ++ "2\n>> " := by
  intro before s t
  have hp₁ : Program.ofText defineTwo =
      .ok [.declare "f" (.function [] [.result (.int 2)])] := by cbv
  have hp₂ : Program.ofText addInBlock = .ok [.expr (.cond (.bool true)
      [.expr (.infixOp (.call (.ident "f") []) .add (.ident "f"))] none)] := by cbv
  have hp₃ : Program.ofText "f()\n" = .ok [.expr (.call (.ident "f") [])] := by cbv
  have hrun₁ : run 9 0 defineTwo (State.initial 0) = (.value .null, twoDefined) := by cbv
  have hrun₂ : run 9 0 addInBlock twoDefined =
      (.fault (.typeMismatch .integer .add .function), addFailed) := by cbv
  have hrun₃ : run 9 0 "f()\n" addFailed =
      (.value (.int 2), { addFailed with heap := addFailed.heap.extend (some 0) }) := by cbv
  have hdetermined : AllDetermined 9 (before ++ ["f()\n"]) (State.initial 0) := by
    apply AllDetermined.cons hp₁ hrun₁ (by simp) (by cbv)
    apply AllDetermined.cons hp₂ hrun₂ (by simp) (by cbv)
    exact AllDetermined.cons hp₃ hrun₃ (by simp) (by cbv) trivial
  have hlines : ∀ line ∈ before ++ ["f()\n"], Console.IsLine line := by
    simp only [before, List.cons_append, List.nil_append, List.forall_mem_cons]
    refine ⟨⟨"f := fn() \x7b return 2 \x7d".toList, by decide, rfl⟩,
      ⟨"if (true) \x7b f() + f \x7d".toList, by decide, rfl⟩, ⟨"f()".toList, by decide, rfl⟩,
      List.forall_mem_nil _⟩
  have henvironment : s.environment = addFailed := by
    show (run 9 0 addInBlock (run 9 0 defineTwo (State.initial 0)).2).2 = addFailed
    rw [hrun₁, hrun₂]
  obtain ⟨hscope, hevaluator, -, hconsole, r, hr, -⟩ :=
    drivers_agree hdetermined (.seeded 1) (.seeded 2) (.seeded 3)
  obtain rfl : r = .value (.int 2) := by
    refine Report.eq_of_answer (hr.environment.symm.trans ?_)
    rw [henvironment, hrun₃]
    rfl
  obtain ⟨text, htext, -, -, hprinted⟩ := hr.printed
  -- The call itself prints nothing.
  have hsilent : t.environment.output = s.environment.output := by
    show (run 9 0 "f()\n" s.environment).2.output = s.environment.output
    rw [henvironment, hrun₃]
  obtain rfl : text = "" := (String.append_right_inj _).mp
    (htext.symm.trans (hsilent.trans String.append_empty.symm))
  exact ⟨hdetermined, hscope, hevaluator, hconsole hlines, hr.engine, hprinted hlines⟩

end Nut
