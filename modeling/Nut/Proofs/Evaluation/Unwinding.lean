import Nut.Proofs.Evaluation.Steps

/-! What unwinds inside a term unwinds the term, with the same signal and the same state. -/

namespace Nut

open Filter Relation

namespace Eval

variable {α β : Type} {m m' : Eval α} {f g : α → Eval β} {s s' t : State} {a : α} {b : β}
variable {signal : Signal}

lemma bind_normal (h : m s = .normal a s') : (m >>= f) s = f a s' := by
  show Eval.bind m f s = f a s'
  rw [Eval.bind, h]

lemma bind_unwound (h : m s = .unwound signal s') : (m >>= f) s = .unwound signal s' := by
  show Eval.bind m f s = .unwound signal s'
  rw [Eval.bind, h]

lemma of_bind_normal (h : (m >>= f) s = .normal b t) :
    ∃ a s', m s = .normal a s' ∧ f a s' = .normal b t := by
  replace h : Eval.bind m f s = .normal b t := h
  rw [Eval.bind] at h
  split at h
  · next a s' hm => exact ⟨a, s', hm, h⟩
  · cases h
  · cases h

lemma of_bind_unwound (h : (m >>= f) s = .unwound signal t) :
    m s = .unwound signal t ∨ ∃ a s', m s = .normal a s' ∧ f a s' = .unwound signal t := by
  replace h : Eval.bind m f s = .unwound signal t := h
  rw [Eval.bind] at h
  split at h
  · next a s' hm => exact .inr ⟨a, s', hm, h⟩
  · next hm =>
    cases h
    exact .inl hm
  · cases h

lemma bind_congr_left (h : m s = m' s) : (m >>= f) s = (m' >>= f) s := by
  show Eval.bind m f s = Eval.bind m' f s
  rw [Eval.bind, Eval.bind, h]

lemma bind_congr_normal (h : ∀ a t, m s = .normal a t → f a t = g a t) :
    (m >>= f) s = (m >>= g) s := by
  show Eval.bind m f s = Eval.bind m g s
  rw [Eval.bind, Eval.bind]
  cases hm : m s with
  | normal a t => exact h a t hm
  | unwound | exhausted => rfl

lemma bind_pure (m : Eval α) : m >>= pure = m := by
  funext s
  show Eval.bind m Eval.pure s = m s
  rw [Eval.bind]
  cases m s <;> rfl

lemma bind_assoc {γ : Type} (m : Eval α) (f : α → Eval β) (g : β → Eval γ) :
    m >>= f >>= g = m >>= fun a => f a >>= g := by
  funext s
  show Eval.bind (Eval.bind m f) g s = Eval.bind m (fun a => Eval.bind (f a) g) s
  simp only [Eval.bind]
  cases m s <;> rfl

end Eval

open Eval

/-- What is left of a signal behind a call. -/
def Signal.caught : Signal → State → Outcome Value
  | .returned v, s => .normal v s
  | .failed fault, s => .unwound (.failed fault) s

lemma Eval.catchReturn_unwound {m : Eval Value} {s s' : State} {signal : Signal}
    (h : m s = .unwound signal s') : catchReturn m s = signal.caught s' := by
  rw [catchReturn, h]
  cases signal <;> rfl

section Parts

variable {s t u : State} {signal : Signal} {f : Expr → Eval Value}

lemma evalAll_unwound {es fs : List Expr} {e : Expr} {vs : List Value}
    (hes : evalAll f es s = .normal vs t) (he : f e t = .unwound signal u) :
    evalAll f (es ++ e :: fs) s = .unwound signal u := by
  induction es generalizing s vs with
  | nil =>
    cases hes
    exact bind_unwound he
  | cons d es ih =>
    obtain ⟨v, s', hd, hr⟩ := of_bind_normal hes
    obtain ⟨ws, t', hes, hvs⟩ := of_bind_normal hr
    cases hvs
    exact (bind_normal hd).trans (bind_unwound (ih hes))

lemma evalPairs_append_bind (f : Expr → Eval Value) (entries : Entries Key Value)
    (ps qs : List (Expr × Expr)) :
    evalPairs f entries (ps ++ qs) = evalPairs f entries ps >>= fun es => evalPairs f es qs := by
  induction ps generalizing entries with
  | nil => rfl
  | cons pair ps ih =>
    rw [List.cons_append, evalPairs, evalPairs]
    simp only [ih, bind_assoc]

lemma evalPairs_append {es fs : List (Expr × Expr)} {entries entries' : Entries Key Value}
    (h : evalPairs f entries es s = .normal entries' t) :
    evalPairs f entries (es ++ fs) s = evalPairs f entries' fs t := by
  rw [evalPairs_append_bind]
  exact bind_normal h

lemma evalSequence_append_bind (g : Stmt → Eval Value) (w : Value) (p q : List Stmt) :
    evalSequence g w (p ++ q) = evalSequence g w p >>= fun v => evalSequence g v q := by
  induction p generalizing w with
  | nil => rfl
  | cons d p ih =>
    show g d >>= (fun v => evalSequence g v (p ++ q)) = _
    simp only [ih]
    exact (bind_assoc (g d) (evalSequence g · p) fun v => evalSequence g v q).symm

lemma evalSequence_unwound {g : Stmt → Eval Value} {ss rest : List Stmt} {st : Stmt} {v w : Value}
    (hss : evalSequence g w ss s = .normal v t) (hst : g st t = .unwound signal u) :
    evalSequence g w (ss ++ st :: rest) s = .unwound signal u := by
  rw [evalSequence_append_bind]
  exact (bind_normal hss).trans (bind_unwound hst)

end Parts

/-- A term that stands somewhere, with the scope and the state that it finds there. -/
structure Site where
  term : Term
  scope : Nat
  state : State

namespace Site

def Ends (x : Site) (o : Outcome Value) : Prop :=
  Eval.Ends (fun n => x.term.eval n x.scope) x.state o

lemma Ends.eventually {x : Site} {o : Outcome Value} (h : x.Ends o) (ho : o ≠ .exhausted) :
    ∀ᶠ n in atTop, x.term.eval n x.scope x.state = o :=
  Eval.Ends.eventually h (fun _ _ hn => Term.within hn x.scope x.term) ho

lemma Ends.block {body : List Stmt} {scope : Nat} {s : State} {o : Outcome Value}
    (h : Ends ⟨.stmt (.block body), scope, s⟩ o) (ho : o ≠ .exhausted) :
    ∀ᶠ n in atTop, evalBlock (Stmt.eval n) scope body s = o :=
  (tendsto_add_atTop_nat 1).eventually (h.eventually ho)

def AllEnd (es : List Expr) (scope : Nat) (s : State) (vs : List Value) (t : State) : Prop :=
  Eval.Ends (fun n => evalAll (Expr.eval n scope) es) s (.normal vs t)

lemma AllEnd.eventually {es : List Expr} {scope : Nat} {s t : State} {vs : List Value}
    (h : AllEnd es scope s vs t) :
    ∀ᶠ n in atTop, evalAll (Expr.eval n scope) es s = .normal vs t :=
  Eval.Ends.eventually h (fun _ _ hn => evalAll_within hn scope es) nofun

def PairsEnd (pairs : List (Expr × Expr)) (scope : Nat) (s : State) (entries : Entries Key Value)
    (t : State) : Prop :=
  Eval.Ends (fun n => evalPairs (Expr.eval n scope) [] pairs) s (.normal entries t)

lemma PairsEnd.eventually {pairs : List (Expr × Expr)} {scope : Nat} {s t : State}
    {entries : Entries Key Value} (h : PairsEnd pairs scope s entries t) :
    ∀ᶠ n in atTop, evalPairs (Expr.eval n scope) [] pairs s = .normal entries t :=
  Eval.Ends.eventually h (fun _ _ hn => evalPairs_within hn scope [] pairs) nofun

def enclosed (s : State) (outer : Nat) : State := { s with heap := s.heap.extend (some outer) }

lemma enclose_eq (outer : Nat) (s : State) :
    enclose outer s = .normal s.heap.size (enclosed s outer) := rfl

inductive Round (condition : Expr) (post : Stmt) (body : List Stmt) (scope : Nat) :
    State → State → Prop
  | intro {s₀ s₁ s₂ s₃ v w x} : Ends ⟨.expr condition, scope, s₀⟩ (.normal v s₁) → v.truthy →
      Ends ⟨.stmt (.block body), scope, s₁⟩ (.normal w s₂) →
      Ends ⟨.stmt post, scope, s₂⟩ (.normal x s₃) → Round condition post body scope s₀ s₃

/-- A loop has come to where its condition is evaluated, after some rounds. -/
inductive Turns (init : Stmt) (condition : Expr) (post : Stmt) (body : List Stmt) (scope : Nat) :
    State → State → Prop
  | intro {s t u v} : Ends ⟨.stmt init, scope, s⟩ (.normal v t) →
      ReflTransGen (Round condition post body scope) t u → Turns init condition post body scope s u

/-- Evaluation of the first comes to the second, a part of it. All parts before that have ended
normally. -/
inductive Enters : Site → Site → Prop
  | operand (op e c s) : Enters ⟨.expr (.prefixOp op e), c, s⟩ ⟨.expr e, c, s⟩
  | left (l op r c s) : Enters ⟨.expr (.infixOp l op r), c, s⟩ ⟨.expr l, c, s⟩
  | right {l op r c s v t} : Ends ⟨.expr l, c, s⟩ (.normal v t) →
      Enters ⟨.expr (.infixOp l op r), c, s⟩ ⟨.expr r, c, t⟩
  | callee (e es c s) : Enters ⟨.expr (.call e es), c, s⟩ ⟨.expr e, c, s⟩
  | argument {e es d fs c s v t vs u} : Ends ⟨.expr e, c, s⟩ (.normal v t) → AllEnd es c t vs u →
      Enters ⟨.expr (.call e (es ++ d :: fs)), c, s⟩ ⟨.expr d, c, u⟩
  | element {es d fs c s vs t} : AllEnd es c s vs t →
      Enters ⟨.expr (.array (es ++ d :: fs)), c, s⟩ ⟨.expr d, c, t⟩
  | key {before k e after c s entries t} : PairsEnd before c s entries t →
      Enters ⟨.expr (.hash (before ++ (k, e) :: after)), c, s⟩ ⟨.expr k, c, t⟩
  | entry {before k e after c s entries t v key u} : PairsEnd before c s entries t →
      Ends ⟨.expr k, c, t⟩ (.normal v u) → v.key = .ok key →
      Enters ⟨.expr (.hash (before ++ (k, e) :: after)), c, s⟩ ⟨.expr e, c, u⟩
  | indexed (l i c s) : Enters ⟨.expr (.index l i), c, s⟩ ⟨.expr l, c, s⟩
  | position {l i c s v t} : Ends ⟨.expr l, c, s⟩ (.normal v t) →
      Enters ⟨.expr (.index l i), c, s⟩ ⟨.expr i, c, t⟩
  | assigned (name e c s) : Enters ⟨.expr (.assign name e), c, s⟩ ⟨.expr e, c, s⟩
  | condition (e yes no c s) : Enters ⟨.expr (.cond e yes no), c, s⟩ ⟨.expr e, c, s⟩
  | consequence {e yes no c s v t} : Ends ⟨.expr e, c, s⟩ (.normal v t) → v.truthy →
      Enters ⟨.expr (.cond e yes no), c, s⟩ ⟨.stmt (.block yes), c, t⟩
  | alternative {e yes no c s v t} : Ends ⟨.expr e, c, s⟩ (.normal v t) → ¬v.truthy →
      Enters ⟨.expr (.cond e yes (some no)), c, s⟩ ⟨.stmt (.block no), c, t⟩
  | expr (e c s) : Enters ⟨.stmt (.expr e), c, s⟩ ⟨.expr e, c, s⟩
  | result (e c s) : Enters ⟨.stmt (.result e), c, s⟩ ⟨.expr e, c, s⟩
  | declared (name e c s) : Enters ⟨.stmt (.declare name e), c, s⟩ ⟨.expr e, c, s⟩
  | block (body c s) : Enters ⟨.stmt (.block body), c, s⟩ ⟨.body body, s.heap.size, enclosed s c⟩
  | statement {before st after c s v t} : Ends ⟨.body before, c, s⟩ (.normal v t) →
      Enters ⟨.body (before ++ st :: after), c, s⟩ ⟨.stmt st, c, t⟩
  | init (i e p b c s) : Enters ⟨.stmt (.loop i e p b), c, s⟩ ⟨.stmt i, s.heap.size, enclosed s c⟩
  | turn {i e p b c s t} : Turns i e p b s.heap.size (enclosed s c) t →
      Enters ⟨.stmt (.loop i e p b), c, s⟩ ⟨.expr e, s.heap.size, t⟩
  | round {i e p b c s t v u} : Turns i e p b s.heap.size (enclosed s c) t →
      Ends ⟨.expr e, s.heap.size, t⟩ (.normal v u) → v.truthy →
      Enters ⟨.stmt (.loop i e p b), c, s⟩ ⟨.stmt (.block b), s.heap.size, u⟩
  | post {i e p b c s t v u w x} : Turns i e p b s.heap.size (enclosed s c) t →
      Ends ⟨.expr e, s.heap.size, t⟩ (.normal v u) → v.truthy →
      Ends ⟨.stmt (.block b), s.heap.size, u⟩ (.normal w x) →
      Enters ⟨.stmt (.loop i e p b), c, s⟩ ⟨.stmt p, s.heap.size, x⟩

/-- The second is the body of the function that the first calls, in the scope of this call. -/
inductive Calls : Site → Site → Prop
  | intro {e es c s ps body captured t vs u w} :
      Ends ⟨.expr e, c, s⟩ (.normal (.function ps body captured) t) → AllEnd es c t vs u →
      ps.length = vs.length →
      declareAll u.heap.size (ps.zip vs) (enclosed u captured) = .normal () w →
      Calls ⟨.expr (.call e es), c, s⟩ ⟨.body body, u.heap.size, w⟩

section Loops

variable {init : Stmt} {condition : Expr} {post : Stmt} {body : List Stmt} {scope c : Nat}
variable {s t : State} {o : Outcome Value}

def rounds (condition : Expr) (post : Stmt) (body : List Stmt) (scope n : Nat) : Nat → Eval Value :=
  evalLoop (condition.eval n scope) do
    let _ ← evalBlock (Stmt.eval n) scope body
    let _ ← post.eval n scope

lemma Round.rounds_eq (h : Round condition post body scope s t) : ∀ᶠ n in atTop, ∀ m,
    rounds condition post body scope n (m + 1) s = rounds condition post body scope n m t := by
  obtain ⟨hc, hv, hb, hp⟩ := h
  filter_upwards [hc.eventually nofun, hb.block nofun, hp.eventually nofun] with n hc hb hp m
  refine (bind_normal hc).trans ?_
  rw [if_pos hv]
  exact bind_normal ((bind_normal hb).trans (bind_normal hp))

lemma rounds_of_reflTransGen (h : ReflTransGen (Round condition post body scope) s t) :
    ∃ k, ∀ᶠ n in atTop, ∀ m,
      rounds condition post body scope n (m + k) s = rounds condition post body scope n m t := by
  induction h using ReflTransGen.head_induction_on with
  | refl => exact ⟨0, .of_forall fun _ _ => rfl⟩
  | head hr _ ih =>
    obtain ⟨k, ih⟩ := ih
    refine ⟨k + 1, ?_⟩
    filter_upwards [hr.rounds_eq, ih] with n hr ih m
    exact (hr (m + k)).trans (ih m)

lemma Turns.ends (h : Turns init condition post body s.heap.size (enclosed s c) t)
    (ho : ∀ᶠ n in atTop, ∀ m, rounds condition post body s.heap.size n (m + 1) t = o) :
    Ends ⟨.stmt (.loop init condition post body), c, s⟩ o := by
  obtain ⟨hi, hr⟩ := h
  obtain ⟨k, hr⟩ := rounds_of_reflTransGen hr
  obtain ⟨n, hn, hi, hr, ho⟩ :=
    ((eventually_ge_atTop (k + 1)).and ((hi.eventually nofun).and (hr.and ho))).exists
  -- `k` rounds are behind the loop, and one more step is for the round that it has come to.
  obtain ⟨m, rfl⟩ : ∃ m, n = m + 1 + k := ⟨n - (k + 1), by omega⟩
  refine ⟨m + 1 + k + 1, (bind_normal (enclose_eq c s)).trans ?_⟩
  exact (bind_normal hi).trans ((hr (m + 1)).trans (ho m))

end Loops

lemma Enters.unwinds {x y : Site} (hxy : x.Enters y) {signal : Signal} {u : State}
    (h : y.Ends (.unwound signal u)) : x.Ends (.unwound signal u) := by
  cases hxy with
  | operand | left | callee | indexed | assigned | condition | result | declared =>
    obtain ⟨n, h⟩ := h
    exact ⟨n + 1, bind_unwound h⟩
  | right hl | position hl =>
    obtain ⟨n, hl, h⟩ := ((hl.eventually nofun).and (h.eventually nofun)).exists
    exact ⟨n + 1, (bind_normal hl).trans (bind_unwound h)⟩
  | argument he hes =>
    obtain ⟨n, he, hes, h⟩ :=
      ((he.eventually nofun).and (hes.eventually.and (h.eventually nofun))).exists
    exact ⟨n + 1, (bind_normal he).trans (bind_unwound (evalAll_unwound hes h))⟩
  | element hes =>
    obtain ⟨n, hes, h⟩ := (hes.eventually.and (h.eventually nofun)).exists
    exact ⟨n + 1, bind_unwound (evalAll_unwound hes h)⟩
  | key hpairs =>
    obtain ⟨n, hpairs, h⟩ := (hpairs.eventually.and (h.eventually nofun)).exists
    exact ⟨n + 1, bind_unwound ((evalPairs_append hpairs).trans (bind_unwound h))⟩
  | @entry _ _ _ _ _ _ _ t v key u hpairs hk hkey =>
    obtain ⟨n, hpairs, hk, h⟩ :=
      (hpairs.eventually.and ((hk.eventually nofun).and (h.eventually nofun))).exists
    have hof : ofExcept v.key u = .normal key u := by rw [hkey]; rfl
    refine ⟨n + 1, bind_unwound ((evalPairs_append hpairs).trans ?_)⟩
    exact (bind_normal hk).trans ((bind_normal hof).trans (bind_unwound h))
  | consequence he hv =>
    obtain ⟨n, he, h⟩ := ((he.eventually nofun).and (h.block nofun)).exists
    refine ⟨n + 1, (bind_normal he).trans ?_⟩
    rwa [if_pos hv]
  | alternative he hv =>
    obtain ⟨n, he, h⟩ := ((he.eventually nofun).and (h.block nofun)).exists
    refine ⟨n + 1, (bind_normal he).trans ?_⟩
    rwa [if_neg hv]
  | expr | block =>
    obtain ⟨n, h⟩ := h
    exact ⟨n + 1, h⟩
  | statement hbefore =>
    obtain ⟨n, hbefore, h⟩ := ((hbefore.eventually nofun).and (h.eventually nofun)).exists
    exact ⟨n, evalSequence_unwound hbefore h⟩
  | init =>
    obtain ⟨n, h⟩ := h
    exact ⟨n + 1, (bind_normal (enclose_eq _ _)).trans (bind_unwound h)⟩
  | turn ht =>
    refine ht.ends ?_
    filter_upwards [h.eventually nofun] with n h m
    exact bind_unwound h
  | round ht hc hv =>
    refine ht.ends ?_
    filter_upwards [hc.eventually nofun, h.block nofun] with n hc h m
    refine (bind_normal hc).trans ?_
    rw [if_pos hv]
    exact bind_unwound (bind_unwound h)
  | post ht hc hv hb =>
    refine ht.ends ?_
    filter_upwards [hc.eventually nofun, hb.block nofun, h.eventually nofun] with n hc hb h m
    refine (bind_normal hc).trans ?_
    rw [if_pos hv]
    exact bind_unwound ((bind_normal hb).trans (bind_unwound h))

lemma Enters.unwinds_all {x y : Site} (hxy : ReflTransGen Enters x y) {signal : Signal} {u : State}
    (h : y.Ends (.unwound signal u)) : x.Ends (.unwound signal u) := by
  induction hxy using ReflTransGen.head_induction_on with
  | refl => exact h
  | head hxy _ ih => exact hxy.unwinds ih

lemma Calls.ends {x y : Site} (hxy : x.Calls y) {signal : Signal} {u : State}
    (h : y.Ends (.unwound signal u)) : x.Ends (signal.caught u) := by
  obtain ⟨he, hes, hlen, hdecl⟩ := hxy
  obtain ⟨n, he, hes, h⟩ :=
    ((he.eventually nofun).and (hes.eventually.and (h.eventually nofun))).exists
  refine ⟨n + 1, (bind_normal he).trans ((bind_normal hes).trans ?_)⟩
  rw [evalCall, if_pos hlen]
  exact (bind_normal (enclose_eq _ _)).trans ((bind_normal hdecl).trans (catchReturn_unwound h))

lemma Ends.program {program : Program} {scope : Nat} {s u : State} {signal : Signal}
    (h : Ends ⟨.body program, scope, s⟩ (.unwound signal u)) :
    Eval.Ends (fun n => Program.eval n scope program) s (signal.caught u) := by
  obtain ⟨n, h⟩ := h
  exact ⟨n, catchReturn_unwound h⟩

theorem unwound_of_nested {x y : Site} (hxy : ReflTransGen Enters x y) {signal : Signal} {u : State}
    (h : y.Ends (.unwound signal u)) :
    x.Ends (.unwound signal u) ∧ (∀ call : Site, call.Calls x → call.Ends (signal.caught u)) ∧
      ∀ program : Program, x.term = .body program →
        Eval.Ends (fun n => Program.eval n x.scope program) x.state (signal.caught u) := by
  have hx := Enters.unwinds_all hxy h
  refine ⟨hx, fun call hcall => hcall.ends hx, fun program hp => ?_⟩
  obtain ⟨term, scope, state⟩ := x
  cases hp
  exact hx.program

/-- A `return` in the right operand of the second element of an array, then one more statement. -/
def interrupted : List Stmt :=
  [.expr (.array [.int 1, .infixOp (.int 2) .add (.cond (.bool true) [.result (.int 3)] none)]),
    .expr (.int 99)]

theorem unwound_of_nested_interrupted :
    let s := enclosed (State.initial 0) 0
    let call : Site := ⟨.expr (.call (.function [] interrupted) []), 0, State.initial 0⟩
    let x : Site := ⟨.body interrupted, 1, s⟩
    let y : Site := ⟨.stmt (.result (.int 3)), 2, enclosed s 1⟩
    ReflTransGen Enters x y ∧ y.Ends (.unwound (.returned (.int 3)) (enclosed s 1)) ∧
      x.Ends (.unwound (.returned (.int 3)) (enclosed s 1)) ∧
      call.Ends (.normal (.int 3) (enclosed s 1)) ∧
      Eval.Ends (fun n => Program.eval n 1 interrupted) s (.normal (.int 3) (enclosed s 1)) := by
  intro s call x y
  let choice : Expr := .cond (.bool true) [.result (.int 3)] none
  let sum : Expr := .infixOp (.int 2) .add choice
  have hstatement : Enters x ⟨.stmt (.expr (.array [.int 1, sum])), 1, s⟩ :=
    @Enters.statement [] _ [.expr (.int 99)] _ _ .null _ ⟨0, rfl⟩
  have helement : Enters ⟨.expr (.array [.int 1, sum]), 1, s⟩ ⟨.expr sum, 1, s⟩ :=
    @Enters.element [.int 1] sum [] _ _ [.int 1] _ ⟨1, rfl⟩
  have hright : Enters ⟨.expr sum, 1, s⟩ ⟨.expr choice, 1, s⟩ :=
    @Enters.right _ _ _ _ _ (.int 2) _ ⟨1, rfl⟩
  have hchosen : Enters ⟨.expr choice, 1, s⟩ ⟨.stmt (.block [.result (.int 3)]), 1, s⟩ :=
    @Enters.consequence _ _ _ _ _ (.bool true) _ ⟨1, rfl⟩ rfl
  have hresult : Enters ⟨.body [.result (.int 3)], 2, enclosed s 1⟩ y :=
    @Enters.statement [] _ [] _ _ .null _ ⟨0, rfl⟩
  have hxy : ReflTransGen Enters x y :=
    .head hstatement (.head (.expr _ _ _) (.head helement (.head hright (.head hchosen
      (.head (.block _ _ _) (.single hresult))))))
  have hy : y.Ends (.unwound (.returned (.int 3)) (enclosed s 1)) := ⟨2, rfl⟩
  have hcall : call.Calls x :=
    @Calls.intro _ _ _ _ _ _ _ (State.initial 0) [] (State.initial 0) _ ⟨1, rfl⟩ ⟨0, rfl⟩ rfl rfl
  obtain ⟨hx, hcaught, hprogram⟩ := unwound_of_nested hxy hy
  exact ⟨hxy, hy, hx, hcaught call hcall, hprogram interrupted rfl⟩

end Site

end Nut
