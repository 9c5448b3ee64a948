import Nut.Proofs.Evaluation.Likeness
import Nut.Evaluation.Evaluate

/-! Two evaluations side by side. What their states, scopes and values have in common before, and
what every single operation keeps, they have in common after. -/

namespace Nut

def Stmt.declared? : Stmt → Option String
  | .declare name _ => some name
  | _ => none

/-- The relations are taken at a stage, a number that only grows along the two evaluations. -/
structure Coupling where
  /-- Both have the same allowance of steps. Otherwise the first may be left with less. -/
  exact : Prop
  state : Nat → State → State → Prop
  scope : Nat → Nat → Nat → Prop
  /-- Where a name may be declared. -/
  owner : Nat → Nat → Nat → String → Prop
  value : Nat → Value → Value → Prop

namespace Coupling

variable {C : Coupling} {α β γ δ : Type} {k l : Nat}

inductive Meet (C : Coupling) (k : Nat) (A : Nat → α → β → Prop) : Outcome α → Outcome β → Prop
  | normal {l a b s t} : k ≤ l → A l a b → C.state l s t → Meet C k A (.normal a s) (.normal b t)
  | returned {l v w s t} : k ≤ l → C.value l v w → C.state l s t →
      Meet C k A (.unwound (.returned v) s) (.unwound (.returned w) t)
  | failed {l s t} (fault : Fault) : k ≤ l → C.state l s t →
      Meet C k A (.unwound (.failed fault) s) (.unwound (.failed fault) t)
  | exhausted {o} : (C.exact → o = .exhausted) → Meet C k A .exhausted o

/-- From related states, at stage `k` or later. -/
def Runs (C : Coupling) (k : Nat) (A : Nat → α → β → Prop) (m : Eval α) (n : Eval β) : Prop :=
  ∀ l s t, k ≤ l → C.state l s t → C.Meet l A (m s) (n t)

lemma Meet.weaken {A : Nat → α → β → Prop} {o p} (h : C.Meet l A o p) (hk : k ≤ l) :
    C.Meet k A o p := by
  cases h with
  | normal hl ha hs => exact .normal (hk.trans hl) ha hs
  | returned hl hv hs => exact .returned (hk.trans hl) hv hs
  | failed fault hl hs => exact .failed fault (hk.trans hl) hs
  | exhausted ho => exact .exhausted ho

namespace Runs

variable {A : Nat → α → β → Prop} {B : Nat → γ → δ → Prop}

lemma later {m : Eval α} {n : Eval β} (h : C.Runs k A m n) (hk : k ≤ l) : C.Runs l A m n :=
  fun j s t hj hs => h j s t (hk.trans hj) hs

lemma imp {A' : Nat → α → β → Prop} {m : Eval α} {n : Eval β} (h : C.Runs k A m n)
    (ha : ∀ l a b, A l a b → A' l a b) : C.Runs k A' m n := by
  intro l s t hl hs
  have hm := h l s t hl hs
  generalize m s = o at hm
  generalize n t = p at hm
  cases hm with
  | normal hj h hs => exact .normal hj (ha _ _ _ h) hs
  | returned hj hv hs => exact .returned hj hv hs
  | failed fault hj hs => exact .failed fault hj hs
  | exhausted ho => exact .exhausted ho

protected lemma pure {a : α} {b : β} (h : ∀ l, k ≤ l → A l a b) : C.Runs k A (pure a) (pure b) :=
  fun l _ _ hl hs => .normal le_rfl (h l hl) hs

protected lemma bind {m : Eval α} {n : Eval β} {f : α → Eval γ} {g : β → Eval δ}
    (h : C.Runs k A m n) (hf : ∀ l a b, k ≤ l → A l a b → C.Runs l B (f a) (g b)) :
    C.Runs k B (m >>= f) (n >>= g) := by
  intro l s t hl hs
  show C.Meet l B (Eval.bind m f s) (Eval.bind n g t)
  simp only [Eval.bind]
  have hm := h l s t hl hs
  generalize m s = o at hm
  generalize n t = p at hm
  cases hm with
  | normal hj ha hs => exact (hf _ _ _ (hl.trans hj) ha _ _ _ le_rfl hs).weaken hj
  | returned hj hv hs => exact .returned hj hv hs
  | failed fault hj hs => exact .failed fault hj hs
  | exhausted ho =>
    refine .exhausted fun he => ?_
    rw [ho he]

lemma fail (fault : Fault) : C.Runs k A (Eval.fail fault) (Eval.fail fault) :=
  fun _ _ _ _ hs => .failed fault le_rfl hs

lemma exhausted {n : Eval β} (h : C.exact → n = Eval.exhausted) :
    C.Runs k A Eval.exhausted n :=
  fun _ t _ _ _ => .exhausted fun he => by rw [h he]; rfl

lemma ofExcept {r : Except Fault α} {r' : Except Fault β} (h : ∀ l, k ≤ l → Agree (A l) r r') :
    C.Runs k A (Eval.ofExcept r) (Eval.ofExcept r') := by
  intro l s t hl hs
  cases h l hl with
  | ok ha => exact .normal le_rfl ha hs
  | error fault => exact .failed fault le_rfl hs

lemma catchReturn {m n : Eval Value} (h : C.Runs k C.value m n) :
    C.Runs k C.value (Eval.catchReturn m) (Eval.catchReturn n) := by
  intro l s t hl hs
  show C.Meet l C.value (Eval.catchReturn m s) (Eval.catchReturn n t)
  have hm := h l s t hl hs
  simp only [Eval.catchReturn]
  generalize m s = o at hm
  generalize n t = p at hm
  cases hm with
  | normal hj hv hs => exact .normal hj hv hs
  | returned hj hv hs => exact .normal hj hv hs
  | failed fault hj hs => exact .failed fault hj hs
  | exhausted ho =>
    refine .exhausted fun he => ?_
    rw [ho he]

section Natives

variable {vs ws : List Value}

lemma printAll {V : Value → Value → Prop}
    (h : ∀ v w, V v w → C.Runs k (fun _ _ _ => True) (Eval.printLine v) (Eval.printLine w))
    (hnull : ∀ l, C.value l .null .null) (hvs : List.Forall₂ V vs ws) :
    C.Runs k C.value (Builtin.printAll vs) (Builtin.printAll ws) := by
  induction hvs generalizing k with
  | nil => exact .pure fun l _ => hnull l
  | cons hv _ ih =>
    exact (h _ _ hv).bind fun l _ _ hl _ => ih fun v w hvw => (h v w hvw).later hl

lemma call_self (hl : ∀ k, Likeness (C.value k)) (hs : ∀ {k s t}, C.state k s t → s = t)
    (hprint : ∀ {k s} (text : String), C.state k s s →
      C.state k { s with output := s.output ++ text } { s with output := s.output ++ text })
    (hdraw : ∀ {k s} (random : Generator), C.state k s s →
      C.state k { s with host := { s.host with random } } { s with host := { s.host with random } })
    (b : Builtin) (hvs : ∀ l, k ≤ l → List.Forall₂ (C.value l) vs vs) :
    C.Runs k C.value (b.call vs) (b.call vs) := by
  cases b with
  | puts =>
    refine printAll (fun v w hvw l s t _ hst => ?_) (fun l => (hl l).atom rfl)
      (List.forall₂_same.mpr fun _ _ => rfl)
    subst hvw
    obtain rfl := hs hst
    exact .normal le_rfl trivial (hprint _ hst)
  | rand =>
    refine Runs.bind (.ofExcept fun _ _ => .eq _) fun l bound _ _ hb => ?_
    subst hb
    refine Runs.bind (A := fun _ => Eq) (fun j s t _ hst => ?_) fun j i _ _ hi => ?_
    · obtain rfl := hs hst
      exact .normal le_rfl rfl (hdraw _ hst)
    · subst hi
      exact .pure fun l _ => (hl l).atom rfl
  | _ => exact .ofExcept fun l hk => Builtin.result_agree (hl l) _ (hvs l hk)

end Natives

end Runs

/-- What the operations on states and values have to keep. -/
structure Lawful (C : Coupling) (ops ops' : Operations) : Prop where
  scope_later {k l a b} : k ≤ l → C.scope k a b → C.scope l a b
  owner_later {k l a b name} : k ≤ l → C.owner k a b name → C.owner l a b name
  value_later {k l v w} : k ≤ l → C.value k v w → C.value l v w
  likeness (k : Nat) : Likeness (C.value k)
  function {k a b} (parameters : List String) (body : List Stmt) : C.scope k a b →
    C.value k (.function parameters body a) (.function parameters body b)
  of_function {k ps qs as bs a b} : C.value k (.function ps as a) (.function qs bs b) →
    ps = qs ∧ as = bs ∧ C.scope k a b
  lookup {k s t a b} (name : String) : C.state k s t → C.scope k a b →
    Option.Rel (C.value k) (s.heap.get? a name) (t.heap.get? b name)
  enclose {k a b} : C.scope k a b →
    C.Runs k (fun l c d => C.scope l c d ∧ ∀ name, C.owner l c d name)
      (Eval.enclose a) (Eval.enclose b)
  declare {k a b name v w} : C.owner k a b name → C.value k v w →
    C.Runs k (fun _ _ _ => True) (Eval.declare a name v) (Eval.declare b name w)
  assign {k a b v w} (name : String) : C.scope k a b → C.value k v w →
    C.Runs k (fun _ _ _ => True) (ops.assign a name v) (ops'.assign b name w)
  call {k vs ws} (b : Builtin) : List.Forall₂ (C.value k) vs ws →
    C.Runs k C.value (ops.call b vs) (ops'.call b ws)

namespace Lawful

variable {ops ops' : Operations} (L : C.Lawful ops ops')

include L

lemma value {v w : Value} (h : C.value k v w) : C.Runs k C.value (pure v) (pure w) :=
  .pure fun _ hl => L.value_later hl h

lemma atom {v : Value} (h : v.kind.isAtom) : C.Runs k C.value (pure v) (pure v) :=
  L.value ((L.likeness k).atom h)

lemma unwindReturned {v w : Value} (h : C.value k v w) :
    C.Runs k C.value (Eval.unwind (α := Value) (.returned v)) (Eval.unwind (α := Value) (.returned w)) :=
  fun _ _ _ hl hs => .returned le_rfl (L.value_later hl h) hs

lemma atomic {r : Except Fault Value} (h : ∀ v, r = .ok v → v.kind.isAtom) :
    C.Runs k C.value (Eval.ofExcept r) (Eval.ofExcept r) := by
  refine .ofExcept fun l _ => ?_
  cases r with
  | ok v => exact .ok ((L.likeness l).atom (h v rfl))
  | error fault => exact .error fault

lemma evalName {a b : Nat} (name : String) (h : C.scope k a b) :
    C.Runs k C.value (evalName a name) (evalName b name) := by
  refine Runs.bind (A := fun l => Option.Rel (C.value l)) ?_ fun l v w _ hv => ?_
  · exact fun l s t hl hs => .normal le_rfl (L.lookup name hs (L.scope_later hl h)) hs
  · cases hv with
    | some hv => exact L.value hv
    | none =>
      dsimp only
      split
      · exact L.atom rfl
      · exact .fail _

section Lists

variable {f g : Expr → Eval Value}

lemma evalAll (h : ∀ e, C.Runs k C.value (f e) (g e)) (es : List Expr) :
    C.Runs k (fun l => List.Forall₂ (C.value l)) (evalAll f es) (evalAll g es) := by
  induction es generalizing k with
  | nil => exact .pure fun _ _ => .nil
  | cons e es ih =>
    refine (h e).bind fun l v w hl hv => ?_
    refine (ih fun e => (h e).later hl).bind fun j vs ws hj hvs => ?_
    exact .pure fun i hi => .cons (L.value_later (hj.trans hi) hv)
      (hvs.imp fun _ _ => L.value_later hi)

lemma evalPairs (h : ∀ e, C.Runs k C.value (f e) (g e)) (pairs : List (Expr × Expr))
    {es fs : Entries Key Value} (hes : C.value k (.hash es) (.hash fs)) :
    C.Runs k (fun l es fs => C.value l (.hash es) (.hash fs)) (evalPairs f es pairs)
      (evalPairs g fs pairs) := by
  induction pairs generalizing k es fs with
  | nil => exact .pure fun _ hl => L.value_later hl hes
  | cons pair pairs ih =>
    refine (h pair.1).bind fun l v w hl hv => ?_
    rw [(L.likeness l).key_eq hv]
    refine Runs.bind (.ofExcept fun _ _ => .eq _) fun j key _ hj hkey => ?_
    subst hkey
    refine ((h pair.2).later (hl.trans hj)).bind fun i x y hi hx => ?_
    refine ih (fun e => (h e).later (hl.trans (hj.trans hi))) ?_
    exact (L.likeness i).hash_put key (L.value_later (hl.trans (hj.trans hi)) hes) hx

end Lists

lemma evalSequence {f g : Stmt → Eval Value} {ss : List Stmt}
    (h : ∀ s ∈ ss, C.Runs k C.value (f s) (g s)) {v w : Value} (hv : C.value k v w) :
    C.Runs k C.value (evalSequence f v ss) (evalSequence g w ss) := by
  induction ss generalizing k v w with
  | nil => exact L.value hv
  | cons s ss ih =>
    obtain ⟨hs, hss⟩ := List.forall_mem_cons.mp h
    exact hs.bind fun l v w hl hv => ih (fun s hs => (hss s hs).later hl) hv

lemma declareAll {a b : Nat} (h : ∀ name, C.owner k a b name) (names : List String)
    {vs ws : List Value} (hvs : List.Forall₂ (C.value k) vs ws) :
    C.Runs k (fun _ _ _ => True) (declareAll a (names.zip vs)) (declareAll b (names.zip ws)) := by
  induction names generalizing k vs ws with
  | nil => exact .pure fun _ _ => trivial
  | cons name names ih =>
    cases hvs with
    | nil => exact .pure fun _ _ => trivial
    | cons hv hvs =>
      refine (L.declare (h name) hv).bind fun l _ _ hl _ => ?_
      exact ih (fun name => L.owner_later hl (h name)) (hvs.imp fun _ _ => L.value_later hl)

section Blocks

variable {f g : Nat → Stmt → Eval Value}
  (h : ∀ l a b, k ≤ l → C.scope l a b → (∀ name, C.owner l a b name) →
    ∀ s, C.Runs l C.value (f a s) (g b s))

include h

lemma evalBlock {a b : Nat} (hab : C.scope k a b) (body : List Stmt) :
    C.Runs k C.value (evalBlock f a body) (evalBlock g b body) := by
  refine (L.enclose hab).bind fun l c d hl hcd => ?_
  exact L.evalSequence (fun s _ => h l c d hl hcd.1 hcd.2 s) ((L.likeness l).atom rfl)

lemma evalCall {v w : Value} {vs ws : List Value} (hv : C.value k v w)
    (hvs : List.Forall₂ (C.value k) vs ws) :
    C.Runs k C.value (evalCall ops f v vs) (evalCall ops' g w ws) := by
  cases (L.likeness k).shape hv with
  | function hf =>
    obtain ⟨rfl, rfl, hab⟩ := L.of_function hf
    simp only [Nut.evalCall, hvs.length_eq]
    split
    · refine (L.enclose hab).bind fun l c d hl hcd => ?_
      refine (L.declareAll hcd.2 _ (hvs.imp fun _ _ => L.value_later hl)).bind fun j _ _ hj _ => ?_
      refine .catchReturn (L.evalSequence (fun s _ => ?_) ((L.likeness j).atom rfl))
      exact (h l c d hl hcd.1 hcd.2 s).later hj
    · exact .fail _
  | builtin b => exact L.call b hvs
  | _ => exact .fail _

end Blocks

lemma evalLoop {condition condition' : Eval Value} {round round' : Eval Unit}
    (hc : C.Runs k C.value condition condition')
    (hr : C.Runs k (fun _ _ _ => True) round round') {n m : Nat} (hn : n ≤ m)
    (he : C.exact → n = m) :
    C.Runs k C.value (evalLoop condition round n) (evalLoop condition' round' m) := by
  induction n generalizing k m with
  | zero =>
    refine .exhausted fun h => ?_
    rw [← he h]
    rfl
  | succ n ih =>
    obtain ⟨m, rfl⟩ : ∃ i, m = i + 1 := ⟨m - 1, by omega⟩
    refine hc.bind fun l v w hl hv => ?_
    rw [(L.likeness l).truthy_eq hv]
    split
    · refine (hr.later hl).bind fun j _ _ hj _ => ?_
      exact ih (hc.later (hl.trans hj)) (hr.later (hl.trans hj)) (Nat.le_of_succ_le_succ hn) fun h =>
        Nat.succ.inj (he h)
    · exact L.atom rfl

lemma eval {n m : Nat} (hn : n ≤ m) (he : C.exact → n = m) :
    (∀ k a b e, C.scope k a b →
      C.Runs k C.value (Expr.evalWith ops n a e) (Expr.evalWith ops' m b e)) ∧
    ∀ k a b s, C.scope k a b → (∀ name, s.declared? = some name → C.owner k a b name) →
      C.Runs k C.value (Stmt.evalWith ops n a s) (Stmt.evalWith ops' m b s) := by
  -- The scopes, the stage and the other allowance change on the way down, so all are general.
  induction n generalizing m with
  | zero =>
    constructor
    all_goals
      intros
      refine .exhausted fun h => ?_
      rw [← he h]
      rfl
  | succ n ih =>
    obtain ⟨m, rfl⟩ : ∃ i, m = i + 1 := ⟨m - 1, by omega⟩
    obtain ⟨ihe, ihs⟩ := ih (Nat.le_of_succ_le_succ hn) fun h => Nat.succ.inj (he h)
    -- In a scope that was made for it a statement may declare any name.
    have hbody {k : Nat} : ∀ l a b, k ≤ l → C.scope l a b → (∀ name, C.owner l a b name) →
        ∀ s, C.Runs l C.value (Stmt.evalWith ops n a s) (Stmt.evalWith ops' m b s) :=
      fun l a b _ hab ho s => ihs l a b s hab fun name _ => ho name
    constructor
    · intro k a b e hab
      have hpart {l : Nat} (hl : k ≤ l) (e : Expr) :
          C.Runs l C.value (Expr.evalWith ops n a e) (Expr.evalWith ops' m b e) :=
        ihe l a b e (L.scope_later hl hab)
      cases e with
      | ident name => exact L.evalName name hab
      | int | float | string | bool => exact L.atom rfl
      | array es =>
        refine (L.evalAll (hpart le_rfl) es).bind fun l vs ws hl hvs => ?_
        exact L.value ((L.likeness l).array_iff.mpr hvs)
      | hash pairs =>
        refine (L.evalPairs (hpart le_rfl) pairs (L.likeness k).hash_nil).bind fun l _ _ _ h => ?_
        exact L.value h
      | prefixOp op right =>
        refine (hpart le_rfl right).bind fun l v w hl hv => ?_
        rw [(L.likeness l).prefix_eq op hv]
        exact L.atomic fun _ => op.isAtom_of_apply
      | infixOp left op right =>
        refine (hpart le_rfl left).bind fun l v v' hl hv => ?_
        refine (hpart hl right).bind fun j w w' hj hw => ?_
        rw [(L.likeness j).infix_eq op (L.value_later hj hv) hw]
        exact L.atomic fun _ => op.isAtom_of_apply
      | cond condition consequence alternative =>
        refine (hpart le_rfl condition).bind fun l v w hl hv => ?_
        rw [(L.likeness l).truthy_eq hv]
        split
        · exact L.evalBlock hbody (L.scope_later hl hab) consequence
        · cases alternative with
          | some body => exact L.evalBlock hbody (L.scope_later hl hab) body
          | none => exact L.atom rfl
      | function parameters body => exact L.value (L.function parameters body hab)
      | call callee es =>
        refine (hpart le_rfl callee).bind fun l v w hl hv => ?_
        refine (L.evalAll (hpart hl) es).bind fun j vs ws hj hvs => ?_
        exact L.evalCall hbody (L.value_later hj hv) hvs
      | index left position =>
        refine (hpart le_rfl left).bind fun l v v' hl hv => ?_
        refine (hpart hl position).bind fun j w w' hj hw => ?_
        exact .ofExcept fun i hi =>
          (L.likeness i).index (L.value_later (hj.trans hi) hv) (L.value_later hi hw)
      | assign name value =>
        refine (hpart le_rfl value).bind fun l v w hl hv => ?_
        refine (L.assign name (L.scope_later hl hab) hv).bind fun j _ _ hj _ => ?_
        exact L.value (L.value_later hj hv)
    · intro k a b s hab ho
      cases s with
      | expr e => exact ihe k a b e hab
      | result e =>
        exact (ihe k a b e hab).bind fun _ _ _ _ hv => L.unwindReturned hv
      | declare name e =>
        refine (ihe k a b e hab).bind fun l v w hl hv => ?_
        refine (L.declare (L.owner_later hl (ho name rfl)) hv).bind fun _ _ _ _ _ => ?_
        exact L.atom rfl
      | block body => exact L.evalBlock hbody hab body
      | loop init condition post body =>
        refine (L.enclose hab).bind fun l c d hl ⟨hcd, hown⟩ => ?_
        have hstmt (s : Stmt) :
            C.Runs l C.value (Stmt.evalWith ops n c s) (Stmt.evalWith ops' m d s) :=
          ihs l c d s hcd fun name _ => hown name
        refine (hstmt init).bind fun j _ _ hj _ => ?_
        refine L.evalLoop ((ihe l c d condition hcd).later hj) ?_ (Nat.le_of_succ_le_succ hn)
          fun h => Nat.succ.inj (he h)
        refine Runs.later ?_ hj
        refine (L.evalBlock hbody hcd body).bind fun i _ _ hi _ => ?_
        exact ((hstmt post).later hi).bind fun _ _ _ _ _ => .pure fun _ _ => trivial

end Lawful

end Coupling

end Nut
