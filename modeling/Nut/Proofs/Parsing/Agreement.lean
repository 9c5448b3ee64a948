import Mathlib
import Nut.Syntax.Program

/-! Rules that agree down to some depth give rules that agree one deeper. -/

namespace Nut.Parse

variable {α β : Type}

/-- `p` and `q` come to the same result on `ts`, and succeed by taking `k` tokens at least. -/
def AgreeOn (k : Nat) (p q : Parse α) (ts : List Token) : Prop :=
  p ts = q ts ∧ p ts ≠ .exhausted ∧ ∀ a rest, p ts = .done a rest → rest.length + k ≤ ts.length

def Agree (k n : Nat) (p q : Parse α) : Prop :=
  ∀ ts, ts.length ≤ n → AgreeOn k p q ts

lemma AgreeOn.weaken {k : Nat} {p q : Parse α} {ts : List Token} (h : AgreeOn k p q ts) :
    AgreeOn 0 p q ts :=
  ⟨h.1, h.2.1, fun a rest ha => Nat.le_trans (Nat.le_add_right _ k) (h.2.2 a rest ha)⟩

lemma AgreeOn.nil {k : Nat} {p q : Parse α} {error : ParseError} (hp : p [] = .failed error [])
    (hq : q [] = .failed error []) : AgreeOn k p q [] := by
  simp [AgreeOn, hp, hq]

namespace Agree

variable {k n m : Nat} {p q : Parse α} {f f' : α → Parse β}

lemma weaken (h : Agree k n p q) : Agree 0 n p q :=
  fun ts hn => (h ts hn).weaken

lemma bind (hp : Agree k n p q) (hf : k ≤ n → ∀ a, Agree 0 (n - k) (f a) (f' a)) :
    Agree k n (p >>= f) (q >>= f') := by
  intro ts hn
  obtain ⟨he, hx, hr⟩ := hp ts hn
  rw [AgreeOn, bind_apply, bind_apply, ← he]
  cases hd : p ts with
  | done a rest =>
    have hl := hr a rest hd
    obtain ⟨he', hx', hr'⟩ := hf (by omega) a rest (by omega)
    refine ⟨he', hx', fun b rest' hb => ?_⟩
    have := hr' b rest' hb
    omega
  | failed error rest => simp
  | exhausted => exact absurd hd hx

lemma after (hp : Agree 0 n p q) (hf : ∀ a, Agree k n (f a) (f' a)) :
    Agree k n (p >>= f) (q >>= f') := by
  intro ts hn
  obtain ⟨he, hx, hr⟩ := hp ts hn
  rw [AgreeOn, bind_apply, bind_apply, ← he]
  cases hd : p ts with
  | done a rest =>
    have hl := hr a rest hd
    obtain ⟨he', hx', hr'⟩ := hf a rest (by omega)
    refine ⟨he', hx', fun b rest' hb => ?_⟩
    have := hr' b rest' hb
    omega
  | failed error rest => simp
  | exhausted => exact absurd hd hx

lemma pure (a : α) : Agree 0 n (Pure.pure a : Parse α) (Pure.pure a) := by
  rintro ts -
  refine ⟨rfl, by rintro ⟨⟩, ?_⟩
  rintro b rest ⟨⟩
  exact Nat.le_refl _

lemma map (g : α → β) (hp : Agree k n p q) : Agree k n (g <$> p) (g <$> q) :=
  hp.bind fun _ a => pure (g a)

lemma fail (error : ParseError) : Agree k n (Parse.fail error : Parse α) (Parse.fail error) := by
  rintro ts -
  exact ⟨rfl, by rintro ⟨⟩, by rintro a rest ⟨⟩⟩

lemma peek? : Agree 0 n Parse.peek? Parse.peek? := by
  rintro ts -
  refine ⟨rfl, by rintro ⟨⟩, ?_⟩
  rintro a rest ⟨⟩
  exact Nat.le_refl _

lemma expect (wanted : Token) : Agree 1 n (Parse.expect wanted) (Parse.expect wanted) := by
  rintro (_ | ⟨t, ts⟩) -
  · exact ⟨rfl, by rintro ⟨⟩, by rintro a rest ⟨⟩⟩
  · by_cases ht : t = wanted <;> simp [AgreeOn, Parse.expect, ht]

lemma accept (wanted : Token) : Agree 0 n (Parse.accept wanted) (Parse.accept wanted) := by
  rintro (_ | ⟨t, ts⟩) -
  · simp [AgreeOn, Parse.accept]
  · by_cases ht : t = wanted <;> simp [AgreeOn, Parse.accept, ht]

lemma terminator : Agree 0 n Parse.terminator Parse.terminator :=
  (accept .semicolon).bind fun _ _ => pure ()

lemma withLast (hp : Agree k n p q) : Agree k n p.withLast q.withLast := by
  intro ts hn
  obtain ⟨he, hx, hr⟩ := hp ts hn
  simp only [AgreeOn, Parse.withLast, ← he]
  cases hd : p ts with
  | done a rest => simpa using hr a rest hd
  | failed error rest => simp
  | exhausted => exact absurd hd hx

lemma closing (hp : Agree k n p q) (close : Token) :
    Agree k n (do let a ← p; Parse.expect close; return a) do
      let a ← q; Parse.expect close; return a :=
  hp.bind fun _ a => (expect close).weaken.bind fun _ _ => pure a

lemma cons {t : Token} {ts : List Token} (hts : (t :: ts).length ≤ n) (h : Agree 0 (n - 1) p q)
    {r s : Parse α} (hr : r (t :: ts) = p ts) (hs : s (t :: ts) = q ts) :
    AgreeOn 1 r s (t :: ts) := by
  rw [List.length_cons] at hts
  obtain ⟨he, hx, hl⟩ := h ts (by omega)
  rw [AgreeOn, hr, hs, List.length_cons]
  refine ⟨he, hx, fun a rest ha => ?_⟩
  have := hl a rest ha
  omega

end Agree

end Nut.Parse

namespace Nut.Rules

open Parse (accept expect peek? take? terminator)

/-- Rules that agree on every input for which the depth `d` is enough. -/
structure Agree (g h : Rules) (d : Nat) : Prop where
  statement {n} : 3 * n + 2 ≤ d → Parse.Agree 1 n g.statement h.statement
  statements {n} : 3 * n + 3 ≤ d → Parse.Agree 1 n g.statements h.statements
  expression {n} (floor : Nat) :
    3 * n + 1 ≤ d → Parse.Agree 1 n (g.expression floor) (h.expression floor)
  infixes {n} (floor : Nat) (left : Expr) :
    3 * n + 1 ≤ d → Parse.Agree 0 n (g.infixes floor left) (h.infixes floor left)
  elements {n} (close : Token) :
    3 * n + 2 ≤ d → Parse.Agree 1 n (g.elements close) (h.elements close)
  pairs {n} : 3 * n + 2 ≤ d → Parse.Agree 1 n g.pairs h.pairs

namespace Agree

variable {g h : Rules} {d n : Nat} (hr : Agree g h d)

include hr

lemma whole (hn : 3 * n + 1 ≤ d) : Parse.Agree 1 n g.whole h.whole :=
  hr.expression _ hn

lemma grouped (hn : 3 * n + 1 ≤ d) : Parse.Agree 1 n g.grouped h.grouped :=
  (hr.whole hn).closing .rparen

lemma position (hn : 3 * n + 1 ≤ d) : Parse.Agree 1 n g.position h.position :=
  (hr.whole hn).closing .rbracket

lemma list (close : Token) (hn : 3 * n + 2 ≤ d) : Parse.Agree 0 n (g.list close) (h.list close) := by
  refine (Parse.Agree.accept close).after fun found => ?_
  cases found with
  | true => exact .pure []
  | false => exact (hr.elements close hn).weaken

lemma braces (hn : 3 * n ≤ d) : Parse.Agree 1 n g.braces h.braces :=
  (Parse.Agree.expect .lbrace).bind fun _ _ => (hr.statements (by omega)).weaken

lemma pairValue (hn : 3 * n ≤ d) : Parse.Agree 1 n g.pairValue h.pairValue := by
  refine (Parse.Agree.expect .colon).bind fun hk _ => ?_
  refine (hr.whole (by omega)).weaken.bind fun _ value => Parse.Agree.peek?.bind fun _ next => ?_
  split
  · exact .pure value
  · exact (Parse.Agree.expect .comma).weaken.bind fun _ _ => .pure value

omit hr in
lemma parameterNames : Parse.Agree 0 n parameterNames parameterNames := by
  intro ts hn
  refine ⟨rfl, ?_⟩
  fun_induction Rules.parameterNames ts with
  | case1 name ts names rest h ih =>
    simp only [List.length_cons] at hn
    have := (ih (by omega)).2 names rest h
    simp
    omega
  | case2 name ts error rest h ih => simp
  | case3 name ts h ih => exact absurd h (ih (by simp at hn; omega)).1
  | case4 name ts h =>
    obtain ⟨_, hx, hl⟩ := ((Parse.Agree.expect .rparen).bind fun _ _ => .pure [name]) ts (Nat.le_refl _)
    refine ⟨hx, fun a rest ha => ?_⟩
    have := hl a rest ha
    simp
    omega
  | case5 t ts h h' => simp
  | case6 => simp

omit hr in
lemma parameters : Parse.Agree 1 n parameters parameters := by
  refine (Parse.Agree.expect .lparen).bind fun _ _ => (Parse.Agree.accept .rparen).bind fun _ found => ?_
  cases found with
  | true => exact .pure []
  | false => exact parameterNames

lemma conditional (hn : 3 * n + 1 ≤ d) : Parse.Agree 1 n g.conditional h.conditional := by
  refine (Parse.Agree.expect .lparen).bind fun _ _ => ?_
  refine (hr.grouped (by omega)).weaken.bind fun _ condition => ?_
  refine (hr.braces (by omega)).weaken.bind fun _ consequence => ?_
  refine (Parse.Agree.accept (.keyword .otherwise)).bind fun _ found => ?_
  cases found with
  | true => exact (hr.braces (by omega)).weaken.bind fun _ alternative => .pure _
  | false => exact .pure _

lemma functionLiteral (hn : 3 * n ≤ d) : Parse.Agree 1 n g.functionLiteral h.functionLiteral :=
  parameters.bind fun _ names => (hr.braces (by omega)).weaken.bind fun _ body => .pure _

omit hr in
lemma integerLiteral (digits : String) :
    Parse.Agree 0 n (integerLiteral digits) (integerLiteral digits) := by
  unfold Rules.integerLiteral
  split
  · exact .pure _
  · exact .fail _

lemma operand (t : Token) (hn : 3 * n + 3 ≤ d) : Parse.Agree 0 n (g.operand t) (h.operand t) := by
  cases t with
  | ident | float | string => exact .pure _
  | int digits => exact integerLiteral digits
  | bang => exact (hr.expression _ (by omega)).weaken.map _
  | op o =>
    cases o with
    | sub => exact (hr.expression _ (by omega)).weaken.map _
    | _ => exact .fail _
  | lparen => exact (hr.grouped (by omega)).weaken
  | lbracket => exact (hr.list _ (by omega)).map _
  | lbrace => exact (hr.pairs (by omega)).weaken.map _
  | keyword k =>
    cases k with
    | truth | falsity => exact .pure _
    | condition => exact (hr.conditional (by omega)).weaken
    | function => exact (hr.functionLiteral (by omega)).weaken
    | _ => exact .fail _
  | _ => exact .fail _

lemma assignment (left : Expr) (hn : 3 * n + 1 ≤ d) :
    Parse.Agree 0 n (g.assignment left) (h.assignment left) := by
  cases left with
  | ident name => exact (hr.whole hn).weaken.map _
  | _ => exact .fail _

lemma expressionRule (floor : Nat) (hn : 3 * n ≤ d) :
    Parse.Agree 1 n (g.expressionRule floor) (h.expressionRule floor) := by
  rintro (_ | ⟨t, ts⟩) hts
  · exact .nil rfl rfl
  · have hn' : 0 < n := by simp at hts; omega
    have ho := hr.operand (n := n - 1) t (by omega)
    exact (ho.bind fun _ e => hr.infixes floor e (by omega)).cons hts rfl rfl

lemma continuation? (left : Expr) (t : Token) (hn : 3 * n + 3 ≤ d) :
    (g.continuation? left t = none ∧ h.continuation? left t = none) ∨
      ∃ level p q, g.continuation? left t = some (level, p) ∧
        h.continuation? left t = some (level, q) ∧ Parse.Agree 0 n p q := by
  cases t with
  | op o => exact .inr ⟨_, _, _, rfl, rfl, (hr.expression _ (by omega)).weaken.map _⟩
  | assign => exact .inr ⟨_, _, _, rfl, rfl, hr.assignment left (by omega)⟩
  | lparen => exact .inr ⟨_, _, _, rfl, rfl, (hr.list _ (by omega)).map _⟩
  | lbracket => exact .inr ⟨_, _, _, rfl, rfl, (hr.position (by omega)).weaken.map _⟩
  | _ => exact .inl ⟨rfl, rfl⟩

lemma infixesRule (floor : Nat) (left : Expr) (hn : 3 * n ≤ d) :
    Parse.Agree 0 n (g.infixesRule floor left) (h.infixesRule floor left) := by
  rintro (_ | ⟨t, ts⟩) hts
  · exact ⟨rfl, by rintro ⟨⟩, by rintro a rest ⟨⟩; exact Nat.le_refl _⟩
  have hn' : 0 < n := by simp at hts; omega
  obtain ⟨hg, hh⟩ | ⟨level, p, q, hg, hh, hpq⟩ := hr.continuation? (n := n - 1) left t (by omega)
  · simp [Parse.AgreeOn, Rules.infixesRule, hg, hh]
  · by_cases hl : floor < level
    · have hb := hpq.bind fun _ e => hr.infixes (n := n - 1) floor e (by omega)
      refine (hb.cons hts ?_ ?_).weaken
      · simp [Rules.infixesRule, hg, hl]
      · simp [Rules.infixesRule, hh, hl]
    · simp [Parse.AgreeOn, Rules.infixesRule, hg, hh, hl]

lemma elementsRule (close : Token) (hn : 3 * n + 1 ≤ d) :
    Parse.Agree 1 n (g.elementsRule close) (h.elementsRule close) := by
  refine (hr.whole hn).bind fun hk e => (Parse.Agree.accept .comma).bind fun _ found => ?_
  cases found with
  | true => exact (hr.elements close (by omega)).weaken.map _
  | false => exact (Parse.Agree.expect close).weaken.bind fun _ _ => .pure _

lemma pairsRule (hn : 3 * n + 1 ≤ d) : Parse.Agree 1 n g.pairsRule h.pairsRule := by
  refine Parse.Agree.peek?.after fun next => ?_
  have hend : Parse.Agree 1 n (do expect .rbrace; return []) do expect .rbrace; return [] :=
    (Parse.Agree.expect .rbrace).bind fun _ _ => .pure ([] : List (Expr × Expr))
  split
  · exact hend
  · exact hend
  · refine (hr.whole hn).bind fun hk key => ?_
    refine (hr.pairValue (by omega)).weaken.bind fun _ value => ?_
    exact (hr.pairs (by omega)).weaken.map _

omit hr in
lemma terminated {k : Nat} {p q : Parse Stmt} (hp : Parse.Agree k n p q) :
    Parse.Agree k n (terminated p) (terminated q) :=
  hp.bind fun _ s => Parse.Agree.terminator.bind fun _ _ => .pure s

lemma binding (name : String) (hn : 3 * n + 1 ≤ d) :
    Parse.Agree 1 n (g.binding name) (h.binding name) :=
  terminated ((hr.whole hn).map _)

lemma declaration (hn : 3 * n + 1 ≤ d) : Parse.Agree 0 n g.declaration h.declaration := by
  rintro (_ | ⟨t, ts⟩) hts
  · exact .nil rfl rfl
  cases t with
  | ident name =>
    have hb : Parse.Agree 0 (n - 1) (expect .assign >>= fun _ => g.binding name)
        (expect .assign >>= fun _ => h.binding name) :=
      (Parse.Agree.expect .assign).weaken.bind fun _ _ => (hr.binding name (by omega)).weaken
    exact (hb.cons hts rfl rfl).weaken
  | _ => exact ⟨rfl, by rintro ⟨⟩, by rintro a rest ⟨⟩⟩

lemma initializer (hn : 3 * n + 2 ≤ d) : Parse.Agree 1 n g.initializer h.initializer := by
  refine (hr.statement hn).withLast.bind fun _ ⟨init, last⟩ => ?_
  dsimp only
  split
  · exact .pure init
  · exact .fail _

lemma loop (hn : 3 * n ≤ d) : Parse.Agree 1 n g.loop h.loop := by
  refine (Parse.Agree.expect .lparen).bind fun hk _ => ?_
  refine (hr.initializer (by omega)).weaken.bind fun _ init => ?_
  refine (hr.whole (by omega)).weaken.bind fun _ condition => ?_
  refine (Parse.Agree.expect .semicolon).weaken.bind fun _ _ => ?_
  refine (hr.statement (by omega)).weaken.bind fun _ post => ?_
  refine (Parse.Agree.expect .rparen).weaken.bind fun _ _ => ?_
  exact (hr.braces (by omega)).weaken.bind fun _ body => .pure _

lemma hashStatement (pairs : List (Expr × Expr)) (hn : 3 * n + 1 ≤ d) :
    Parse.Agree 0 n (g.hashStatement pairs) (h.hashStatement pairs) :=
  terminated ((hr.infixes _ _ hn).map _)

lemma blockStatement (before : List Stmt) (hn : 3 * n + 3 ≤ d) :
    Parse.Agree 0 n (g.blockStatement before) (h.blockStatement before) :=
  terminated ((hr.statements hn).weaken.map _)

lemma openStatement (hn : 3 * n + 3 ≤ d) : Parse.Agree 0 n g.openStatement h.openStatement := by
  refine (hr.whole (by omega)).weaken.bind fun _ first => Parse.Agree.peek?.bind fun _ next => ?_
  split
  · refine (hr.pairValue (by omega)).weaken.bind fun _ value => ?_
    exact (hr.pairs (by omega)).weaken.bind fun _ pairs => hr.hashStatement _ (by omega)
  · exact Parse.Agree.terminator.bind fun _ _ => hr.blockStatement _ (by omega)

lemma braceStatement (hn : 3 * n + 3 ≤ d) :
    Parse.Agree 0 n g.braceStatement h.braceStatement := by
  intro ts hts
  unfold Parse.AgreeOn Rules.braceStatement
  split
  · exact ((hr.hashStatement [] (by omega)).cons (r := g.braceStatement) (s := h.braceStatement)
      hts rfl rfl).weaken
  · split
    · exact hr.blockStatement [] hn ts hts
    · exact hr.openStatement hn ts hts

lemma statementRule (hn : 3 * n + 1 ≤ d) : Parse.Agree 1 n g.statementRule h.statementRule := by
  intro ts hts
  have hstep {p q : Parse Stmt} {t : Token} {ts : List Token} (hts : (t :: ts).length ≤ n)
      (hpq : 0 < n → Parse.Agree 0 (n - 1) p q) (hg : g.statementRule (t :: ts) = p ts)
      (hh : h.statementRule (t :: ts) = q ts) :
      Parse.AgreeOn 1 g.statementRule h.statementRule (t :: ts) :=
    (hpq (by simp at hts; omega)).cons hts hg hh
  unfold Parse.AgreeOn Rules.statementRule
  split
  · exact hstep hts (fun _ => hr.declaration (by omega)) rfl rfl
  · exact hstep hts (fun _ => terminated ((hr.whole (by omega)).weaken.map _)) rfl rfl
  · exact hstep hts (fun _ => (hr.loop (by omega)).weaken) rfl rfl
  · exact hstep hts (fun _ => hr.braceStatement (by omega)) rfl rfl
  · next name ts =>
    obtain ⟨he, hx, hl⟩ := hr.binding name hn ts (by simp at hts; omega)
    refine ⟨he, hx, fun a rest ha => ?_⟩
    have := hl a rest ha
    simp
    omega
  · exact terminated ((hr.whole hn).map _) ts hts

lemma statementsRule (hn : 3 * n + 2 ≤ d) : Parse.Agree 1 n g.statementsRule h.statementsRule := by
  intro ts hts
  unfold Parse.AgreeOn Rules.statementsRule
  split
  · simp
  · simp
  · exact ((hr.statement hn).bind fun hk s => (hr.statements (by omega)).weaken.map _) ts hts

lemma deeper : Agree g.deeper h.deeper (d + 1) where
  statement hn := hr.statementRule (by omega)
  statements hn := hr.statementsRule (by omega)
  expression floor hn := hr.expressionRule floor (by omega)
  infixes floor left hn := hr.infixesRule floor left (by omega)
  elements close hn := hr.elementsRule close (by omega)
  pairs hn := hr.pairsRule (by omega)

end Agree

end Nut.Rules
