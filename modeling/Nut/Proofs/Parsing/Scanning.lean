import Nut.Proofs.Parsing.Contained
import Nut.Syntax.Scan

/-! The scanner comes to the same results as the rules, on the same tokens, and gets from place to
place by single steps. -/

namespace Nut

open Scanner (tokens_next)

namespace Scanner

def Reaches : Scanner → Scanner → Prop :=
  Relation.ReflTransGen fun s s' => s.next = s'

namespace Reaches

variable {s s' : Scanner}

lemma next (s : Scanner) : s.Reaches s.next :=
  .single rfl

lemma suffix (h : s.Reaches s') : s'.tokens <:+ s.tokens := by
  induction h with
  | refl => exact List.suffix_rfl
  | tail _ hs ih =>
    subst hs
    rw [tokens_next]
    exact (List.tail_suffix _).trans ih

end Reaches

end Scanner

namespace Scan

variable {α β : Type}

/-- The scanner stands on the first of the tokens. -/
def At (ts : List Token) (s : Scanner) : Prop :=
  s.tokens = ts

/-- The scanner stands on the token in front of them. -/
def Behind (ts : List Token) (s : Scanner) : Prop :=
  ∃ t, s.tokens = t :: ts

/-- The results are the same, and what is left over lies behind the place that `s` has come to. -/
inductive Matches (s : Scanner) : Parsed α → Scanned α → Prop
  | done {a : α} {rest : List Token} {s' : Scanner} (hr : s.Reaches s') (hb : Behind rest s') :
      Matches s (.done a rest) (.done a s')
  | failed {error : ParseError} {rest : List Token} {s' : Scanner} (hr : s.Reaches s')
      (ht : s'.tokens.tail = rest) : Matches s (.failed error rest) (.failed error s')
  | exhausted : Matches s .exhausted .exhausted

lemma Matches.after {s s' : Scanner} {x : Parsed α} {y : Scanned α} (h : Matches s' x y)
    (hs : s.Reaches s') : Matches s x y := by
  cases h with
  | done hr hb => exact .done (hs.trans hr) hb
  | failed hr ht => exact .failed (hs.trans hr) ht
  | exhausted => exact .exhausted

/-- `E` says where the scanner stands to read what the parser is given. -/
def Follows (E : List Token → Scanner → Prop) (p : Parse α) (q : Scan α) : Prop :=
  ∀ ts s, E ts s → Matches s (p ts) (q s)

lemma bind_apply (q : Scan α) (f : α → Scan β) (s : Scanner) :
    (q >>= f) s =
      match q s with
      | .done a s => f a s
      | .failed error s => .failed error s
      | .exhausted => .exhausted :=
  rfl

namespace Follows

variable {E : List Token → Scanner → Prop} {p : Parse α} {q : Scan α}

lemma bind {f : α → Parse β} {f' : α → Scan β} (hp : Follows E p q)
    (hf : ∀ a, Follows Behind (f a) (f' a)) : Follows E (p >>= f) (q >>= f') := by
  intro ts s hs
  have h := hp ts s hs
  rw [Parse.bind_apply, bind_apply]
  generalize p ts = x at h
  generalize q s = y at h
  cases h with
  | done hr hb => exact (hf _ _ _ hb).after hr
  | failed hr ht => exact .failed hr ht
  | exhausted => exact .exhausted

lemma pure (a : α) : Follows Behind (Pure.pure a) (Pure.pure a) :=
  fun _ _ hs => .done .refl hs

lemma map (f : α → β) (hp : Follows E p q) : Follows E (f <$> p) (f <$> q) :=
  hp.bind fun a => pure (f a)

lemma fail (error : ParseError) : Follows Behind (Parse.fail error : Parse α) (Scan.fail error) := by
  rintro ts s ⟨t, ht⟩
  exact .failed .refl (by rw [ht, List.tail_cons])

lemma exhausted : Follows E (Parse.exhausted : Parse α) Scan.exhausted :=
  fun _ _ _ => .exhausted

lemma next (hp : Follows At p q) : Follows Behind p (Scan.next >>= fun _ => q) := by
  rintro ts s ⟨t, ht⟩
  have hs : At ts s.next := by rw [At, tokens_next, ht, List.tail_cons]
  exact (hp ts s.next hs).after (.next s)

lemma peek?_eq {ts : List Token} {s : Scanner} (hs : Behind ts s) : s.peek? = ts.head? := by
  obtain ⟨t, ht⟩ := hs
  rw [Scanner.peek?, ht, List.tail_cons]

lemma behind_next {ts : List Token} {t : Token} {s : Scanner} (hs : Behind (t :: ts) s) :
    Behind ts s.next := by
  obtain ⟨u, hu⟩ := hs
  exact ⟨t, by rw [tokens_next, hu, List.tail_cons]⟩

lemma peek? : Follows Behind Parse.peek? Scan.peek? := by
  intro ts s hs
  rw [Scan.peek?, peek?_eq hs]
  exact .done .refl hs

lemma accept (wanted : Token) : Follows Behind (Parse.accept wanted) (Scan.accept wanted) := by
  intro ts s hs
  rw [Scan.accept, peek?_eq hs]
  cases ts with
  | nil => exact .done .refl hs
  | cons t ts =>
    simp only [Parse.accept, List.head?_cons, Option.some.injEq]
    split
    · exact .done (.next s) (behind_next hs)
    · exact .done .refl hs

lemma expect (wanted : Token) : Follows Behind (Parse.expect wanted) (Scan.expect wanted) := by
  intro ts s hs
  rw [Scan.expect, peek?_eq hs]
  cases ts with
  | nil => exact fail _ _ _ hs
  | cons t ts =>
    simp only [Parse.expect, List.head?_cons, Option.some.injEq]
    split
    · exact .done (.next s) (behind_next hs)
    · exact fail _ _ _ hs

lemma terminator : Follows Behind Parse.terminator Scan.terminator :=
  (accept .semicolon).bind fun _ => pure ()

end Follows

end Scan

open Scan (Follows At Behind Matches)

namespace Scanning

variable {s : Scanner} {name : String} {ts : List Token}

lemma parameterNames_comma (hs : s.tokens = .ident name :: .comma :: ts) :
    parameterNames s =
      match parameterNames s.next.next with
      | .done names s => .done (name :: names) s
      | .failed error s => .failed error s
      | .exhausted => .exhausted := by
  rw [parameterNames]
  split <;> grind

lemma parameterNames_last (hs : s.tokens = .ident name :: ts) (hts : ∀ us, ts ≠ .comma :: us) :
    parameterNames s = (do Scan.expect .rparen; return [name] : Scan _) s := by
  rw [parameterNames]
  split <;> grind

lemma parameterNames_other (hs : ∀ name us, s.tokens ≠ .ident name :: us) :
    parameterNames s = .failed (.expectedParameter s.tokens.head?) s := by
  rw [parameterNames]
  split <;> simp_all

end Scanning

/-- At whatever depth the rules are tied, the scanner reads by them. -/
structure Rules.Followed (g : Rules) (h : Scanning) : Prop where
  statement : Follows At g.statement h.statement
  statements : Follows At g.statements h.statements
  expression (floor : Nat) : Follows At (g.expression floor) (h.expression floor)
  infixes (floor : Nat) (left : Expr) : Follows Behind (g.infixes floor left) (h.infixes floor left)
  elements (close : Token) : Follows Behind (g.elements close) (h.elements close)
  pairs : Follows Behind g.pairs h.pairs

namespace Rules.Followed

variable {g : Rules} {h : Scanning} (hg : g.Followed h)

include hg

lemma whole : Follows At g.whole h.whole :=
  hg.expression _

lemma nextWhole : Follows Behind g.whole h.nextWhole :=
  hg.whole.next

lemma grouped : Follows Behind g.grouped h.grouped :=
  hg.nextWhole.bind fun e => (Follows.expect .rparen).bind fun _ => .pure e

lemma position : Follows Behind g.position h.position :=
  hg.nextWhole.bind fun e => (Follows.expect .rbracket).bind fun _ => .pure e

lemma list (close : Token) : Follows Behind (g.list close) (h.list close) := by
  apply (Follows.accept close).bind
  intro found
  cases found with
  | true => exact .pure []
  | false => exact hg.elements close

lemma braces : Follows Behind g.braces h.braces :=
  (Follows.expect .lbrace).bind fun _ => hg.statements.next

lemma pairValue : Follows Behind g.pairValue h.pairValue := by
  refine (Follows.expect .colon).bind fun _ => ?_
  refine hg.nextWhole.bind fun value => Follows.peek?.bind fun next => ?_
  split
  · exact .pure value
  · exact (Follows.expect .comma).bind fun _ => .pure value

omit hg in
lemma parameterNames : Follows At Rules.parameterNames Scanning.parameterNames := by
  intro ts s hs
  fun_induction Rules.parameterNames ts generalizing s with
  | case1 name ts _ _ hn ih | case2 name ts _ _ hn ih | case3 name ts hn ih =>
    have hts : At ts s.next.next := by rw [At, tokens_next, tokens_next, hs]; rfl
    have hm := (ih _ hts).after ((Scanner.Reaches.next s).tail rfl)
    rw [Scanning.parameterNames_comma hs]
    rw [hn] at hm
    generalize Scanning.parameterNames s.next.next = y at hm
    cases hm
    constructor <;> assumption
  | case4 name ts hts =>
    have hlast : Follows Behind (do Parse.expect .rparen; return [name]) do
        Scan.expect .rparen; return [name] :=
      (Follows.expect .rparen).bind fun _ => .pure [name]
    rw [Scanning.parameterNames_last hs hts]
    exact hlast ts s ⟨_, hs⟩
  | case5 t ts _ ht =>
    rw [Scanning.parameterNames_other fun name us h => ht name (List.cons.inj (hs.symm.trans h)).1, hs]
    exact .failed .refl (by rw [hs]; rfl)
  | case6 =>
    rw [Scanning.parameterNames_other fun name us h => List.cons_ne_nil _ _ (h.symm.trans hs), hs]
    exact .failed .refl (by rw [hs]; rfl)

omit hg in
lemma parameters : Follows Behind Rules.parameters Scanning.parameters := by
  refine (Follows.expect .lparen).bind fun _ => (Follows.accept .rparen).bind fun found => ?_
  cases found with
  | true => exact .pure []
  | false => exact parameterNames.next

lemma conditional : Follows Behind g.conditional h.conditional := by
  refine (Follows.expect .lparen).bind fun _ => hg.grouped.bind fun condition => ?_
  refine hg.braces.bind fun consequence => (Follows.accept (.keyword .otherwise)).bind fun found => ?_
  cases found with
  | true => exact hg.braces.bind fun alternative => .pure _
  | false => exact .pure _

lemma functionLiteral : Follows Behind g.functionLiteral h.functionLiteral :=
  parameters.bind fun _ => hg.braces.bind fun _ => .pure _

omit hg in
lemma integerLiteral (digits : String) :
    Follows Behind (Rules.integerLiteral digits) (Scanning.integerLiteral digits) := by
  unfold Rules.integerLiteral Scanning.integerLiteral
  cases readInteger? digits with
  | some n => exact .pure _
  | none => exact .fail _

lemma negated (op : PrefixOp) :
    Follows Behind (.prefixOp op <$> g.expression Level.unary) (h.negated op) :=
  ((hg.expression _).map _).next

lemma operand (t : Token) : Follows Behind (g.operand t) (h.operand t) := by
  cases t with
  | ident | float | string => exact .pure _
  | int digits => exact integerLiteral digits
  | bang => exact hg.negated .not
  | op o =>
    cases o with
    | sub => exact hg.negated .neg
    | _ => exact .fail _
  | lparen => exact hg.grouped
  | lbracket => exact (hg.list .rbracket).map _
  | lbrace => exact hg.pairs.map _
  | keyword k =>
    cases k with
    | truth | falsity => exact .pure _
    | condition => exact hg.conditional
    | function => exact hg.functionLiteral
    | _ => exact .fail _
  | _ => exact .fail _

lemma expressionRule (floor : Nat) : Follows At (g.expressionRule floor) (h.expressionRule floor) := by
  rintro _ ⟨⟨ts, depth⟩, passed⟩ rfl
  cases ts with
  | nil => exact .failed .refl rfl
  | cons t ts => exact (hg.operand t).bind (hg.infixes floor) ts _ ⟨t, rfl⟩

lemma assignment (left : Expr) : Follows Behind (g.assignment left) (h.assignment left) := by
  cases left with
  | ident name => exact hg.nextWhole.map _
  | _ => exact .fail _

lemma operation (left : Expr) (o : InfixOp) :
    Follows Behind (.infixOp left o <$> g.expression o.level) (h.operation left o) :=
  ((hg.expression _).map _).next

lemma continuation? (left : Expr) (t : Token) :
    (g.continuation? left t = none ∧ h.continuation? left t = none) ∨
      ∃ level p q, g.continuation? left t = some (level, p) ∧
        h.continuation? left t = some (level, q) ∧ Follows Behind p q := by
  cases t with
  | op o => exact .inr ⟨_, _, _, rfl, rfl, hg.operation left o⟩
  | assign => exact .inr ⟨_, _, _, rfl, rfl, hg.assignment left⟩
  | lparen => exact .inr ⟨_, _, _, rfl, rfl, (hg.list _).map _⟩
  | lbracket => exact .inr ⟨_, _, _, rfl, rfl, hg.position.map _⟩
  | _ => exact .inl ⟨rfl, rfl⟩

lemma infixesRule (floor : Nat) (left : Expr) :
    Follows Behind (g.infixesRule floor left) (h.infixesRule floor left) := by
  intro ts s hs
  rw [Scanning.infixesRule, Scan.bind_apply]
  simp only [Scan.peek?, Follows.peek?_eq hs]
  cases ts with
  | nil => exact .done .refl hs
  | cons t ts =>
    obtain ⟨hp, hq⟩ | ⟨level, p, q, hp, hq, hpq⟩ := hg.continuation? left t
    · simp only [Rules.infixesRule, hp, List.head?_cons, Option.bind_some, hq]
      exact .done .refl hs
    · simp only [Rules.infixesRule, hp, List.head?_cons, Option.bind_some, hq]
      split
      · have hi := hpq.bind (hg.infixes floor) ts s.next (Follows.behind_next hs)
        exact hi.after (.next s)
      · exact .done .refl hs

lemma elementsRule (close : Token) : Follows Behind (g.elementsRule close) (h.elementsRule close) := by
  refine hg.nextWhole.bind fun e => (Follows.accept .comma).bind fun found => ?_
  cases found with
  | true => exact (hg.elements close).map _
  | false => exact (Follows.expect close).bind fun _ => .pure _

lemma pairsRule : Follows Behind g.pairsRule h.pairsRule := by
  have hend : Follows Behind (do Parse.expect .rbrace; return []) do
      Scan.expect .rbrace; return ([] : List (Expr × Expr)) :=
    (Follows.expect .rbrace).bind fun _ => .pure []
  have hcons : Follows Behind
      (do let key ← g.whole; let value ← g.pairValue; return (key, value) :: (← g.pairs))
      (do let key ← h.nextWhole; let value ← h.pairValue; return (key, value) :: (← h.pairs)) :=
    hg.nextWhole.bind fun key => hg.pairValue.bind fun value => hg.pairs.map _
  refine Follows.peek?.bind fun next => ?_
  cases next with
  | none => exact hend
  | some t =>
    cases t with
    | rbrace => exact hend
    | _ => exact hcons

omit hg in
lemma terminated {E : List Token → Scanner → Prop} {p : Parse Stmt} {q : Scan Stmt}
    (hp : Follows E p q) : Follows E (Rules.terminated p) (Scanning.terminated q) :=
  hp.bind fun s => Follows.terminator.bind fun _ => .pure s

lemma binding (name : String) : Follows Behind (g.binding name) (h.binding name) :=
  terminated (hg.nextWhole.map _)

lemma declaration : Follows Behind g.declaration h.declaration := by
  rintro ts ⟨⟨_, depth⟩, passed⟩ ⟨u, rfl⟩
  cases ts with
  | nil => exact .failed (.next _) rfl
  | cons t ts =>
    cases t with
    | ident name =>
      have hb : Follows Behind (Parse.expect .assign >>= fun _ => g.binding name)
          (Scan.expect .assign >>= fun _ => h.binding name) :=
        (Follows.expect .assign).bind fun _ => hg.binding name
      exact (hb ts _ ⟨.ident name, rfl⟩).after (.next _)
    | _ => exact .failed (.next _) rfl

lemma initializer : Follows At g.initializer h.initializer := by
  intro ts s hs
  have hm := hg.statement ts s hs
  rw [Rules.initializer, Scanning.initializer, Parse.bind_apply, Scan.bind_apply, Parse.withLast]
  generalize g.statement ts = x at hm
  generalize h.statement s = y at hm
  cases hm with
  | @done init rest s' hr hb =>
    obtain ⟨t, ht⟩ := hb
    obtain ⟨u, hu⟩ := hr.suffix
    -- The token that the scanner has come to is the last one that the rule took.
    have hlast : (Parse.consumed ts rest).getLast? = some t := by
      obtain rfl : s.tokens = ts := hs
      rw [Parse.consumed, ← hu, ht, List.append_cons, List.length_append, Nat.add_sub_cancel,
        List.take_left, List.getLast?_concat]
    have hc : Scan.current? s' = .done (some t) s' := by rw [Scan.current?, Scanner.current?, ht]; rfl
    simp only [hlast]
    rw [Scan.bind_apply, hc]
    dsimp only
    split
    · exact .done hr ⟨t, ht⟩
    · exact .failed hr (by rw [ht, List.tail_cons])
  | failed hr ht => exact .failed hr ht
  | exhausted => exact .exhausted

lemma loop : Follows Behind g.loop h.loop := by
  refine (Follows.expect .lparen).bind fun _ => Follows.next ?_
  refine hg.initializer.bind fun init => hg.nextWhole.bind fun condition => ?_
  refine (Follows.expect .semicolon).bind fun _ => Follows.next ?_
  refine hg.statement.bind fun post => (Follows.expect .rparen).bind fun _ => ?_
  exact hg.braces.bind fun body => .pure _

lemma hashStatement (pairs : List (Expr × Expr)) :
    Follows Behind (g.hashStatement pairs) (h.hashStatement pairs) :=
  terminated ((hg.infixes _ _).map _)

lemma blockStatement (before : List Stmt) :
    Follows At (g.blockStatement before) (h.blockStatement before) :=
  terminated (hg.statements.map _)

lemma openStatement : Follows At g.openStatement h.openStatement := by
  refine hg.whole.bind fun first => Follows.peek?.bind fun next => ?_
  split
  · exact hg.pairValue.bind fun value => hg.pairs.bind fun pairs => hg.hashStatement _
  · exact Follows.terminator.bind fun _ => (hg.blockStatement _).next

omit hg in
lemma startsStatement_take (ts : List Token) :
    Rules.startsStatement (ts.take 2) = Rules.startsStatement ts := by
  match ts with
  | [] | [_] => rfl
  | t :: u :: ts => exact (@Rules.Contained.startsStatement_append t [u] (by simp) ts).symm

lemma braceStatement : Follows Behind g.braceStatement h.braceStatement := by
  apply Follows.next
  rintro _ ⟨⟨ts, depth⟩, passed⟩ rfl
  rw [Scan.bind_apply]
  simp only [Scan.current?, Scanner.current?]
  by_cases ht : ts.head? = some .rbrace
  · obtain ⟨ts, rfl⟩ := List.head?_eq_some_iff.mp ht
    exact hg.hashStatement [] ts _ ⟨.rbrace, rfl⟩
  · have hp : g.braceStatement ts =
        (if Rules.startsStatement ts then g.blockStatement [] else g.openStatement) ts := by
      unfold Rules.braceStatement
      split
      · simp at ht
      · split <;> rfl
    rw [if_neg ht, hp, Scan.bind_apply]
    simp only [Scan.sight, startsStatement_take]
    split
    · exact hg.blockStatement [] _ _ rfl
    · exact hg.openStatement _ _ rfl

omit hg in
lemma statementRule_expr {ts : List Token} {s : Scanner} (hs : At ts s)
    (hst : Rules.startsStatement ts = false) :
    h.statementRule s = Scanning.terminated (.expr <$> h.whole) s := by
  rw [← startsStatement_take, ← hs] at hst
  rw [Scanning.statementRule, Scan.bind_apply]
  simp only [Scan.sight]
  generalize s.tokens.take 2 = us at hst ⊢
  split <;> first | rfl | cases hst

lemma statementRule : Follows At g.statementRule h.statementRule := by
  rintro _ ⟨⟨ts, depth⟩, passed⟩ rfl
  cases hst : Rules.startsStatement ts with
  | false =>
    rw [statementRule_expr rfl hst, Rules.statementRule_expr g hst]
    exact terminated (hg.whole.map _) _ _ rfl
  | true =>
    match ts with
    | .keyword .binding :: ts => exact hg.declaration ts _ ⟨_, rfl⟩
    | .keyword .result :: ts => exact terminated (hg.nextWhole.map _) ts _ ⟨_, rfl⟩
    | .keyword .loop :: ts => exact hg.loop ts _ ⟨_, rfl⟩
    | .lbrace :: ts => exact hg.braceStatement ts _ ⟨_, rfl⟩
    | .ident name :: .bind :: ts => exact (hg.binding name ts _ ⟨.bind, rfl⟩).after (.next _)

lemma statementsRule : Follows At g.statementsRule h.statementsRule := by
  have hcons : Follows At (do let s ← g.statement; return s :: (← g.statements))
      (do let s ← h.statement; Scan.next; return s :: (← h.statements)) :=
    hg.statement.bind fun s => (hg.statements.map _).next
  rintro _ ⟨⟨ts, depth⟩, passed⟩ rfl
  cases ts with
  | nil => exact .failed .refl rfl
  | cons t ts =>
    cases t with
    | rbrace => exact .done .refl ⟨.rbrace, rfl⟩
    | _ => exact hcons _ _ rfl

lemma deeper : g.deeper.Followed h.deeper where
  statement := hg.statementRule
  statements := hg.statementsRule
  expression := hg.expressionRule
  infixes := hg.infixesRule
  elements := hg.elementsRule
  pairs := hg.pairsRule

end Rules.Followed

lemma Rules.followed_nested (n : Nat) : (Rules.nested n).Followed (Scanning.nested n) := by
  induction n with
  | zero =>
    exact ⟨.exhausted, .exhausted, fun _ => .exhausted, fun _ _ => .exhausted, fun _ => .exhausted,
      .exhausted⟩
  | succ n ih => exact ih.deeper

end Nut
