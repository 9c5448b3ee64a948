import Nut.Proofs.Parsing.Statements
import Nut.Proofs.Parsing.Steady

/-! The rules of the grammar are contained by a fence, one level of nesting after the other. -/

namespace Nut.Rules

open Parse (accept expect peek? take? terminator ContainedOn)
open Recovery (step)

/-- Statements may take the fence, and nothing else that succeeds does. -/
structure Contained (g : Rules) : Prop where
  statement (d : Nat) : Parse.Contained d (Landed d) g.statement
  statements (d : Nat) : Parse.Contained (d + 1) (Fenced d) g.statements
  expression (d floor : Nat) : Parse.Contained d (Fenced d) (g.expression floor)
  expression_rest (floor : Nat) (t : Token) (ts : List Token) :
    (g.expression floor (t :: ts)).rest <:+ ts
  infixes (d floor : Nat) (left : Expr) : Parse.Contained d (Fenced d) (g.infixes floor left)
  elements (d : Nat) {close : Token} (hc : close = .rparen ∨ close = .rbracket) :
    Parse.Contained d (Fenced d) (g.elements close)
  pairs (d : Nat) : Parse.Contained (d + 1) (Fenced d) g.pairs

namespace Contained

variable {g : Rules} (hg : g.Contained) (d : Nat)

include hg

lemma whole : Parse.Contained d (Fenced d) g.whole :=
  hg.expression d _

lemma grouped : Parse.Contained d (Fenced d) g.grouped :=
  (hg.whole d).bind fun e => (Parse.Contained.expect .rparen (.inr (by simp))).bind fun _ => .pure e

lemma position : Parse.Contained d (Fenced d) g.position :=
  (hg.whole d).bind fun e => (Parse.Contained.expect .rbracket (.inr (by simp))).bind fun _ => .pure e

lemma list {close : Token} (hc : close = .rparen ∨ close = .rbracket) :
    Parse.Contained d (Fenced d) (g.list close) := by
  have ha : Parse.Contained d (Fenced d) (accept close) := by
    obtain rfl | rfl := hc <;> exact .accept _ (.inr (by simp)) rfl
  refine ha.bind fun found => ?_
  cases found with
  | true => exact .pure []
  | false => exact hg.elements d hc

lemma braces : Parse.Contained d (Fenced d) g.braces :=
  (Parse.Contained.expect .lbrace (.inr (by simp))).bind fun _ => hg.statements d

lemma pairValue : Parse.Contained d (Fenced d) g.pairValue := by
  refine (Parse.Contained.expect .colon (.inr (by simp))).bind fun _ => ?_
  refine (hg.whole d).bind fun value => Parse.Contained.peek?.bind fun next => ?_
  split
  · exact .pure value
  · exact (Parse.Contained.expect .comma (.inr (by simp))).bind fun _ => .pure value

omit hg in
lemma parameterNames (ts : List Token) : ContainedOn d (Fenced d) parameterNames ts := by
  have hlast (name : String) : Parse.Contained d (Fenced d) (do expect .rparen; return [name]) :=
    (Parse.Contained.expect .rparen (.inr (by simp))).bind fun _ => .pure [name]
  match ts with
  | [] => exact .nil rfl
  | t :: ts =>
    cases t with
    | ident name =>
      match ts with
      | [] => exact .of_end rfl (Fenced.not_singleton (by simp))
      | t :: ts =>
        by_cases ht : t = .comma
        · subst ht
          have hnext : ContainedOn d (Fenced d) (fun us => Rules.parameterNames (.ident name :: us))
              (.comma :: ts) :=
            ((parameterNames ts).map (List.cons name)).cons rfl (.inr (by simp)) fun more => by
              rw [Rules.parameterNames, Parse.map_apply]
              cases Rules.parameterNames (ts ++ more) <;> rfl
          exact hnext.cons rfl (.inr (by simp)) fun more => rfl
        · refine (hlast name (t :: ts)).cons rfl (.inr (by simp)) fun more => ?_
          exact Rules.parameterNames.eq_2 name (t :: ts ++ more) fun us h => ht (List.cons.inj h).1
    | _ => exact .refused fun us => rfl

omit hg in
lemma parameters : Parse.Contained d (Fenced d) parameters := by
  refine (Parse.Contained.expect .lparen (.inr (by simp))).bind fun _ => ?_
  refine (Parse.Contained.accept .rparen (.inr (by simp)) rfl).bind fun found => ?_
  cases found with
  | true => exact .pure []
  | false => exact fun ts => parameterNames d ts

lemma conditional : Parse.Contained d (Fenced d) g.conditional := by
  refine (Parse.Contained.expect .lparen (.inr (by simp))).bind fun _ => ?_
  refine (hg.grouped d).bind fun condition => (hg.braces d).bind fun consequence => ?_
  refine (Parse.Contained.accept (.keyword .otherwise) (.inr (by simp)) rfl).bind fun found => ?_
  cases found with
  | true => exact (hg.braces d).bind fun alternative => .pure _
  | false => exact .pure _

lemma functionLiteral : Parse.Contained d (Fenced d) g.functionLiteral :=
  (parameters d).bind fun _ => (hg.braces d).bind fun _ => .pure _

omit hg in
lemma integerLiteral (digits : String) : Parse.Contained d (Fenced d) (integerLiteral digits) := by
  unfold Rules.integerLiteral
  split
  · exact .pure _
  · exact .fail _

lemma operand (t : Token) : Parse.Contained (step d t) (Fenced d) (g.operand t) := by
  cases t with
  | ident | float | string => exact .pure _
  | int digits => exact integerLiteral d digits
  | bang => exact (hg.expression d _).map _
  | op o =>
    cases o with
    | sub => exact (hg.expression d _).map _
    | _ => exact .fail _
  | lparen => exact hg.grouped d
  | lbracket => exact (hg.list d (.inr rfl)).map _
  | lbrace => exact (hg.pairs d).map _
  | keyword k =>
    cases k with
    | truth | falsity => exact .pure _
    | condition => exact hg.conditional d
    | function => exact hg.functionLiteral d
    | _ => exact .fail _
  | _ => exact .fail _

lemma expressionRule (floor : Nat) : Parse.Contained d (Fenced d) (g.expressionRule floor) := by
  rintro (_ | ⟨t, ts⟩)
  · exact .nil rfl
  · have ho : Parse.Contained (step d t) (Fenced d) (g.operand t >>= g.infixes floor) :=
      (hg.operand d t).bind fun e => hg.infixes d floor e
    by_cases ht : t = .semicolon
    · subst ht
      exact .refused fun us => rfl
    · exact (ho ts).cons rfl (.inr ht) fun more => rfl

lemma expressionRule_rest (floor : Nat) (t : Token) (ts : List Token) :
    (g.expressionRule floor (t :: ts)).rest <:+ ts :=
  ((hg.operand 0 t).bind (fun e => hg.infixes 0 floor e) ts).suffix

lemma assignment (left : Expr) : Parse.Contained d (Fenced d) (g.assignment left) := by
  cases left with
  | ident name => exact (hg.whole d).map _
  | _ => exact .fail _

lemma continuation? {left : Expr} {t : Token} {level : Nat} {p : Parse Expr}
    (h : g.continuation? left t = some (level, p)) :
    Parse.Contained d (Fenced d) p ∧ t ≠ .semicolon ∧ step d t = d := by
  cases t with
  | op o => cases h; exact ⟨(hg.expression d _).map _, by simp, rfl⟩
  | assign => cases h; exact ⟨hg.assignment d left, by simp, rfl⟩
  | lparen => cases h; exact ⟨(hg.list d (.inl rfl)).map _, by simp, rfl⟩
  | lbracket => cases h; exact ⟨(hg.position d).map _, by simp, rfl⟩
  | _ => cases h

lemma infixesRule (floor : Nat) (left : Expr) :
    Parse.Contained d (Fenced d) (g.infixesRule floor left) := by
  rintro (_ | ⟨t, ts⟩)
  · exact .nil rfl
  · have hstop (h : ∀ us, g.infixesRule floor left (t :: us) = .done left (t :: us)) :
        ContainedOn d (Fenced d) (g.infixesRule floor left) (t :: ts) :=
      (Parse.Contained.pure left (t :: ts)).congr fun more => h (ts ++ more)
    cases hc : g.continuation? left t with
    | none => exact hstop fun us => by simp only [Rules.infixesRule, hc]
    | some c =>
      obtain ⟨level, p⟩ := c
      by_cases hl : floor < level
      · obtain ⟨hp, ht, hd⟩ := hg.continuation? d hc
        have hpi : Parse.Contained d (Fenced d) (p >>= g.infixes floor) :=
          hp.bind fun e => hg.infixes d floor e
        exact (hpi ts).cons hd (.inr ht) fun more => by simp only [Rules.infixesRule, hc, hl, if_true]
      · exact hstop fun us => by simp only [Rules.infixesRule, hc, hl, if_false]

lemma elementsRule {close : Token} (hc : close = .rparen ∨ close = .rbracket) :
    Parse.Contained d (Fenced d) (g.elementsRule close) := by
  have he : Parse.Contained d (Fenced d) (expect close) := by
    obtain rfl | rfl := hc
    · exact .expect .rparen (.inr (by simp))
    · exact .expect .rbracket (.inr (by simp))
  refine (hg.whole d).bind fun e => ?_
  refine (Parse.Contained.accept .comma (.inr (by simp)) rfl).bind fun found => ?_
  cases found with
  | true => exact (hg.elements d hc).bind fun es => .pure _
  | false => exact he.bind fun _ => .pure _

lemma pairsRule : Parse.Contained (d + 1) (Fenced d) g.pairsRule := by
  have hend : Parse.Contained (d + 1) (Fenced d)
      (do expect .rbrace; return ([] : List (Expr × Expr))) :=
    (Parse.Contained.expect .rbrace (.inl (by simp))).bind fun _ => .pure []
  refine Parse.Contained.peek?.bind fun next => ?_
  split
  · exact hend
  · exact hend
  · refine (hg.whole _).bind fun key => (hg.pairValue _).bind fun value => ?_
    exact (hg.pairs d).bind fun pairs => .pure _

omit hg in
lemma terminated {d' : Nat} {p : Parse Stmt} (hp : Parse.Contained d' (Fenced d) p) :
    Parse.Contained d' (Landed d) (terminated p) := by
  refine hp.bind fun s => ?_
  exact Parse.Contained.terminator.map fun _ => s

lemma binding (name : String) : Parse.Contained d (Landed d) (g.binding name) :=
  terminated d ((hg.whole d).map _)

lemma declaration : Parse.Contained d (Landed d) g.declaration := by
  rintro (_ | ⟨t, ts⟩)
  · exact .nil rfl
  cases t with
  | ident name =>
    have hb : Parse.Contained d (Landed d) (expect .assign >>= fun _ => g.binding name) :=
      (Parse.Contained.expect .assign (.inr (by simp))).bind fun _ => hg.binding d name
    exact (hb ts).cons rfl (.inr (by simp)) fun more => rfl
  | _ => exact .refused fun us => rfl

lemma initializer : Parse.Contained (d + 1) (Fenced (d + 1)) g.initializer := by
  refine ((hg.statement (d + 1)).withLast.mono fun _ => Landed.fenced).bind fun found => ?_
  obtain ⟨init, last⟩ := found
  dsimp only
  split
  · exact .pure init
  · exact .fail _

lemma loop : Parse.Contained (d + 1) (Landed (d + 1)) g.loop := by
  refine (Parse.Contained.expect .lparen (.inr (by simp))).bind fun _ => ?_
  refine (hg.initializer d).bind fun init => (hg.whole (d + 1)).bind fun condition => ?_
  refine (Parse.Contained.expect .semicolon (.inl (by simp))).bind fun _ => ?_
  refine ((hg.statement (d + 1)).mono fun _ => Landed.fenced).bind fun post => ?_
  refine (Parse.Contained.expect .rparen (.inr (by simp))).bind fun _ => ?_
  refine ((hg.braces (d + 1)).bind fun body => ?_).mono fun _ => .inl
  exact .pure _

lemma hashStatement (pairs : List (Expr × Expr)) :
    Parse.Contained d (Landed d) (g.hashStatement pairs) :=
  terminated d ((hg.infixes d _ _).map _)

lemma blockStatement (before : List Stmt) :
    Parse.Contained (d + 1) (Landed d) (g.blockStatement before) :=
  terminated d ((hg.statements d).map _)

lemma openStatement_eq : ∃ f, g.openStatement = g.whole >>= f ∧
    ∀ d first, Parse.Contained (d + 1) (Landed d) (f first) := by
  refine ⟨_, rfl, fun d first => Parse.Contained.peek?.bind fun next => ?_⟩
  split
  · refine (hg.pairValue (d + 1)).bind fun value => ?_
    exact (hg.pairs d).bind fun pairs => hg.hashStatement d _
  · exact (Parse.Contained.terminator.mono fun _ => Landed.fenced).bind fun _ => hg.blockStatement d _

lemma openStatement : Parse.Contained (d + 1) (Landed d) g.openStatement := by
  obtain ⟨f, he, hf⟩ := hg.openStatement_eq
  exact he ▸ (hg.whole (d + 1)).bind (hf d)

lemma openStatement_rest (t : Token) (ts : List Token) : (g.openStatement (t :: ts)).rest <:+ ts := by
  obtain ⟨f, he, hf⟩ := hg.openStatement_eq
  rw [he]
  exact (Parse.rest_bind fun a mid => (hf 0 a mid).suffix).trans (hg.expression_rest _ t ts)

omit hg in
lemma startsStatement_append (t : Token) {ts : List Token} (h : ts = [] → ∀ name, t ≠ .ident name)
    (more : List Token) : startsStatement (t :: (ts ++ more)) = startsStatement (t :: ts) := by
  cases t with
  | ident name =>
    cases ts with
    | nil => exact absurd rfl (h rfl name)
    | cons u ts => cases u <;> rfl
  | keyword k => cases k <;> rfl
  | _ => rfl

lemma braceStatement : Parse.Contained (d + 1) (Landed d) g.braceStatement := by
  rintro (_ | ⟨t, ts⟩)
  · exact .nil (List.suffix_nil.mp (hg.openStatement d []).suffix)
  have heq (ht : t ≠ .rbrace) (us : List Token) : g.braceStatement (t :: us) =
      if startsStatement (t :: us) then g.blockStatement [] (t :: us)
      else g.openStatement (t :: us) :=
    Rules.braceStatement.eq_2 g (t :: us) fun us h => ht (List.cons.inj h).1
  by_cases hend : ts = [] ∧ ∃ name, t = .ident name
  · obtain ⟨rfl, name, rfl⟩ := hend
    exact .of_end (List.suffix_nil.mp (hg.openStatement_rest (.ident name) []))
      (Fenced.not_singleton (by simp))
  have hs := startsStatement_append t fun hts name ht => hend ⟨hts, name, ht⟩
  by_cases ht : t = .rbrace
  · subst ht
    exact (hg.hashStatement d [] ts).cons rfl (.inr (by simp)) fun more => rfl
  · cases hst : startsStatement (t :: ts) with
    | true =>
      refine (hg.blockStatement d [] (t :: ts)).congr fun more => ?_
      rw [List.cons_append, heq ht, if_pos (by rw [hs, hst])]
    | false =>
      refine (hg.openStatement d (t :: ts)).congr fun more => ?_
      rw [List.cons_append, heq ht, if_neg (by rw [hs, hst]; decide)]

lemma expressionStatement_rest (t : Token) (ts : List Token) :
    (Rules.terminated (Stmt.expr <$> g.whole) (t :: ts)).rest <:+ ts := by
  refine (Parse.rest_bind fun s mid => ?_).trans ?_
  · exact ((Parse.Contained.terminator (d := 0)).map (fun _ => s) mid).suffix
  · exact (Parse.rest_bind fun e mid => List.suffix_rfl).trans (hg.expression_rest _ t ts)

lemma statementRule : Parse.Contained d (Landed d) g.statementRule := by
  have hexpr : Parse.Contained d (Landed d) (Rules.terminated (Stmt.expr <$> g.whole)) :=
    terminated d ((hg.whole d).map _)
  have hresult : Parse.Contained d (Landed d) (Rules.terminated (Stmt.result <$> g.whole)) :=
    terminated d ((hg.whole d).map _)
  have hloop (ts : List Token) : ContainedOn d (Landed d) g.statementRule (.keyword .loop :: ts) := by
    have hl (d : Nat) : ContainedOn (d + 1) (Landed (d + 1)) g.statementRule (.keyword .loop :: ts) :=
      (hg.loop d ts).cons rfl (.inr (by simp)) fun more => rfl
    cases d with
    | zero => exact (hl 0).unfenced fun h => h.ne_of_zero.2 rfl
    | succ d => exact hl d
  have hbind (name : String) (ts : List Token) :
      ContainedOn d (Landed d) g.statementRule (.ident name :: .bind :: ts) := by
    have hnext : ContainedOn d (Landed d) (fun us => g.statementRule (.ident name :: us))
        (.bind :: ts) :=
      (hg.binding d name ts).cons rfl (.inr (by simp)) fun more => rfl
    exact hnext.cons rfl (.inr (by simp)) fun more => rfl
  rintro (_ | ⟨t, ts⟩)
  · exact .nil (List.suffix_nil.mp (hexpr []).suffix)
  cases hst : startsStatement (t :: ts) with
  | false =>
    by_cases hend : ts = [] ∧ ∃ name, t = .ident name
    · obtain ⟨rfl, name, rfl⟩ := hend
      exact .of_end (List.suffix_nil.mp (hg.expressionStatement_rest (.ident name) []))
        (Fenced.not_singleton (by simp))
    · have hs := startsStatement_append t fun hts name ht => hend ⟨hts, name, ht⟩
      refine (hexpr (t :: ts)).congr fun more => ?_
      rw [List.cons_append, statementRule_expr g (by rw [hs, hst])]
  | true =>
    match t, ts with
    | .keyword .binding, ts =>
      exact (hg.declaration d ts).cons rfl (.inr (by simp)) fun more => rfl
    | .keyword .result, ts => exact (hresult ts).cons rfl (.inr (by simp)) fun more => rfl
    | .keyword .loop, ts => exact hloop ts
    | .lbrace, ts => exact (hg.braceStatement d ts).cons rfl (.inr (by simp)) fun more => rfl
    | .ident name, .bind :: ts => exact hbind name ts

lemma statementsRule : Parse.Contained (d + 1) (Fenced d) g.statementsRule := by
  have hcons : Parse.Contained (d + 1) (Fenced d)
      (do let s ← g.statement; return s :: (← g.statements)) :=
    ((hg.statement (d + 1)).mono fun _ => Landed.fenced).bind fun s => (hg.statements d).map _
  rintro (_ | ⟨t, ts⟩)
  · exact .nil rfl
  by_cases ht : t = .rbrace
  · subst ht
    exact (Parse.Contained.pure [] ts).cons rfl (.inr (by simp)) fun more => rfl
  · refine (hcons (t :: ts)).congr fun more => ?_
    exact Rules.statementsRule.eq_3 g (t :: ts ++ more) (by simp) fun us h => ht (List.cons.inj h).1

lemma deeper : g.deeper.Contained where
  statement := hg.statementRule
  statements := hg.statementsRule
  expression := hg.expressionRule
  expression_rest := hg.expressionRule_rest
  infixes := hg.infixesRule
  elements d _ hc := hg.elementsRule d hc
  pairs := hg.pairsRule

end Contained

lemma contained_spent : spent.Contained := by
  have h {α : Type} (d : Nat) (Q : List Token → Prop) : Parse.Contained d Q (Parse.exhausted (α := α)) :=
    fun ts => ⟨List.nil_suffix, fun hr => absurd rfl hr, fun _ => ⟨fun _ => rfl, by rintro a rest ⟨⟩⟩⟩
  exact ⟨fun _ => h _ _, fun _ => h _ _, fun _ _ => h _ _, fun _ _ _ => List.nil_suffix,
    fun _ _ _ => h _ _, fun _ _ _ => h _ _, fun _ => h _ _⟩

lemma contained_nested (n : Nat) : (nested n).Contained := by
  induction n with
  | zero => exact contained_spent
  | succ n ih => exact ih.deeper

lemma statement_append {ts : List Token} (more : List Token)
    (h : (unbounded.statement ts).rest ≠ [] ∨ Fenced 0 ts) :
    unbounded.statement (ts ++ more) = (unbounded.statement ts).extend more := by
  have he := (statement_nested (ts ++ more) (Nat.le_refl _)).1
  have hle : enough ts ≤ enough (ts ++ more) := by
    simp only [enough, List.length_append]
    omega
  have he' := (statement_nested ts hle).1
  have hc := (contained_nested (enough (ts ++ more))).statement 0 ts
  rw [he, he']
  obtain hr | hf := h
  · exact hc.steady (he' ▸ hr) more
  · exact (hc.fenced hf).1 more

lemma landed_of_fenced {ts rest : List Token} {s : Stmt} (h : Fenced 0 ts)
    (hs : unbounded.statement ts = .done s rest) : Landed 0 rest := by
  have he := (statement_nested ts (Nat.le_refl _)).1
  exact (((contained_nested (enough ts)).statement 0 ts).fenced h).2 s rest (he ▸ hs)

end Nut.Rules
