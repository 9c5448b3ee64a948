import Nut.Proofs.Parsing.Rebound
import Nut.Proofs.Parsing.Statements

/-! A program reads the same whichever of its declarations are written with `let`. -/

namespace Nut

open Parse (Carries CarriesOn)

namespace Rules

structure Rebinds (g : Rules) : Prop where
  statement : Carries g.statement
  statements : Carries g.statements
  expression (floor : Nat) : Carries (g.expression floor)
  infixes (floor : Nat) (left : Expr) : Carries (g.infixes floor left)
  elements {close : Token} (hc : close = .rparen ∨ close = .rbracket) : Carries (g.elements close)
  pairs : Carries g.pairs

lemma startsStatement_rebound {ts us : List Token} (h : Rebound ts us) :
    startsStatement us = startsStatement ts := by
  cases h with
  | nil | rebind => rfl
  | keep t h =>
    cases t with
    | ident name =>
      cases h with
      | nil | rebind => rfl
      | keep t h => cases t <;> rfl
    | keyword k => cases k <;> rfl
    | _ => rfl

namespace Rebinds

variable {g : Rules} (hg : g.Rebinds)

include hg

lemma whole : Carries g.whole :=
  hg.expression _

lemma closing (close : Token) (hc : close ≠ .keyword .binding) :
    Carries (do let e ← g.whole; Parse.expect close; return e) :=
  hg.whole.bind fun e => (Carries.expect hc).bind fun _ => .pure e

lemma grouped : Carries g.grouped :=
  hg.closing .rparen (by simp)

lemma position : Carries g.position :=
  hg.closing .rbracket (by simp)

lemma list {close : Token} (hc : close = .rparen ∨ close = .rbracket) : Carries (g.list close) := by
  have ha : Carries (Parse.accept close) := by
    apply Carries.accept <;> obtain rfl | rfl := hc <;> simp
  refine ha.bind fun found => ?_
  cases found with
  | true => exact .pure []
  | false => exact hg.elements hc

lemma braces : Carries g.braces :=
  (Carries.expect (by simp)).bind fun _ => hg.statements

lemma pairValue : Carries g.pairValue := by
  refine (Carries.expect (by simp)).bind fun _ => hg.whole.bind fun value => ?_
  apply Carries.ifPeek (by simp) (by simp) (.pure value)
  exact (Carries.expect (by simp)).bind fun _ => .pure value

omit hg in
lemma parameterNames : Carries parameterNames := by
  intro ts us h a rest hd
  fun_induction Rules.parameterNames ts generalizing us a with
  | case1 name ts names rest' hn ih =>
    cases hd
    obtain ⟨_, rfl, hc⟩ := h.tail (by simp)
    obtain ⟨us, rfl, ht⟩ := hc.tail (by simp)
    obtain ⟨u, v, rest', rfl, rfl, hu, hr, hv⟩ := ih us ht _ hn
    refine ⟨.ident name :: .comma :: u, .ident name :: .comma :: v, rest', rfl, rfl,
      .keep _ (.keep _ hu), hr, ?_⟩
    rw [Rules.parameterNames, hv]
  | case4 name ts hts =>
    have hlast : Carries (do Parse.expect .rparen; return [name]) :=
      (Carries.expect (by simp)).bind fun _ => .pure [name]
    obtain ⟨us, rfl, ht⟩ := h.tail (by simp)
    have hus (vs : List Token) (hvs : us = .comma :: vs) : False := by
      have hc := (ht.head?_iff (t := .comma) (by simp) (by simp)).mp (by rw [hvs]; rfl)
      obtain ⟨ws, hws⟩ := List.head?_eq_some_iff.mp hc
      exact hts ws hws
    have hne : Rules.parameterNames (.ident name :: us) = (do Parse.expect .rparen; return [name]) us :=
      Rules.parameterNames.eq_2 name us hus
    obtain ⟨u, v, rest', rfl, rfl, hu, hr, hv⟩ := hlast ts us ht a rest hd
    exact ⟨.ident name :: u, .ident name :: v, rest', rfl, rfl, .keep _ hu, hr, hne.trans hv⟩
  | case2 | case3 | case5 | case6 => cases hd

omit hg in
lemma parameters : Carries parameters := by
  refine (Carries.expect (by simp)).bind fun _ => (Carries.accept (by simp) (by simp)).bind fun found => ?_
  cases found with
  | true => exact .pure []
  | false => exact parameterNames

lemma conditional : Carries g.conditional := by
  refine (Carries.expect (by simp)).bind fun _ => hg.grouped.bind fun condition => ?_
  refine hg.braces.bind fun consequence => (Carries.accept (by simp) (by simp)).bind fun found => ?_
  cases found with
  | true => exact hg.braces.bind fun alternative => .pure _
  | false => exact .pure _

lemma functionLiteral : Carries g.functionLiteral :=
  parameters.bind fun _ => hg.braces.bind fun _ => .pure _

omit hg in
lemma integerLiteral (digits : String) : Carries (integerLiteral digits) := by
  unfold Rules.integerLiteral
  split
  · exact .pure _
  · exact .fail _

lemma operand (t : Token) : Carries (g.operand t) := by
  cases t with
  | ident | float | string => exact .pure _
  | int digits => exact integerLiteral digits
  | bang => exact (hg.expression _).map _
  | op o =>
    cases o with
    | sub => exact (hg.expression _).map _
    | _ => exact .fail _
  | lparen => exact hg.grouped
  | lbracket => exact (hg.list (.inr rfl)).map _
  | lbrace => exact hg.pairs.map _
  | keyword k =>
    cases k with
    | truth | falsity => exact .pure _
    | condition => exact hg.conditional
    | function => exact hg.functionLiteral
    | _ => exact .fail _
  | _ => exact .fail _

lemma expressionRule (floor : Nat) : Carries (g.expressionRule floor) := by
  intro ts us h
  cases h with
  | nil | rebind => rintro a rest ⟨⟩
  | @keep ts us t h =>
    have ho : Carries (g.operand t >>= g.infixes floor) := (hg.operand t).bind (hg.infixes floor)
    exact (ho ts us h).cons fun xs => rfl

lemma assignment (left : Expr) : Carries (g.assignment left) := by
  cases left with
  | ident name => exact hg.whole.map _
  | _ => exact .fail _

lemma continuation? {left : Expr} {t : Token} {level : Nat} {p : Parse Expr}
    (h : g.continuation? left t = some (level, p)) : Carries p := by
  cases t with
  | op o => cases h; exact (hg.expression _).map _
  | assign => cases h; exact hg.assignment left
  | lparen => cases h; exact (hg.list (.inl rfl)).map _
  | lbracket => cases h; exact hg.position.map _
  | _ => cases h

lemma infixesRule (floor : Nat) (left : Expr) : Carries (g.infixesRule floor left) := by
  intro ts us h
  cases h with
  | nil => exact Carries.stop .nil rfl rfl
  | rebind name h => exact Carries.stop (.rebind name h) rfl rfl
  | @keep ts us t h =>
    have hstop (hs : ∀ xs, g.infixesRule floor left (t :: xs) = .done left (t :: xs)) :
        CarriesOn (g.infixesRule floor left) (t :: ts) (t :: us) :=
      Carries.stop (.keep t h) (hs ts) (hs us)
    cases hc : g.continuation? left t with
    | none => exact hstop fun xs => by simp only [Rules.infixesRule, hc]
    | some c =>
      obtain ⟨level, p⟩ := c
      by_cases hl : floor < level
      · have hp : Carries (p >>= g.infixes floor) := (hg.continuation? hc).bind (hg.infixes floor)
        exact (hp ts us h).cons fun xs => by simp only [Rules.infixesRule, hc, hl, if_true]
      · exact hstop fun xs => by simp only [Rules.infixesRule, hc, hl, if_false]

lemma elementsRule {close : Token} (hc : close = .rparen ∨ close = .rbracket) :
    Carries (g.elementsRule close) := by
  have he : Carries (Parse.expect close) := by
    apply Carries.expect
    obtain rfl | rfl := hc <;> simp
  refine hg.whole.bind fun e => (Carries.accept (by simp) (by simp)).bind fun found => ?_
  cases found with
  | true => exact (hg.elements hc).bind fun es => .pure _
  | false => exact he.bind fun _ => .pure _

lemma pairsRule : Carries g.pairsRule := by
  have hend : Carries (do Parse.expect .rbrace; return ([] : List (Expr × Expr))) :=
    (Carries.expect (by simp)).bind fun _ => .pure []
  have hcons : Carries (do
      let key ← g.whole; let value ← g.pairValue; return (key, value) :: (← g.pairs)) :=
    hg.whole.bind fun key => hg.pairValue.bind fun value => hg.pairs.bind fun pairs => .pure _
  intro ts us h
  cases h with
  | nil => exact (hend [] [] .nil).congr rfl rfl
  | rebind name h => exact (hcons _ _ (.rebind name h)).congr rfl rfl
  | @keep ts us t h =>
    cases t with
    | rbrace => exact (hend _ _ (.keep _ h)).congr rfl rfl
    | _ => exact (hcons _ _ (.keep _ h)).congr rfl rfl

omit hg in
lemma terminated {p : Parse Stmt} (hp : Carries p) : Carries (terminated p) :=
  hp.bind fun s => Carries.terminator.bind fun _ => .pure s

lemma binding (name : String) : Carries (g.binding name) :=
  terminated (hg.whole.map _)

lemma declaration : Carries g.declaration := by
  intro ts us h
  cases h with
  | nil | rebind => rintro a rest ⟨⟩
  | @keep ts us t h =>
    cases t with
    | ident name =>
      have hb : Carries (Parse.expect .assign >>= fun _ => g.binding name) :=
        (Carries.expect (by simp)).bind fun _ => hg.binding name
      exact (hb ts us h).cons fun xs => rfl
    | _ => rintro a rest ⟨⟩

omit hg in
lemma initializer_eq_done {ts rest : List Token} {s : Stmt} : g.initializer ts = .done s rest ↔
    g.statement ts = .done s rest ∧ (Parse.consumed ts rest).getLast? = some .semicolon := by
  rw [Rules.initializer, Parse.bind_apply, Parse.withLast]
  cases g.statement ts with
  | done init mid =>
    dsimp only
    split
    · next hl =>
      constructor
      · rintro ⟨⟩
        exact ⟨rfl, hl⟩
      · rintro ⟨⟨⟩, -⟩
        rfl
    · next hl =>
      constructor
      · rintro ⟨⟩
      · rintro ⟨⟨⟩, hl'⟩
        exact absurd hl' hl
  | failed | exhausted => simp

lemma initializer : Carries g.initializer := by
  intro ts us h s rest hd
  obtain ⟨hs, hl⟩ := initializer_eq_done.mp hd
  obtain ⟨u, v, rest', rfl, rfl, hu, hr, hv⟩ := hg.statement ts us h s rest hs
  refine ⟨u, v, rest', rfl, rfl, hu, hr, initializer_eq_done.mpr ⟨hv, ?_⟩⟩
  simp only [Parse.consumed, List.length_append, Nat.add_sub_cancel, List.take_left] at hl ⊢
  exact hu.getLast?_semicolon hl

lemma loop : Carries g.loop := by
  refine (Carries.expect (by simp)).bind fun _ => hg.initializer.bind fun init => ?_
  refine hg.whole.bind fun condition => (Carries.expect (by simp)).bind fun _ => ?_
  refine hg.statement.bind fun post => (Carries.expect (by simp)).bind fun _ => ?_
  exact hg.braces.bind fun body => .pure _

lemma hashStatement (pairs : List (Expr × Expr)) : Carries (g.hashStatement pairs) :=
  terminated ((hg.infixes _ _).map _)

lemma blockStatement (before : List Stmt) : Carries (g.blockStatement before) :=
  terminated (hg.statements.map _)

lemma openStatement : Carries g.openStatement := by
  refine hg.whole.bind fun first => ?_
  apply Carries.ifPeek (by simp) (by simp)
  · exact hg.pairValue.bind fun value => hg.pairs.bind fun pairs => hg.hashStatement _
  · exact Carries.terminator.bind fun _ => hg.blockStatement _

lemma braceStatement : Carries g.braceStatement := by
  intro ts us h
  by_cases ht : ts.head? = some .rbrace
  · obtain ⟨ts, rfl⟩ := List.head?_eq_some_iff.mp ht
    obtain ⟨us, rfl, ht⟩ := h.tail (by simp)
    exact (hg.hashStatement [] ts us ht).cons fun xs => rfl
  have hu := mt (h.head?_iff (by simp) (by simp)).mp ht
  have heq (xs : List Token) (hx : xs.head? ≠ some .rbrace) : g.braceStatement xs =
      if startsStatement xs then g.blockStatement [] xs else g.openStatement xs :=
    Rules.braceStatement.eq_2 g xs fun ys hy => hx (hy ▸ rfl)
  have hs := startsStatement_rebound h
  cases hst : startsStatement ts with
  | true =>
    exact (hg.blockStatement [] ts us h).congr (by rw [heq ts ht, if_pos hst])
      (by rw [heq us hu, if_pos (hs.trans hst)])
  | false =>
    exact (hg.openStatement ts us h).congr (by rw [heq ts ht, if_neg (by simp [hst])])
      (by rw [heq us hu, if_neg (by simp [hs, hst])])

lemma statementRule : Carries g.statementRule := by
  have hexpr : Carries (Rules.terminated (Stmt.expr <$> g.whole)) := terminated (hg.whole.map _)
  have hresult : Carries (Rules.terminated (Stmt.result <$> g.whole)) := terminated (hg.whole.map _)
  intro ts us h
  cases hst : startsStatement ts with
  | false =>
    have hsu := (startsStatement_rebound h).trans hst
    exact (hexpr ts us h).congr (statementRule_expr g hst) (statementRule_expr g hsu)
  | true =>
    cases h with
    | nil => cases hst
    | @rebind ts us name h =>
      -- Behind the name, `let` and `:=` are read by the same rule.
      intro s rest hd
      obtain ⟨u, v, rest', rfl, rfl, hu, hr, hv⟩ := hg.binding name ts us h s rest hd
      exact ⟨_, _, rest', rfl, rfl, .rebind name hu, hr, hv⟩
    | @keep ts us t h =>
      match t, ts, hst with
      | .keyword .binding, ts, _ => exact (hg.declaration ts us h).cons fun xs => rfl
      | .keyword .result, ts, _ => exact (hresult ts us h).cons fun xs => rfl
      | .keyword .loop, ts, _ => exact (hg.loop ts us h).cons fun xs => rfl
      | .lbrace, ts, _ => exact (hg.braceStatement ts us h).cons fun xs => rfl
      | .ident name, .bind :: ts, _ =>
        obtain ⟨us, rfl, hb⟩ := h.tail (by simp)
        have hnext : CarriesOn (fun xs => g.statementRule (.ident name :: xs)) (.bind :: ts) (.bind :: us) :=
          (hg.binding name ts us hb).cons fun xs => rfl
        exact hnext.cons fun xs => rfl

lemma statementsRule : Carries g.statementsRule := by
  have hcons : Carries (do let s ← g.statement; return s :: (← g.statements)) :=
    hg.statement.bind fun s => hg.statements.bind fun ss => .pure _
  intro ts us h
  cases h with
  | nil => rintro a rest ⟨⟩
  | rebind name h => exact (hcons _ _ (.rebind name h)).congr rfl rfl
  | @keep ts us t h =>
    cases t with
    | rbrace => exact (Carries.pure [] ts us h).cons fun xs => rfl
    | _ => exact (hcons _ _ (.keep _ h)).congr rfl rfl

lemma deeper : g.deeper.Rebinds where
  statement := hg.statementRule
  statements := hg.statementsRule
  expression := hg.expressionRule
  infixes := hg.infixesRule
  elements := hg.elementsRule
  pairs := hg.pairsRule

end Rebinds

lemma rebinds_nested (n : Nat) : (nested n).Rebinds := by
  induction n with
  | zero =>
    exact ⟨.exhausted, .exhausted, fun _ => .exhausted, fun _ _ => .exhausted, fun _ => .exhausted,
      .exhausted⟩
  | succ n ih => exact ih.deeper

lemma statement_rebound {ts us rest : List Token} {s : Stmt} (h : Rebound ts us)
    (hd : unbounded.statement ts = .done s rest) :
    ∃ rest', unbounded.statement us = .done s rest' ∧ Rebound rest rest' := by
  have hn : enough us ≤ enough ts := by
    have hlen := h.length_le
    unfold enough
    omega
  obtain ⟨_, _, rest', _, _, _, hr, hs⟩ := (rebinds_nested (enough ts)).statement ts us h s rest hd
  exact ⟨rest', (statement_nested us hn).1.trans hs, hr⟩

end Rules

namespace Program

lemma allEntries_rebound {p : Program} {ts us : List Token} (hr : Rebound ts us)
    (h : allEntries ts = p.map .ok) : allEntries us = p.map .ok := by
  induction p generalizing ts us with
  | nil =>
    obtain rfl := allEntries_eq_nil.mp h
    cases hr
    exact h
  | cons s p ih =>
    obtain ⟨rest, hs, hp⟩ := allEntries_eq_cons.mp h
    obtain ⟨rest', hs', hr'⟩ := Rules.statement_rebound hr hs
    exact allEntries_eq_cons.mpr ⟨rest', hs', ih hr' hp⟩

theorem ofTokens_rebound {ts us : List Token} {p : Program} (h : ofTokens ts = .ok p)
    (hr : Rebound ts us) : ofTokens us = .ok p :=
  ofTokens_eq_ok.mpr (allEntries_rebound hr (ofTokens_eq_ok.mp h))

/-- The tokens of `for (let i = 0; i; let i = 1) {} { let y = 2; let z = 3 }`. -/
def letTokens : List Token :=
  [.keyword .loop, .lparen, .keyword .binding, .ident "i", .assign, .int "0", .semicolon, .ident "i",
    .semicolon, .keyword .binding, .ident "i", .assign, .int "1", .rparen, .lbrace, .rbrace, .lbrace,
    .keyword .binding, .ident "y", .assign, .int "2", .semicolon, .keyword .binding, .ident "z",
    .assign, .int "3", .rbrace]

/-- The tokens of `for (i := 0; i; let i = 1) {} { y := 2; z := 3 }`. -/
def bindTokens : List Token :=
  [.keyword .loop, .lparen, .ident "i", .bind, .int "0", .semicolon, .ident "i", .semicolon,
    .keyword .binding, .ident "i", .assign, .int "1", .rparen, .lbrace, .rbrace, .lbrace, .ident "y",
    .bind, .int "2", .semicolon, .ident "z", .bind, .int "3", .rbrace]

def declarations : Program :=
  [.loop (.declare "i" (.int 0)) (.ident "i") (.declare "i" (.int 1)) [],
    .block [.declare "y" (.int 2), .declare "z" (.int 3)]]

lemma rebound_letTokens : Rebound letTokens bindTokens :=
  .keep _ <| .keep _ <| .rebind "i" <| .keep _ <| .keep _ <| .keep _ <| .keep _ <| .keep _ <|
    .keep _ <| .keep _ <| .keep _ <| .keep _ <| .keep _ <| .keep _ <| .keep _ <| .rebind "y" <|
    .keep _ <| .keep _ <| .rebind "z" <| .keep _ <| .keep _ .nil

theorem ofTokens_rebound_letTokens :
    ofTokens letTokens = .ok declarations ∧ Rebound letTokens bindTokens ∧
      ofTokens bindTokens = .ok declarations :=
  ⟨rfl, rebound_letTokens, ofTokens_rebound rfl rebound_letTokens⟩

end Program

end Nut
