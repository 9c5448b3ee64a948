import Nut.Proofs.Parsing.Contained

/-! A semicolon behind an expression is like the end of the input: the expression is read as before,
and the semicolon is left over. -/

namespace Nut

namespace Parse

variable {α β : Type}

def StopsOn (p : Parse α) (ts : List Token) : Prop :=
  ∀ a rest more, p ts = .done a rest →
    p (ts ++ .semicolon :: more) = .done a (rest ++ .semicolon :: more)

def Stops (p : Parse α) : Prop :=
  ∀ ts, StopsOn p ts

lemma done_of_steady {p : Parse α} {ts rest : List Token} {a : α}
    (hp : (p ts).rest ≠ [] → Steady p ts) (h : p ts = .done a rest) (hr : rest ≠ [])
    (more : List Token) : p (ts ++ more) = .done a (rest ++ more) := by
  rw [hp (by simpa [h, Parsed.rest] using hr), h]
  rfl

lemma head?_append_semicolon {wanted : Token} (hw : wanted ≠ .semicolon) (ts more : List Token) :
    (ts ++ .semicolon :: more).head? = some wanted ↔ ts.head? = some wanted := by
  cases ts with
  | nil => simpa using hw.symm
  | cons t ts => rfl

lemma ifPeek_apply (p q : Parse α) (wanted : Token) (ts : List Token) :
    (peek? >>= fun next => if next = some wanted then p else q) ts =
      (if ts.head? = some wanted then p else q) ts := rfl

namespace StopsOn

variable {p q : Parse α} {f : α → Parse β} {ts : List Token}

lemma bind (hp : StopsOn p ts) (hf : ∀ a, Stops (f a)) : StopsOn (p >>= f) ts := by
  intro b rest more h
  obtain ⟨a, mid, ha, hb⟩ := bind_eq_done.mp h
  rw [bind_of_done (hp a mid more ha)]
  exact hf a mid b rest more hb

lemma bind_steady (hp : (p ts).rest ≠ [] → Steady p ts) (hn : ∀ a b rest, f a [] ≠ .done b rest)
    (hf : ∀ a, Stops (f a)) : StopsOn (p >>= f) ts := by
  intro b rest more h
  obtain ⟨a, mid, ha, hb⟩ := bind_eq_done.mp h
  have hmid : mid ≠ [] := by
    rintro rfl
    exact hn a b rest hb
  rw [bind_of_done (done_of_steady hp ha hmid (.semicolon :: more))]
  exact hf a mid b rest more hb

lemma cons {t : Token} (hq : StopsOn q ts) (hp : ∀ us, p (t :: us) = q us) : StopsOn p (t :: ts) := by
  intro a rest more h
  rw [hp] at h
  rw [List.cons_append, hp]
  exact hq a rest more h

lemma congr (hq : StopsOn q ts) (hp : ∀ more, p (ts ++ more) = q (ts ++ more)) : StopsOn p ts := by
  intro a rest more h
  have hts : p ts = q ts := by simpa using hp []
  rw [hp]
  exact hq a rest more (hts ▸ h)

end StopsOn

namespace Stops

variable {p q : Parse α} {f : α → Parse β}

lemma bind (hp : Stops p) (hf : ∀ a, Stops (f a)) : Stops (p >>= f) :=
  fun ts => (hp ts).bind hf

lemma pure (a : α) : Stops (Pure.pure a) := by
  rintro ts b rest more ⟨⟩
  rfl

lemma map (g : α → β) (hp : Stops p) : Stops (g <$> p) :=
  hp.bind fun a => pure (g a)

lemma fail (error : ParseError) : Stops (Parse.fail error : Parse α) := by
  rintro ts a rest more ⟨⟩

lemma exhausted : Stops (Parse.exhausted : Parse α) := by
  rintro ts a rest more ⟨⟩

lemma expect (wanted : Token) : Stops (Parse.expect wanted) := by
  rintro (_ | ⟨t, ts⟩) a rest more h
  · cases h
  · rw [Parse.expect] at h
    rw [List.cons_append, Parse.expect]
    split at h
    · next ht =>
      cases h
      rw [if_pos ht]
    · cases h

variable {wanted : Token} (hw : wanted ≠ .semicolon)

include hw

lemma accept : Stops (Parse.accept wanted) := by
  rintro (_ | ⟨t, ts⟩) a rest more h
  · cases h
    rw [List.nil_append, Parse.accept, if_neg hw.symm]
  · rw [Parse.accept] at h
    rw [List.cons_append, Parse.accept]
    split at h
    · next ht =>
      cases h
      rw [if_pos ht]
    · next ht =>
      cases h
      rw [if_neg ht]
      rfl

lemma ifPeek (hp : Stops p) (hq : Stops q) :
    Stops (peek? >>= fun next => if next = some wanted then p else q) := by
  rintro ts a rest more h
  have hhead := head?_append_semicolon hw ts more
  rw [ifPeek_apply] at h ⊢
  by_cases ht : ts.head? = some wanted
  · rw [if_pos ht] at h
    rw [if_pos (hhead.mpr ht)]
    exact hp ts a rest more h
  · rw [if_neg ht] at h
    rw [if_neg (mt hhead.mp ht)]
    exact hq ts a rest more h

end Stops

end Parse

namespace Rules

open Parse (Stops StopsOn Steady)

structure Stop (g : Rules) : Prop where
  statements : Stops g.statements
  statements_nil (ss : List Stmt) (rest : List Token) : g.statements [] ≠ .done ss rest
  expression (floor : Nat) : Stops (g.expression floor)
  expression_nil (floor : Nat) (e : Expr) (rest : List Token) : g.expression floor [] ≠ .done e rest
  infixes (floor : Nat) (left : Expr) : Stops (g.infixes floor left)
  elements {close : Token} (hc : close = .rparen ∨ close = .rbracket) : Stops (g.elements close)
  pairs : Stops g.pairs

namespace Stop

variable {g : Rules} (hg : g.Stop)

include hg

lemma whole : Stops g.whole :=
  hg.expression _

lemma closing (close : Token) : Stops (do let e ← g.whole; Parse.expect close; return e) :=
  hg.whole.bind fun e => (Stops.expect close).bind fun _ => .pure e

lemma grouped : Stops g.grouped :=
  hg.closing .rparen

lemma position : Stops g.position :=
  hg.closing .rbracket

lemma list {close : Token} (hc : close = .rparen ∨ close = .rbracket) : Stops (g.list close) := by
  have ha : Stops (Parse.accept close) := by
    apply Stops.accept
    obtain rfl | rfl := hc <;> simp
  apply ha.bind
  intro found
  cases found with
  | true => exact .pure []
  | false => exact hg.elements hc

lemma braces : Stops g.braces :=
  (Stops.expect .lbrace).bind fun _ => hg.statements

lemma pairValue : Stops g.pairValue := by
  apply (Stops.expect .colon).bind
  intro _
  apply hg.whole.bind
  intro value
  apply Stops.ifPeek (by simp) (.pure value)
  exact (Stops.expect .comma).bind fun _ => .pure value

omit hg in
lemma parameterNames : Stops parameterNames := by
  intro ts a rest more h
  fun_induction Rules.parameterNames ts generalizing a rest with
  | case1 name ts names rest' hn ih =>
    cases h
    rw [List.cons_append, List.cons_append, Rules.parameterNames, ih _ _ hn]
  | case4 name ts hts =>
    have hlast : Stops (do Parse.expect .rparen; return [name]) :=
      (Stops.expect .rparen).bind fun _ => .pure [name]
    have hne (us : List Token) (hus : ts ++ .semicolon :: more = .comma :: us) : False := by
      cases ts with
      | nil => cases hus
      | cons t ts => exact hts ts (by cases hus; rfl)
    exact (Rules.parameterNames.eq_2 name _ hne).trans (hlast ts a rest more h)
  | case2 | case3 | case5 | case6 => cases h

omit hg in
lemma parameters : Stops parameters := by
  apply (Stops.expect .lparen).bind
  intro _
  apply (Stops.accept (by simp)).bind
  intro found
  cases found with
  | true => exact .pure []
  | false => exact parameterNames

lemma conditional : Stops g.conditional := by
  apply (Stops.expect .lparen).bind
  intro _
  apply hg.grouped.bind
  intro condition
  apply hg.braces.bind
  intro consequence
  apply (Stops.accept (by simp)).bind
  intro found
  cases found with
  | true => exact hg.braces.bind fun alternative => .pure _
  | false => exact .pure _

lemma functionLiteral : Stops g.functionLiteral :=
  parameters.bind fun _ => hg.braces.bind fun _ => .pure _

omit hg in
lemma integerLiteral (digits : String) : Stops (integerLiteral digits) := by
  unfold Rules.integerLiteral
  split
  · exact .pure _
  · exact .fail _

lemma operand (t : Token) : Stops (g.operand t) := by
  cases t with
  | ident | float | string => exact .pure _
  | int digits => exact integerLiteral digits
  | bang => exact (hg.expression _).map _
  | op o =>
    cases o with
    | sub => exact (hg.expression _).map _
    | _ => exact .fail _
  | lparen => exact hg.grouped
  | lbracket => exact (hg.list (.inr rfl)).map _
  | lbrace => exact hg.pairs.map _
  | keyword k =>
    cases k with
    | truth | falsity => exact .pure _
    | condition => exact hg.conditional
    | function => exact hg.functionLiteral
    | _ => exact .fail _
  | _ => exact .fail _

lemma expressionRule (floor : Nat) : Stops (g.expressionRule floor) := by
  rintro (_ | ⟨t, ts⟩)
  · rintro e rest more ⟨⟩
  · have ho : Stops (g.operand t >>= g.infixes floor) := (hg.operand t).bind (hg.infixes floor)
    exact (ho ts).cons fun us => rfl

lemma assignment (left : Expr) : Stops (g.assignment left) := by
  cases left with
  | ident name => exact hg.whole.map _
  | _ => exact .fail _

lemma continuation? {left : Expr} {t : Token} {level : Nat} {p : Parse Expr}
    (h : g.continuation? left t = some (level, p)) : Stops p := by
  cases t with
  | op o => cases h; exact (hg.expression _).map _
  | assign => cases h; exact hg.assignment left
  | lparen => cases h; exact (hg.list (.inl rfl)).map _
  | lbracket => cases h; exact hg.position.map _
  | _ => cases h

lemma infixesRule (floor : Nat) (left : Expr) : Stops (g.infixesRule floor left) := by
  rintro (_ | ⟨t, ts⟩)
  · -- No operand goes on with a semicolon, no more than with nothing.
    rintro e rest more ⟨⟩
    rfl
  have hstop (h : ∀ us, g.infixesRule floor left (t :: us) = .done left (t :: us)) :
      StopsOn (g.infixesRule floor left) (t :: ts) :=
    (Stops.pure left (t :: ts)).congr fun more => h (ts ++ more)
  cases hc : g.continuation? left t with
  | none => exact hstop fun us => by simp only [Rules.infixesRule, hc]
  | some c =>
    obtain ⟨level, p⟩ := c
    by_cases hl : floor < level
    · have hp : Stops (p >>= g.infixes floor) := (hg.continuation? hc).bind (hg.infixes floor)
      exact (hp ts).cons fun us => by simp only [Rules.infixesRule, hc, hl, if_true]
    · exact hstop fun us => by simp only [Rules.infixesRule, hc, hl, if_false]

lemma elementsRule {close : Token} (hc : close = .rparen ∨ close = .rbracket) :
    Stops (g.elementsRule close) := by
  apply hg.whole.bind
  intro e
  apply (Stops.accept (by simp)).bind
  intro found
  cases found with
  | true => exact (hg.elements hc).bind fun es => .pure _
  | false => exact (Stops.expect close).bind fun _ => .pure _

lemma pairsRule : Stops g.pairsRule := by
  have hcons : Stops (do
      let key ← g.whole; let value ← g.pairValue; return (key, value) :: (← g.pairs)) :=
    hg.whole.bind fun key => hg.pairValue.bind fun value => hg.pairs.bind fun pairs => .pure _
  rintro (_ | ⟨t, ts⟩)
  · rintro pairs rest more ⟨⟩
  · by_cases ht : t = .rbrace
    · subst ht
      exact (Stops.pure [] ts).cons fun us => rfl
    · refine (hcons (t :: ts)).congr fun more => ?_
      cases t <;> first | rfl | exact absurd rfl ht

variable (hc : g.Contained)

include hc

lemma statementsRule : Stops g.statementsRule := by
  rintro (_ | ⟨t, ts⟩)
  · rintro ss rest more ⟨⟩
  by_cases ht : t = .rbrace
  · subst ht
    exact (Stops.pure [] ts).cons fun us => rfl
  have hcons : StopsOn (do let s ← g.statement; return s :: (← g.statements)) (t :: ts) := by
    apply StopsOn.bind_steady (hc.statement 0 (t :: ts)).steady
    · intro s ss rest h
      obtain ⟨ss', mid, hss, -⟩ := Parse.bind_eq_done.mp h
      exact hg.statements_nil ss' mid hss
    · exact fun s => hg.statements.map _
  refine hcons.congr fun more => ?_
  exact Rules.statementsRule.eq_3 g (t :: ts ++ more) (by simp) fun us h => ht (List.cons.inj h).1

lemma loop : Stops g.loop := by
  apply (Stops.expect .lparen).bind
  intro _ ts
  apply StopsOn.bind_steady (hc.initializer 0 ts).steady
  · intro init s rest h
    obtain ⟨e, mid, he, -⟩ := Parse.bind_eq_done.mp h
    exact hg.expression_nil _ e mid he
  intro init
  apply hg.whole.bind
  intro condition
  apply (Stops.expect .semicolon).bind
  intro _ us
  apply StopsOn.bind_steady (hc.statement 0 us).steady
  · rintro post s rest ⟨⟩
  intro post
  apply (Stops.expect .rparen).bind
  intro _
  exact hg.braces.bind fun body => .pure _

lemma deeper : g.deeper.Stop where
  statements := hg.statementsRule hc
  statements_nil := nofun
  expression := hg.expressionRule
  expression_nil _ := nofun
  infixes := hg.infixesRule
  elements := hg.elementsRule
  pairs := hg.pairsRule

end Stop

lemma stop_nested (n : Nat) : (nested n).Stop := by
  induction n with
  | zero =>
    exact ⟨.exhausted, nofun, fun _ => .exhausted, fun _ => nofun, fun _ _ => .exhausted,
      fun _ => .exhausted, .exhausted⟩
  | succ n ih => exact ih.deeper (contained_nested n)

end Rules

end Nut
