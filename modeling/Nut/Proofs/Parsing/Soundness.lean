import Nut.Proofs.Lexing.Munch
import Nut.Proofs.Parsing.Entries
import Nut.Proofs.Parsing.Takes

/-! Whatever the rules read, the tokens they took are a yield of it. -/

namespace Nut

namespace Rules

open Parse (Takes)

structure Sound (g : Rules) : Prop where
  statement : Takes g.statement fun s u => Yields (.stmt s) u
  statements : Takes g.statements fun ss u => ∃ v, u = v ++ [.rbrace] ∧ Yields (.body ss) v
  expression (floor : Nat) : Takes (g.expression floor) fun e u => Yields (.expr e) u
  infixes (floor : Nat) (left : Expr) : Takes (g.infixes floor left) fun e u =>
    ∀ v, Yields (.expr left) v → Yields (.expr e) (v ++ u)
  elements (close : Token) : Takes (g.elements close) fun es u =>
    ∃ v, u = v ++ [close] ∧ es ≠ [] ∧ Yields (.elements es) v
  /-- A brace that stands at once closes the literal. -/
  pairs : Takes g.pairs fun pairs u => ∃ v, u = v ++ [.rbrace] ∧ Yields (.pairs pairs) v ∧
    (u.head? = some .rbrace → pairs = [])

namespace Sound

variable {g : Rules} (hg : g.Sound)

include hg

lemma whole : Takes g.whole fun e u => Yields (.expr e) u :=
  hg.expression _

lemma closing (close : Token) : Takes (do let e ← g.whole; Parse.expect close; return e) fun e u =>
    ∃ v, u = v ++ [close] ∧ Yields (.expr e) v := by
  refine hg.whole.bind fun e u hu => (Takes.expect close).bind ?_
  rintro _ _ rfl
  exact .pure ⟨u, by simp, hu⟩

lemma grouped : Takes g.grouped fun e u => ∃ v, u = v ++ [.rparen] ∧ Yields (.expr e) v :=
  hg.closing .rparen

lemma position : Takes g.position fun e u => ∃ v, u = v ++ [.rbracket] ∧ Yields (.expr e) v :=
  hg.closing .rbracket

lemma list (close : Token) : Takes (g.list close) fun es u =>
    ∃ v, u = v ++ [close] ∧ Yields (.elements es) v := by
  apply (Takes.accept close).bind
  rintro found u rfl
  cases found with
  | true => exact .pure ⟨[], rfl, .noElement⟩
  | false => exact (hg.elements close).mono fun es u ⟨v, hv, _, hes⟩ => ⟨v, hv, hes⟩

lemma braces : Takes g.braces fun ss u => ∃ v, u = .lbrace :: v ++ [.rbrace] ∧ Yields (.body ss) v := by
  apply (Takes.expect .lbrace).bind
  rintro _ _ rfl
  apply hg.statements.mono
  rintro ss u ⟨v, rfl, hv⟩
  exact ⟨v, rfl, hv⟩

lemma pairs_after {ts mid rest : List Token} {value : Expr} {pairs : List (Expr × Expr)}
    (hv : g.pairValue ts = .done value mid) (hp : g.pairs mid = .done pairs rest) :
    ∃ u, ts = .colon :: u ++ .rbrace :: rest ∧
      ∀ key v, Yields (.expr key) v → Yields (.pairs ((key, value) :: pairs)) (v ++ .colon :: u) := by
  obtain ⟨u, rfl, hu⟩ : ∃ u, ts = .colon :: u ++ mid ∧
      (Yields (.expr value) u ∧ mid.head? = some .rbrace ∨
        ∃ v, u = v ++ [.comma] ∧ Yields (.expr value) v) := by
    obtain ⟨_, a, hc, h₁⟩ := Parse.bind_eq_done.mp hv
    obtain ⟨_, rfl, rfl⟩ := Takes.expect _ _ _ _ hc
    obtain ⟨e, b, he, h₂⟩ := Parse.bind_eq_done.mp h₁
    obtain ⟨u, rfl, hu⟩ := hg.whole _ _ _ he
    obtain ⟨_, _, ⟨⟩, h₃⟩ := Parse.bind_eq_done.mp h₂
    split at h₃
    · next hb =>
      cases h₃
      exact ⟨u, by simp, .inl ⟨hu, hb⟩⟩
    · obtain ⟨_, _, hx, h₄⟩ := Parse.bind_eq_done.mp h₃
      obtain ⟨_, rfl, rfl⟩ := Takes.expect _ _ _ _ hx
      cases h₄
      exact ⟨u ++ [.comma], by simp, .inr ⟨u, rfl, hu⟩⟩
  obtain ⟨v, rfl, w, rfl, hw, hnil⟩ := hg.pairs _ _ _ hp
  obtain ⟨hu, hmid⟩ | ⟨u, rfl, hu⟩ := hu
  · obtain rfl := hnil (by cases w <;> simp_all)
    cases hw
    exact ⟨u, by simp, fun key v hk => .lastPair hk hu⟩
  · exact ⟨u ++ .comma :: w, by simp, fun key v hk => by simpa using Yields.pair hk hu hw⟩

omit hg in
lemma parameterNames : Takes parameterNames fun names u =>
    names ≠ [] ∧ u = separated .comma (names.map ([.ident ·])) ++ [.rparen] := by
  intro ts names rest h
  fun_induction Rules.parameterNames ts generalizing names with
  | case1 name ts names' rest' hn ih =>
    cases h
    obtain ⟨u, rfl, hne, rfl⟩ := ih _ hn
    refine ⟨.ident name :: .comma :: _, rfl, by simp, ?_⟩
    cases names' with
    | nil => exact absurd rfl hne
    | cons => simp [separated]
  | case4 name ts hts =>
    obtain ⟨_, _, hr, ⟨⟩⟩ := Parse.bind_eq_done.mp h
    obtain ⟨_, rfl, rfl⟩ := Takes.expect _ _ _ _ hr
    exact ⟨[.ident name, .rparen], rfl, by simp, rfl⟩
  | case2 | case3 | case5 | case6 => cases h

omit hg in
lemma parameters : Takes parameters fun names u =>
    u = .lparen :: separated .comma (names.map ([.ident ·])) ++ [.rparen] := by
  apply (Takes.expect .lparen).bind
  rintro _ _ rfl
  apply (Takes.accept .rparen).bind
  rintro found _ rfl
  cases found with
  | true => exact .pure rfl
  | false => exact parameterNames.mono fun names u hu => by simp [hu.2]

lemma conditional : Takes g.conditional fun e u =>
    Yields (.expr e) (.keyword .condition :: u) := by
  apply (Takes.expect .lparen).bind
  rintro _ _ rfl
  apply hg.grouped.bind
  rintro c _ ⟨u, rfl, hc⟩
  apply hg.braces.bind
  rintro a _ ⟨v, rfl, ha⟩
  apply (Takes.accept _).bind
  rintro found _ rfl
  cases found with
  | true =>
    apply hg.braces.bind
    rintro b _ ⟨w, rfl, hb⟩
    exact .pure (by simpa using Yields.condBoth hc ha hb)
  | false => exact .pure (by simpa using Yields.condOnce hc ha)

lemma functionLiteral : Takes g.functionLiteral fun e u =>
    Yields (.expr e) (.keyword .function :: u) := by
  apply parameters.bind
  rintro names _ rfl
  apply hg.braces.bind
  rintro body _ ⟨v, rfl, hb⟩
  exact .pure (by simpa using Yields.function names hb)

omit hg in
lemma integerLiteral (digits : String) : Takes (integerLiteral digits) fun e u =>
    Yields (.expr e) (.int digits :: u) := by
  unfold Rules.integerLiteral
  split
  · next n hn => exact .pure (.int (toInt_of_int64? hn))
  · exact .fail _

omit hg in
lemma yields_readFloat (digits : String) :
    Yields (.expr (.float (readFloat digits))) [.float digits] := by
  have hwhole : ∀ c ∈ digits.toList.takeWhile Char.isDigit, c.isDigit :=
    fun c => List.mem_takeWhile_imp
  have hrest : ∀ c ∈ (digits.toList.dropWhile Char.isDigit).head?, ¬c.isDigit :=
    fun c hc => Bool.not_eq_true _ ▸ head_dropWhile digits.toList c hc
  have h := Yields.float hwhole hrest
  rwa [List.takeWhile_append_dropWhile, String.ofList_toList, ← List.drop_one] at h

lemma operand (t : Token) : Takes (g.operand t) fun e u => Yields (.expr e) (t :: u) := by
  cases t with
  | ident name => exact .pure (.ident name)
  | int digits => exact integerLiteral digits
  | float digits => exact .pure (yields_readFloat digits)
  | string content => exact .pure (.string content)
  | bang => exact (hg.expression _).map fun e u hu => .prefixOp .not hu
  | op o =>
    cases o with
    | sub => exact (hg.expression _).map fun e u hu => .prefixOp .neg hu
    | _ => exact .fail _
  | lparen => exact hg.grouped.mono fun e u ⟨v, hv, he⟩ => hv ▸ .paren he
  | lbracket => exact (hg.list .rbracket).map fun es u ⟨v, hv, hes⟩ => hv ▸ .array hes
  | lbrace => exact hg.pairs.map fun pairs u ⟨v, hv, hp, _⟩ => hv ▸ .hash hp
  | keyword k =>
    cases k with
    | truth => exact .pure .truth
    | falsity => exact .pure .falsity
    | condition => exact hg.conditional
    | function => exact hg.functionLiteral
    | _ => exact .fail _
  | _ => exact .fail _

lemma expressionRule (floor : Nat) : Takes (g.expressionRule floor) fun e u => Yields (.expr e) u := by
  rintro (_ | ⟨t, ts⟩) e rest h
  · cases h
  · obtain ⟨left, mid, ho, hi⟩ := Parse.bind_eq_done.mp
      (show (g.operand t >>= g.infixes floor) ts = .done e rest from h)
    obtain ⟨u, rfl, hu⟩ := hg.operand t _ _ _ ho
    obtain ⟨v, rfl, hv⟩ := hg.infixes floor left _ _ _ hi
    exact ⟨t :: u ++ v, by simp, hv _ hu⟩

lemma assignment (left : Expr) : Takes (g.assignment left) fun e u =>
    ∀ v, Yields (.expr left) v → Yields (.expr e) (v ++ .assign :: u) := by
  cases left with
  | ident name => exact hg.whole.map fun e u hu v hv => .assign hv hu
  | _ => exact .fail _

lemma continuation? {left : Expr} {t : Token} {level : Nat} {p : Parse Expr}
    (h : g.continuation? left t = some (level, p)) : Takes p fun e u =>
    ∀ v, Yields (.expr left) v → Yields (.expr e) (v ++ t :: u) := by
  cases t with
  | op o =>
    cases h
    exact (hg.expression _).map fun e u hu v hv => .infixOp o hv hu
  | assign =>
    cases h
    exact hg.assignment left
  | lparen =>
    cases h
    apply (hg.list .rparen).map
    rintro es _ ⟨u, rfl, hu⟩ v hv
    simpa using Yields.call hv hu
  | lbracket =>
    cases h
    apply hg.position.map
    rintro e _ ⟨u, rfl, hu⟩ v hv
    simpa using Yields.index hv hu
  | _ => cases h

lemma infixesRule (floor : Nat) (left : Expr) : Takes (g.infixesRule floor left) fun e u =>
    ∀ v, Yields (.expr left) v → Yields (.expr e) (v ++ u) := by
  rintro (_ | ⟨t, ts⟩) e rest h
  · cases h
    exact ⟨[], rfl, fun v hv => by simpa using hv⟩
  · have hstop (h : Parsed.done left (t :: ts) = .done e rest) : ∃ u, t :: ts = u ++ rest ∧
        ∀ v, Yields (.expr left) v → Yields (.expr e) (v ++ u) := by
      cases h
      exact ⟨[], rfl, fun v hv => by simpa using hv⟩
    simp only [Rules.infixesRule] at h
    split at h
    · next level p hc =>
      split at h
      · obtain ⟨e', mid, hp, hi⟩ := Parse.bind_eq_done.mp h
        obtain ⟨u, rfl, hu⟩ := hg.continuation? hc _ _ _ hp
        obtain ⟨w, rfl, hw⟩ := hg.infixes floor e' _ _ _ hi
        exact ⟨t :: u ++ w, by simp, fun v hv => by simpa using hw _ (hu v hv)⟩
      · exact hstop h
    · exact hstop h

lemma elementsRule (close : Token) : Takes (g.elementsRule close) fun es u =>
    ∃ v, u = v ++ [close] ∧ es ≠ [] ∧ Yields (.elements es) v := by
  refine hg.whole.bind fun e u hu => (Takes.accept .comma).bind ?_
  rintro found _ rfl
  cases found with
  | true =>
    apply (hg.elements close).bind
    rintro es _ ⟨v, rfl, hne, hes⟩
    exact .pure ⟨u ++ .comma :: v, by simp, by simp, .element hu hne hes⟩
  | false =>
    apply (Takes.expect close).bind
    rintro _ _ rfl
    exact .pure ⟨u, by simp, by simp, .lastElement hu⟩

lemma pairsRule : Takes g.pairsRule fun pairs u => ∃ v, u = v ++ [.rbrace] ∧
    Yields (.pairs pairs) v ∧ (u.head? = some .rbrace → pairs = []) := by
  have hend : Takes (do Parse.expect .rbrace; return []) fun (pairs : List (Expr × Expr)) u =>
      ∃ v, u = v ++ [.rbrace] ∧ Yields (.pairs pairs) v ∧ (u.head? = some .rbrace → pairs = []) := by
    apply (Takes.expect .rbrace).bind
    rintro _ _ rfl
    exact .pure ⟨[], rfl, .noPair, fun _ => rfl⟩
  have hcons (t : Token) (ts : List Token) (ht : t ≠ .rbrace) (ps : List (Expr × Expr))
      (rest : List Token) (h : (do
        let key ← g.whole; let value ← g.pairValue; return (key, value) :: (← g.pairs) : Parse _)
          (t :: ts) = .done ps rest) :
      ∃ u, t :: ts = u ++ rest ∧ ∃ v, u = v ++ [.rbrace] ∧ Yields (.pairs ps) v ∧
        (u.head? = some .rbrace → ps = []) := by
    obtain ⟨key, mid, hk, h₁⟩ := Parse.bind_eq_done.mp h
    obtain ⟨u, hts, hu⟩ := hg.whole _ _ _ hk
    obtain ⟨value, after, hv, h₂⟩ := Parse.bind_eq_done.mp h₁
    obtain ⟨pairs, _, hp, ⟨⟩⟩ := Parse.bind_eq_done.mp h₂
    obtain ⟨v, rfl, hps⟩ := hg.pairs_after hv hp
    have hw : t :: ts = (u ++ .colon :: v ++ [.rbrace]) ++ rest := by simp [hts]
    refine ⟨_, hw, u ++ .colon :: v, rfl, hps key u hu, fun hb => ?_⟩
    have hh := congrArg List.head? hw
    rw [List.head?_append, hb] at hh
    exact absurd (Option.some.inj hh) ht
  rintro (_ | ⟨t, ts⟩) ps rest h
  · exact hend _ _ _ h
  · cases t with
    | rbrace => exact hend _ _ _ h
    | _ => exact hcons _ ts (by simp) ps rest h

omit hg in
lemma terminated {p : Parse Stmt} {Y : Stmt → List Token → Prop} (hp : Takes p Y) :
    Takes (terminated p) fun s u => ∃ v w, u = v ++ w ∧ Y s v ∧ Terminator w := by
  refine hp.bind fun s v hv => Takes.terminator.bind fun _ w hw => .pure ?_
  exact ⟨v, w, by simp, hv, hw⟩

lemma terminatedWhole (c : Expr → Stmt) : Takes (Rules.terminated (c <$> g.whole)) fun s u =>
    ∃ e v w, s = c e ∧ u = v ++ w ∧ Yields (.expr e) v ∧ Terminator w := by
  have he := hg.whole.map (g := c)
    (Z := fun s u => ∃ e, s = c e ∧ Yields (.expr e) u) fun e u hu => ⟨e, rfl, hu⟩
  apply (terminated he).mono
  rintro s _ ⟨v, w, rfl, ⟨e, rfl, hv⟩, hw⟩
  exact ⟨e, v, w, rfl, rfl, hv, hw⟩

lemma declaration : Takes g.declaration fun s u => Yields (.stmt s) (.keyword .binding :: u) := by
  rintro (_ | ⟨t, ts⟩) s rest h
  · cases h
  cases t with
  | ident name =>
    obtain ⟨_, mid, ha, hb⟩ := Parse.bind_eq_done.mp
      (show (Parse.expect .assign >>= fun _ => g.binding name) ts = .done s rest from h)
    obtain ⟨_, rfl, rfl⟩ := Takes.expect _ _ _ _ ha
    obtain ⟨_, rfl, e, v, w, rfl, rfl, hv, hw⟩ := hg.terminatedWhole (.declare name) _ _ _ hb
    exact ⟨.ident name :: .assign :: v ++ w, by simp, .declare name hv hw⟩
  | _ => cases h

lemma initializer : Takes g.initializer fun s u => Yields (.stmt s) u ∧ ∃ v, u = v ++ [.semicolon] := by
  apply hg.statement.withLast.bind
  rintro ⟨s, last⟩ u ⟨hu, hlast⟩
  dsimp only at hlast ⊢
  split
  · next hs =>
    subst hs
    exact .pure (by simpa using ⟨hu, List.getLast?_eq_some_iff.mp hlast.symm⟩)
  · exact .fail _

lemma loop : Takes g.loop fun s u => Yields (.stmt s) (.keyword .loop :: u) := by
  apply (Takes.expect .lparen).bind
  rintro _ _ rfl
  apply hg.initializer.bind
  rintro i _ ⟨hi, u, rfl⟩
  refine hg.whole.bind fun c v hc => (Takes.expect .semicolon).bind ?_
  rintro _ _ rfl
  refine hg.statement.bind fun p w hp => (Takes.expect .rparen).bind ?_
  rintro _ _ rfl
  apply hg.braces.bind
  rintro b _ ⟨x, rfl, hb⟩
  exact .pure (by simpa using Yields.loop hi hc hp hb)

lemma hashStatement {pairs : List (Expr × Expr)} {v : List Token} (hv : Yields (.pairs pairs) v) :
    Takes (g.hashStatement pairs) fun s u => Yields (.stmt s) (.lbrace :: v ++ .rbrace :: u) := by
  have hi := (hg.infixes Level.lowest (.hash pairs)).map (g := Stmt.expr)
    (Z := fun s u => ∃ e, s = .expr e ∧ Yields (.expr e) (.lbrace :: v ++ .rbrace :: u))
    fun e u hu => ⟨e, rfl, by simpa using hu _ (.hash hv)⟩
  apply (terminated hi).mono
  rintro s _ ⟨u, w, rfl, ⟨e, rfl, hu⟩, hw⟩
  simpa using Yields.expr hu hw

lemma blockStatement (before : List Stmt) : Takes (g.blockStatement before) fun s u =>
    ∃ after v w, s = .block (before ++ after) ∧ u = v ++ .rbrace :: w ∧
      Yields (.body after) v ∧ Terminator w := by
  have hs := hg.statements.map (g := fun after => Stmt.block (before ++ after))
    (Z := fun s u => ∃ after v, s = .block (before ++ after) ∧ u = v ++ [.rbrace] ∧
      Yields (.body after) v) fun after u ⟨v, hv, hss⟩ => ⟨after, v, rfl, hv, hss⟩
  apply (terminated hs).mono
  rintro s _ ⟨_, w, rfl, ⟨after, v, rfl, rfl, hv⟩, hw⟩
  exact ⟨after, v, w, rfl, by simp, hv, hw⟩

lemma openStatement : Takes g.openStatement fun s u => Yields (.stmt s) (.lbrace :: u) := by
  intro ts s rest h
  obtain ⟨first, mid, hf, h₁⟩ := Parse.bind_eq_done.mp h
  obtain ⟨u, rfl, hu⟩ := hg.whole _ _ _ hf
  obtain ⟨_, _, ⟨⟩, h₂⟩ := Parse.bind_eq_done.mp h₁
  split at h₂
  · obtain ⟨value, a, hv, h₃⟩ := Parse.bind_eq_done.mp h₂
    obtain ⟨pairs, b, hp, h₄⟩ := Parse.bind_eq_done.mp h₃
    obtain ⟨v, rfl, hps⟩ := hg.pairs_after hv hp
    obtain ⟨w, rfl, hw⟩ := hg.hashStatement (hps first u hu) _ _ _ h₄
    exact ⟨u ++ .colon :: v ++ .rbrace :: w, by simp, by simpa using hw⟩
  · obtain ⟨_, a, ht, h₃⟩ := Parse.bind_eq_done.mp h₂
    obtain ⟨v, rfl, hv⟩ := Takes.terminator _ _ _ ht
    obtain ⟨_, rfl, after, x, w, rfl, rfl, hx, hw⟩ := hg.blockStatement _ _ _ _ h₃
    refine ⟨u ++ v ++ x ++ .rbrace :: w, by simp, ?_⟩
    simpa using Yields.block (by simp) (.cons (.expr hu hv) hx) hw

lemma braceStatement : Takes g.braceStatement fun s u => Yields (.stmt s) (.lbrace :: u) := by
  have hempty (ts : List Token) (s : Stmt) (rest : List Token)
      (h : g.hashStatement [] ts = .done s rest) :
      ∃ u, .rbrace :: ts = u ++ rest ∧ Yields (.stmt s) (.lbrace :: u) := by
    obtain ⟨u, rfl, hu⟩ := hg.hashStatement .noPair _ _ _ h
    exact ⟨.rbrace :: u, rfl, hu⟩
  have hblock (ts : List Token) (s : Stmt) (rest : List Token) (hts : ts.head? ≠ some .rbrace)
      (h : g.blockStatement [] ts = .done s rest) :
      ∃ u, ts = u ++ rest ∧ Yields (.stmt s) (.lbrace :: u) := by
    obtain ⟨_, rfl, ss, v, w, rfl, rfl, hv, hw⟩ := hg.blockStatement [] _ _ _ h
    refine ⟨v ++ .rbrace :: w, rfl, ?_⟩
    have hss : ss ≠ [] := by
      rintro rfl
      cases hv
      simp at hts
    simpa using Yields.block hss hv hw
  intro ts s rest h
  unfold Rules.braceStatement at h
  split at h
  · exact hempty _ _ _ h
  · next hts =>
    split at h
    · refine hblock _ _ _ ?_ h
      intro hh
      obtain ⟨us, rfl⟩ := List.head?_eq_some_iff.mp hh
      exact hts _ rfl
    · exact hg.openStatement _ _ _ h

lemma statementRule : Takes g.statementRule fun s u => Yields (.stmt s) u := by
  have hexpr : Takes (Rules.terminated (Stmt.expr <$> g.whole)) fun s u => Yields (.stmt s) u := by
    apply (hg.terminatedWhole .expr).mono
    rintro _ _ ⟨e, v, w, rfl, rfl, hv, hw⟩
    exact .expr hv hw
  have hresult : Takes (Rules.terminated (Stmt.result <$> g.whole)) fun s u =>
      Yields (.stmt s) (.keyword .result :: u) := by
    apply (hg.terminatedWhole .result).mono
    rintro _ _ ⟨e, v, w, rfl, rfl, hv, hw⟩
    exact .result hv hw
  have hstep {p : Parse Stmt} {t : Token} {ts : List Token} {s : Stmt} {rest : List Token}
      (hp : Takes p fun s u => Yields (.stmt s) (t :: u)) (h : p ts = .done s rest) :
      ∃ u, t :: ts = u ++ rest ∧ Yields (.stmt s) u := by
    obtain ⟨u, rfl, hu⟩ := hp _ _ _ h
    exact ⟨t :: u, rfl, hu⟩
  intro ts s rest h
  unfold Rules.statementRule at h
  split at h
  · exact hstep hg.declaration h
  · exact hstep hresult h
  · exact hstep hg.loop h
  · exact hstep hg.braceStatement h
  · next name ts =>
    obtain ⟨_, rfl, e, v, w, rfl, rfl, hv, hw⟩ := hg.terminatedWhole (.declare name) _ _ _ h
    exact ⟨.ident name :: .bind :: v ++ w, by simp, .bind name hv hw⟩
  · exact hexpr _ _ _ h

lemma statementsRule : Takes g.statementsRule fun ss u =>
    ∃ v, u = v ++ [.rbrace] ∧ Yields (.body ss) v := by
  have hcons : Takes (do let s ← g.statement; return s :: (← g.statements)) fun ss u =>
      ∃ v, u = v ++ [.rbrace] ∧ Yields (.body ss) v := by
    refine hg.statement.bind fun s u hu => hg.statements.bind ?_
    rintro ss _ ⟨v, rfl, hv⟩
    exact .pure ⟨u ++ v, by simp, .cons hu hv⟩
  intro ts ss rest h
  unfold Rules.statementsRule at h
  split at h
  · cases h
  · cases h
    exact ⟨[.rbrace], rfl, [], rfl, .nil⟩
  · exact hcons _ _ _ h

lemma deeper : g.deeper.Sound where
  statement := hg.statementRule
  statements := hg.statementsRule
  expression := hg.expressionRule
  infixes := hg.infixesRule
  elements := hg.elementsRule
  pairs := hg.pairsRule

end Sound

lemma sound_spent : spent.Sound where
  statement := by rintro ts a rest ⟨⟩
  statements := by rintro ts a rest ⟨⟩
  expression _ := by rintro ts a rest ⟨⟩
  infixes _ _ := by rintro ts a rest ⟨⟩
  elements _ := by rintro ts a rest ⟨⟩
  pairs := by rintro ts a rest ⟨⟩

lemma sound_nested (n : Nat) : (nested n).Sound := by
  induction n with
  | zero => exact sound_spent
  | succ n ih => exact ih.deeper

lemma statement_sound {ts rest : List Token} {s : Stmt} (h : unbounded.statement ts = .done s rest) :
    ∃ u, ts = u ++ rest ∧ Yields (.stmt s) u :=
  (sound_nested (enough ts)).statement ts s rest h

end Rules

namespace Program

lemma yields_of_allEntries {ts : List Token} {p : Program} (h : allEntries ts = p.map .ok) :
    Yields (.body p) ts := by
  induction p generalizing ts with
  | nil =>
    obtain rfl := allEntries_eq_nil.mp h
    exact .nil
  | cons s p ih =>
    obtain ⟨rest, hs, hp⟩ := allEntries_eq_cons.mp h
    obtain ⟨u, rfl, hu⟩ := Rules.statement_sound hs
    exact .cons hu (ih hp)

end Program

end Nut
