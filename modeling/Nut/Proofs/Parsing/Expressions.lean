import Nut.Proofs.Parsing.Depth
import Nut.Proofs.Parsing.Yield

/-! What the rules for expressions read, given what they read of the parts. -/

namespace Nut.Rules

open Parse (bind_of_done map_of_done)

section Lists

variable {g : Rules} {ts rest mid : List Token} {e : Expr} {es : List Expr}

lemma grouped_of_whole (h : g.whole ts = .done e (.rparen :: rest)) : g.grouped ts = .done e rest := by
  rw [grouped, bind_of_done h]
  rfl

lemma position_of_whole (h : g.whole ts = .done e (.rbracket :: rest)) :
    g.position ts = .done e rest := by
  rw [position, bind_of_done h]
  rfl

lemma list_nil (close : Token) (ts : List Token) : g.list close (close :: ts) = .done [] ts := by
  have ha : Parse.accept close (close :: ts) = .done true ts := by simp [Parse.accept]
  rw [list, bind_of_done ha]
  rfl

lemma list_of_elements {close : Token} (hne : ts.head? ≠ some close)
    (h : g.elements close ts = .done es rest) : g.list close ts = .done es rest := by
  have ha : Parse.accept close ts = .done false ts := by
    cases ts with
    | nil => rfl
    | cons t ts => simpa [Parse.accept] using hne
  rw [list, bind_of_done ha]
  exact h

lemma braces_of_statements {ss : List Stmt} (h : g.statements ts = .done ss rest) :
    g.braces (.lbrace :: ts) = .done ss rest :=
  h

lemma pairValue_of_whole {t : Token} (h : g.whole ts = .done e (t :: rest))
    (ht : t = .rbrace ∨ t = .comma) :
    g.pairValue (.colon :: ts) = .done e (if t = .rbrace then .rbrace :: rest else rest) := by
  have hc : Parse.expect .colon (.colon :: ts) = .done () ts := rfl
  rw [pairValue, bind_of_done hc, bind_of_done h]
  obtain rfl | rfl := ht <;> rfl

end Lists

/-- How tightly the next token binds. -/
def reach : List Token → Nat
  | .op o :: _ => o.level
  | .assign :: _ => Level.assign
  | .lparen :: _ => Level.call
  | .lbracket :: _ => Level.index
  | _ => Level.lowest

lemma reach_le (ts : List Token) : reach ts ≤ Level.index := by
  match ts with
  | [] => decide
  | t :: ts =>
    cases t with
    | op o => cases o <;> simp [reach, InfixOp.level, Level.logical, Level.equality, Level.comparison,
        Level.sum, Level.product, Level.index]
    | _ => simp [reach, Level.assign, Level.call, Level.index, Level.lowest]

variable {ts rest mid : List Token} {e left : Expr} {es : List Expr} {floor : Nat}

lemma infixes_stop (left : Expr) (h : reach ts ≤ floor) :
    unbounded.infixes floor left ts = .done left ts := by
  rw [unbounded_infixes]
  cases ts with
  | nil => rfl
  | cons t ts =>
    simp only [infixesRule]
    split
    · next level p hc =>
      have hl : reach (t :: ts) = level := by
        cases t <;> simp_all [continuation?, reach]
      rw [if_neg (by omega)]
    · rfl

lemma infixes_step {t : Token} {level : Nat} {p : Parse Expr}
    (hc : unbounded.continuation? left t = some (level, p)) (hl : floor < level)
    (hp : p ts = .done e rest) :
    unbounded.infixes floor left (t :: ts) = unbounded.infixes floor e rest := by
  calc unbounded.infixes floor left (t :: ts)
      = unbounded.infixesRule floor left (t :: ts) := by rw [unbounded_infixes]
    _ = (p >>= unbounded.infixes floor) ts := by simp only [infixesRule, hc, hl, if_true]
    _ = unbounded.infixes floor e rest := bind_of_done hp

lemma infixes_op {o : InfixOp} (left : Expr) (hl : floor < o.level)
    (h : unbounded.expression o.level ts = .done e rest) :
    unbounded.infixes floor left (.op o :: ts) =
      unbounded.infixes floor (.infixOp left o e) rest :=
  infixes_step rfl hl (map_of_done h)

lemma infixes_assign (name : String) (hl : floor < Level.assign)
    (h : unbounded.whole ts = .done e rest) :
    unbounded.infixes floor (.ident name) (.assign :: ts) =
      unbounded.infixes floor (.assign name e) rest :=
  infixes_step rfl hl (map_of_done h)

lemma infixes_call (left : Expr) (hl : floor < Level.call)
    (h : unbounded.list .rparen ts = .done es rest) :
    unbounded.infixes floor left (.lparen :: ts) = unbounded.infixes floor (.call left es) rest :=
  infixes_step rfl hl (map_of_done h)

lemma infixes_index (left : Expr) (hl : floor < Level.index)
    (h : unbounded.whole ts = .done e (.rbracket :: rest)) :
    unbounded.infixes floor left (.lbracket :: ts) = unbounded.infixes floor (.index left e) rest :=
  infixes_step rfl hl (map_of_done (position_of_whole h))

lemma expression_of_operand {t : Token} (floor : Nat) (h : unbounded.operand t ts = .done e rest) :
    unbounded.expression floor (t :: ts) = unbounded.infixes floor e rest := by
  rw [unbounded_expression]
  exact bind_of_done h

lemma expression_prefix (op : PrefixOp) (floor : Nat) {t : Token}
    (ht : unbounded.operand t = .prefixOp op <$> unbounded.expression Level.unary)
    (h : unbounded.expression Level.unary ts = .done e rest) :
    unbounded.expression floor (t :: ts) = unbounded.infixes floor (.prefixOp op e) rest :=
  expression_of_operand floor (ht ▸ map_of_done h)

lemma expression_group (floor : Nat) (h : unbounded.grouped ts = .done e rest) :
    unbounded.expression floor (.lparen :: ts) = unbounded.infixes floor e rest :=
  expression_of_operand floor h

lemma expression_int {n : Int64} (floor : Nat) (ts : List Token) (h : 0 ≤ n.toInt) :
    unbounded.expression floor (.int (integerText n) :: ts) = unbounded.infixes floor (.int n) ts := by
  obtain ⟨k, hk⟩ := Int.eq_ofNat_of_zero_le h
  have hlt := n.toInt_lt
  have hr : readInteger? (integerText n) = some n := by
    have := readInteger?_integerText (n := k) (by omega)
    rw [integerText, hk, show toString (k : Int) = toString k from rfl, this, ← hk,
      Int64.ofInt_toInt]
  apply expression_of_operand floor
  simp only [operand, integerLiteral, hr]
  rfl

lemma head_ne_of_elements {close : Token} (hc : close = .rparen ∨ close = .rbracket)
    (h : unbounded.elements close ts = .done es rest) : ts.head? ≠ some close := by
  intro hh
  obtain ⟨us, rfl⟩ := List.head?_eq_some_iff.mp hh
  have hw : unbounded.whole (close :: us) = .failed (.noOperand close) us := by
    rw [whole, unbounded_expression]
    obtain rfl | rfl := hc <;> rfl
  rw [unbounded_elements, elementsRule, Parse.bind_apply, hw] at h
  cases h

lemma elements_last {close : Token} (hc : close ≠ .comma)
    (h : unbounded.whole ts = .done e (close :: rest)) :
    unbounded.elements close ts = .done [e] rest := by
  have ha : Parse.accept .comma (close :: rest) = .done false (close :: rest) := by
    simp [Parse.accept, hc]
  have he : Parse.expect close (close :: rest) = .done () rest := by simp [Parse.expect]
  rw [unbounded_elements, elementsRule, bind_of_done h, bind_of_done ha]
  simp only [Bool.false_eq_true, if_false]
  rw [bind_of_done he]
  rfl

lemma elements_cons {close : Token} (h : unbounded.whole ts = .done e (.comma :: mid))
    (hr : unbounded.elements close mid = .done es rest) :
    unbounded.elements close ts = .done (e :: es) rest := by
  have ha : Parse.accept .comma (.comma :: mid) = .done true mid := rfl
  calc unbounded.elements close ts
      = unbounded.elementsRule close ts := by rw [unbounded_elements]
    _ = (List.cons e <$> unbounded.elements close) mid := by
      rw [elementsRule, bind_of_done h, bind_of_done ha]
      rfl
    _ = .done (e :: es) rest := map_of_done hr

lemma whole_nil : unbounded.whole [] = .failed .unexpectedEnd [] := by
  rw [whole, unbounded_expression]
  rfl

lemma whole_rbrace (ts : List Token) :
    unbounded.whole (.rbrace :: ts) = .failed (.noOperand .rbrace) ts := by
  rw [whole, unbounded_expression]
  rfl

lemma pairs_cons {key value : Expr} {pairs : List (Expr × Expr)} {after : List Token}
    (hk : unbounded.whole ts = .done key mid) (hv : unbounded.pairValue mid = .done value after)
    (hp : unbounded.pairs after = .done pairs rest) :
    unbounded.pairs ts = .done ((key, value) :: pairs) rest := by
  obtain ⟨t, ts, rfl, ht⟩ : ∃ t us, ts = t :: us ∧ t ≠ .rbrace := by
    cases ts with
    | nil => rw [whole_nil] at hk; cases hk
    | cons t ts =>
      refine ⟨t, ts, rfl, ?_⟩
      rintro rfl
      rw [whole_rbrace] at hk
      cases hk
  have hpeek : Parse.peek? (t :: ts) = .done (some t) (t :: ts) := rfl
  calc unbounded.pairs (t :: ts)
      = unbounded.pairsRule (t :: ts) := by rw [unbounded_pairs]
    _ = (List.cons (key, value) <$> unbounded.pairs) after := by
      rw [pairsRule, bind_of_done hpeek]
      cases t with
      | rbrace => exact absurd rfl ht
      | _ =>
        dsimp only
        rw [bind_of_done hk, bind_of_done hv]
        rfl
    _ = .done ((key, value) :: pairs) rest := map_of_done hp

lemma pairs_nil (ts : List Token) : unbounded.pairs (.rbrace :: ts) = .done [] ts := by
  rw [unbounded_pairs]
  rfl

lemma conditional_once {condition : Expr} {consequence : List Stmt}
    (hc : unbounded.grouped ts = .done condition (.lbrace :: mid))
    (hb : unbounded.statements mid = .done consequence rest)
    (hr : rest.head? ≠ some (.keyword .otherwise)) :
    unbounded.conditional (.lparen :: ts) = .done (.cond condition consequence none) rest := by
  have hp : Parse.expect .lparen (.lparen :: ts) = .done () ts := rfl
  have ha : Parse.accept (.keyword .otherwise) rest = .done false rest := by
    cases rest with
    | nil => rfl
    | cons t rest => simpa [Parse.accept] using hr
  rw [conditional, bind_of_done hp, bind_of_done hc, bind_of_done (braces_of_statements hb),
    bind_of_done ha]
  rfl

lemma conditional_both {condition : Expr} {consequence alternative : List Stmt} {after : List Token}
    (hc : unbounded.grouped ts = .done condition (.lbrace :: mid))
    (hb : unbounded.statements mid = .done consequence (.keyword .otherwise :: .lbrace :: after))
    (ha : unbounded.statements after = .done alternative rest) :
    unbounded.conditional (.lparen :: ts) =
      .done (.cond condition consequence (some alternative)) rest := by
  have hp : Parse.expect .lparen (.lparen :: ts) = .done () ts := rfl
  have ho : Parse.accept (.keyword .otherwise) (.keyword .otherwise :: .lbrace :: after) =
      .done true (.lbrace :: after) := rfl
  rw [conditional, bind_of_done hp, bind_of_done hc, bind_of_done (braces_of_statements hb),
    bind_of_done ho]
  exact bind_of_done (braces_of_statements ha)

lemma functionLiteral_of_statements {names : List String} {body : List Stmt}
    (hp : parameters ts = .done names (.lbrace :: mid))
    (hb : unbounded.statements mid = .done body rest) :
    unbounded.functionLiteral ts = .done (.function names body) rest := by
  rw [functionLiteral, bind_of_done hp]
  exact bind_of_done (braces_of_statements hb)

def Ended (ts : List Token) : Prop :=
  ∀ t ∈ ts.head?, t ∈ [.semicolon, .comma, .colon, .rparen, .rbracket, .rbrace]

@[simp] lemma ended_nil : Ended [] := by
  simp [Ended]

@[simp] lemma ended_cons {t : Token} {ts : List Token} :
    Ended (t :: ts) ↔ t ∈ [.semicolon, .comma, .colon, .rparen, .rbracket, .rbrace] := by
  simp [Ended]

lemma Ended.reach_le {ts : List Token} (h : Ended ts) : reach ts ≤ Level.lowest := by
  cases ts with
  | nil => exact Nat.le_refl _
  | cons t ts =>
    simp only [ended_cons, List.mem_cons, List.not_mem_nil, or_false] at h
    obtain rfl | rfl | rfl | rfl | rfl | rfl := h <;> exact Nat.le_refl _

lemma Ended.head_ne {ts : List Token} (h : Ended ts) {t : Token}
    (ht : t ∉ [Token.semicolon, .comma, .colon, .rparen, .rbracket, .rbrace]) :
    ts.head? ≠ some t :=
  fun he => ht (h t he)

/-- In front of what ends an expression, `e` is read of `u`. -/
def ReadOf (e : Expr) (u : List Token) : Prop :=
  ∀ ts, Ended ts → unbounded.whole (u ++ ts) = .done e ts

lemma elements_of_forall₂ {close : Token} (hc : close = .rparen ∨ close = .rbracket)
    {us : List (List Token)} (h : List.Forall₂ ReadOf es us) (hne : es ≠ []) (ts : List Token) :
    unbounded.elements close (separated .comma us ++ close :: ts) = .done es ts := by
  induction h with
  | nil => exact absurd rfl hne
  | cons he hes ih =>
    rw [separated_cons, List.append_assoc]
    cases hes with
    | nil => exact elements_last (by grind) (he (close :: ts) (by grind [ended_cons]))
    | cons he' hes => exact elements_cons (he _ (by simp)) (ih (by simp))

lemma list_of_forall₂ {close : Token} (hc : close = .rparen ∨ close = .rbracket)
    {us : List (List Token)} (h : List.Forall₂ ReadOf es us) (ts : List Token) :
    unbounded.list close (separated .comma us ++ close :: ts) = .done es ts := by
  by_cases hne : es = []
  · subst hne
    cases h
    exact list_nil close ts
  · have he := elements_of_forall₂ hc h hne ts
    exact list_of_elements (head_ne_of_elements hc he) he

end Nut.Rules
