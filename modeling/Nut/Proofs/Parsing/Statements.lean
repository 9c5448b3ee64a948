import Nut.Proofs.Parsing.Expressions

/-! What the rules for statements read, given what they read of the parts. -/

namespace Nut.Rules

open Parse (bind_of_done map_of_done)
open Recovery (dropTerminator)

variable {ts rest mid : List Token} {e : Expr} {s : Stmt} {ss : List Stmt}

lemma terminated_of_done {p : Parse Stmt} (h : p ts = .done s rest) :
    terminated p ts = .done s (dropTerminator rest) := by
  rw [terminated, bind_of_done h]
  match rest with
  | [] => rfl
  | t :: rest => cases t <;> rfl

lemma statement_declare (name : String) (h : unbounded.whole ts = .done e rest) :
    unbounded.statement (.keyword .binding :: .ident name :: .assign :: ts) =
      .done (.declare name e) (dropTerminator rest) := by
  rw [unbounded_statement]
  exact terminated_of_done (map_of_done h)

lemma statement_result (h : unbounded.whole ts = .done e rest) :
    unbounded.statement (.keyword .result :: ts) = .done (.result e) (dropTerminator rest) := by
  rw [unbounded_statement]
  exact terminated_of_done (map_of_done h)

lemma statementRule_expr (g : Rules) (hs : startsStatement ts = false) :
    g.statementRule ts = terminated (.expr <$> g.whole) ts := by
  unfold statementRule
  split <;> simp_all [startsStatement]

lemma statement_expr (hs : startsStatement ts = false) (h : unbounded.whole ts = .done e rest) :
    unbounded.statement ts = .done (.expr e) (dropTerminator rest) := by
  rw [unbounded_statement, statementRule_expr _ hs]
  exact terminated_of_done (map_of_done h)

lemma statement_block (hs : startsStatement ts) (h : unbounded.statements ts = .done ss rest) :
    unbounded.statement (.lbrace :: ts) = .done (.block ss) (dropTerminator rest) := by
  rw [unbounded_statement]
  change unbounded.braceStatement ts = _
  have hr : unbounded.braceStatement ts = unbounded.blockStatement [] ts := by
    unfold braceStatement
    split
    · simp [startsStatement] at hs
    · rw [if_pos hs]
  rw [hr]
  exact terminated_of_done (map_of_done h)

lemma statement_brace (hs : startsStatement ts = false) (h : unbounded.whole ts = .done e rest) :
    unbounded.statement (.lbrace :: ts) = unbounded.openStatement ts := by
  rw [unbounded_statement]
  change unbounded.braceStatement ts = _
  unfold braceStatement
  split
  · rw [whole_rbrace] at h
    cases h
  · rw [if_neg (by simp [hs])]

lemma openStatement_block (h : unbounded.whole ts = .done e mid) (hm : mid.head? ≠ some .colon)
    (hss : unbounded.statements (dropTerminator mid) = .done ss rest) :
    unbounded.openStatement ts = .done (.block (.expr e :: ss)) (dropTerminator rest) := by
  have hp : Parse.peek? mid = .done mid.head? mid := rfl
  have ht : Parse.terminator mid = .done () (dropTerminator mid) := by
    match mid with
    | [] => rfl
    | t :: mid => cases t <;> rfl
  rw [openStatement, bind_of_done h, bind_of_done hp, if_neg hm, bind_of_done ht]
  exact terminated_of_done (map_of_done hss)

lemma openStatement_hash {key value : Expr} {pairs : List (Expr × Expr)} {after : List Token}
    (hk : unbounded.whole ts = .done key (.colon :: mid))
    (hv : unbounded.pairValue (.colon :: mid) = .done value after)
    (hp : unbounded.pairs after = .done pairs rest) :
    unbounded.openStatement ts = unbounded.hashStatement ((key, value) :: pairs) rest := by
  have hc : Parse.peek? (.colon :: mid) = .done (some .colon) (.colon :: mid) := rfl
  rw [openStatement, bind_of_done hk, bind_of_done hc, if_pos rfl, bind_of_done hv, bind_of_done hp]

lemma statement_empty_hash (ts : List Token) :
    unbounded.statement (.lbrace :: .rbrace :: ts) = unbounded.hashStatement [] ts := by
  rw [unbounded_statement]
  rfl

lemma statements_nil (ts : List Token) : unbounded.statements (.rbrace :: ts) = .done [] ts := by
  rw [unbounded_statements]
  rfl

lemma statement_rbrace (ts : List Token) :
    unbounded.statement (.rbrace :: ts) = .failed (.noOperand .rbrace) ts := by
  rw [unbounded_statement]
  change terminated _ _ = _
  rw [terminated, Parse.bind_apply, Parse.map_apply, whole_rbrace]

lemma statements_cons (hs : unbounded.statement ts = .done s mid)
    (hss : unbounded.statements mid = .done ss rest) :
    unbounded.statements ts = .done (s :: ss) rest := by
  have hr : unbounded.statements ts = (unbounded.statement >>= fun s =>
      unbounded.statements >>= fun ss => pure (s :: ss)) ts := by
    apply (congrFun unbounded_statements ts).trans
    unfold statementsRule
    split
    · rw [unbounded_statement] at hs
      cases hs
    · rw [statement_rbrace] at hs
      cases hs
    · rfl
  rw [hr, bind_of_done hs]
  exact map_of_done hss

lemma initializer_of_statement (us : List Token)
    (h : unbounded.statement (us ++ .semicolon :: rest) = .done s rest) :
    unbounded.initializer (us ++ .semicolon :: rest) = .done s rest := by
  have hlast : Parse.consumed (us ++ .semicolon :: rest) rest = us ++ [.semicolon] := by
    rw [Parse.consumed, show us ++ .semicolon :: rest = us ++ [.semicolon] ++ rest by simp,
      List.length_append, Nat.add_sub_cancel, List.take_left]
  have hw : unbounded.statement.withLast (us ++ .semicolon :: rest) =
      .done (s, some .semicolon) rest := by
    simp [Parse.withLast, h, hlast]
  rw [initializer, bind_of_done hw]
  rfl

lemma statement_loop {init post : Stmt} {condition : Expr} {a b c : List Token} {body : List Stmt}
    (hi : unbounded.initializer ts = .done init a)
    (hc : unbounded.whole a = .done condition (.semicolon :: b))
    (hp : unbounded.statement b = .done post (.rparen :: .lbrace :: c))
    (hb : unbounded.statements c = .done body rest) :
    unbounded.statement (.keyword .loop :: .lparen :: ts) =
      .done (.loop init condition post body) rest := by
  have hl : Parse.expect .lparen (.lparen :: ts) = .done () ts := rfl
  have hs : Parse.expect .semicolon (.semicolon :: b) = .done () b := rfl
  have hr : Parse.expect .rparen (.rparen :: .lbrace :: c) = .done () (.lbrace :: c) := rfl
  rw [unbounded_statement]
  change unbounded.loop (.lparen :: ts) = _
  rw [loop, bind_of_done hl, bind_of_done hi, bind_of_done hc, bind_of_done hs, bind_of_done hp,
    bind_of_done hr]
  exact bind_of_done (braces_of_statements hb)

end Nut.Rules
