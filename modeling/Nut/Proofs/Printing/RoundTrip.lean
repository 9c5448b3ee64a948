import Nut.Proofs.Parsing.Entries
import Nut.Proofs.Parsing.Statements
import Nut.Proofs.Printing.Lexing

/-! The text of a printable statement reads back as that statement alone. -/

namespace Nut

open Rules (unbounded startsStatement reach Ended ended_nil ended_cons ReadOf)
open Parse (bind_of_done map_of_done)
open Recovery (dropTerminator)

/-- What is read of the lexemes of `e` when `ts` follows them. -/
structure Expr.Reads (e : Expr) : Prop where
  expression : e.isAssign = false → ∀ floor < Level.call, ∀ ts : List Token,
    ts.head? ≠ some (.keyword .otherwise) →
      unbounded.expression floor (e.lexemes ++ ts) = unbounded.infixes floor e ts
  whole : ReadOf e e.lexemes
  grouped : e.isBracketed → ∀ ts, ∃ us, e.lexemes ++ ts = .lparen :: us ∧
    unbounded.grouped us = .done e ts

namespace Expr.Reads

lemma of_expression {e : Expr} (hb : e.isBracketed = false)
    (h : ∀ floor < Level.call, ∀ ts : List Token, ts.head? ≠ some (.keyword .otherwise) →
      unbounded.expression floor (e.lexemes ++ ts) = unbounded.infixes floor e ts) : Reads e where
  expression _ := h
  whole ts hts := by
    rw [Rules.whole, h _ (by decide) ts (hts.head_ne (by decide)),
      Rules.infixes_stop e hts.reach_le]
  grouped hb' := by simp [hb] at hb'

lemma of_operand {e : Expr} (hb : e.isBracketed = false)
    (h : ∀ ts : List Token, ts.head? ≠ some (.keyword .otherwise) →
      ∃ t us, e.lexemes ++ ts = t :: us ∧ unbounded.operand t us = .done e ts) : Reads e :=
  of_expression hb fun floor _ ts hts => by
    obtain ⟨t, us, hus, ht⟩ := h ts hts
    rw [hus, Rules.expression_of_operand floor ht]

lemma of_grouped {e : Expr}
    (h : ∀ ts, ∃ us, e.lexemes ++ ts = .lparen :: us ∧ unbounded.grouped us = .done e ts) :
    Reads e := by
  have he (floor : Nat) (ts : List Token) :
      unbounded.expression floor (e.lexemes ++ ts) = unbounded.infixes floor e ts := by
    obtain ⟨us, hus, hg⟩ := h ts
    rw [hus, Rules.expression_group floor hg]
  refine ⟨fun _ floor _ ts _ => he floor ts, fun ts hts => ?_, fun _ => h⟩
  rw [Rules.whole, he, Rules.infixes_stop e hts.reach_le]

end Expr.Reads

def Expr.startsHash : Expr → Bool
  | .hash _ => true
  | .call callee _ => callee.startsHash
  | _ => false

lemma Expr.opensBrace_of_startsHash (e : Expr) (h : e.startsHash) : e.opensBrace := by
  cases e with
  | hash pairs => simp [Expr.opensBrace, Expr.text, braced]
  | call callee arguments =>
    have hc := Expr.opensBrace_of_startsHash callee h
    simp only [Expr.opensBrace, beq_iff_eq] at hc
    simp [Expr.opensBrace, Expr.text, hc]
  | _ => simp [Expr.startsHash] at h

lemma Expr.startsStatement_lexemes (e : Expr) (h : e.startsHash = false) (ts : List Token)
    (hts : ts.head? ≠ some .bind) : startsStatement (e.lexemes ++ ts) = false := by
  cases e with
  | hash pairs => simp [Expr.startsHash] at h
  | call callee arguments =>
    have hc := Expr.startsStatement_lexemes callee h
      (.lparen :: (separated .comma (Expr.allLexemes arguments) ++ .rparen :: ts)) (by simp)
    simpa [Expr.lexemes] using hc
  | ident name =>
    cases ts with
    | nil => rfl
    | cons t ts => cases t <;> first | rfl | simp at hts
  | bool b => cases b <;> rfl
  | cond condition consequence alternative => cases alternative <;> rfl
  | _ => rfl

lemma parameterNames_lexemes (name : String) (names : List String) (ts : List Token) :
    Rules.parameterNames (separated .comma ((name :: names).map ([.ident ·])) ++ .rparen :: ts) =
      .done (name :: names) ts := by
  induction names generalizing name with
  | nil => rfl
  | cons next names ih =>
    have hn := ih next
    simp only [List.map_cons, separated, List.cons_append, List.nil_append] at hn ⊢
    rw [Rules.parameterNames, hn]

lemma parameters_lexemes (names : List String) (ts : List Token) :
    Rules.parameters
      (.lparen :: separated .comma (names.map ([.ident ·])) ++ .rparen :: ts) = .done names ts := by
  cases names with
  | nil => rfl
  | cons name names =>
    rw [← parameterNames_lexemes name names ts]
    cases names <;> rfl

/-- What follows a statement is left as it is behind a loop and without its semicolon behind any
other statement. -/
def Stmt.after (s : Stmt) (ts : List Token) : List Token :=
  if s.isLoop then ts else dropTerminator ts

lemma Stmt.after_cons {t : Token} (s : Stmt) (ts : List Token) (h : t ≠ .semicolon) :
    s.after (t :: ts) = t :: ts := by
  unfold Stmt.after
  split
  · rfl
  · cases t <;> first | rfl | exact absurd rfl h

lemma body_after (s : Stmt) (ss : List Stmt) (hs : !s.isLoop || ss.isEmpty) (ts : List Token) :
    ∃ mid, separated .semicolon (Stmt.allLexemes (s :: ss)) ++ .rbrace :: ts = s.lexemes ++ mid ∧
      Ended mid ∧ mid.head? ≠ some .colon ∧
      s.after mid = separated .semicolon (Stmt.allLexemes ss) ++ .rbrace :: ts ∧
      dropTerminator mid = separated .semicolon (Stmt.allLexemes ss) ++ .rbrace :: ts := by
  cases ss with
  | nil => exact ⟨.rbrace :: ts, rfl, by simp, by simp, s.after_cons ts (by simp), rfl⟩
  | cons s' ss =>
    have hl : s.isLoop = false := by simpa using hs
    refine ⟨.semicolon :: (separated .semicolon (Stmt.allLexemes (s' :: ss)) ++ .rbrace :: ts),
      by simp [Stmt.allLexemes, separated], by simp, by simp, ?_, rfl⟩
    rw [Stmt.after, hl]
    rfl

lemma pair_after (key : Expr) {value : Expr} (hv : value.Reads) (pairs : List (Expr × Expr))
    (ts : List Token) :
    ∃ us, separated .comma (Expr.pairLexemes ((key, value) :: pairs)) ++ .rbrace :: ts =
        key.lexemes ++ .colon :: us ∧
      unbounded.pairValue (.colon :: us) =
        .done value (separated .comma (Expr.pairLexemes pairs) ++ .rbrace :: ts) := by
  cases pairs with
  | nil =>
    refine ⟨value.lexemes ++ .rbrace :: ts, by simp [Expr.pairLexemes, separated], ?_⟩
    exact Rules.pairValue_of_whole (hv.whole (.rbrace :: ts) (by simp)) (.inl rfl)
  | cons pair pairs =>
    refine ⟨value.lexemes ++ .comma ::
      (separated .comma (Expr.pairLexemes (pair :: pairs)) ++ .rbrace :: ts),
      by simp [Expr.pairLexemes, separated], ?_⟩
    exact Rules.pairValue_of_whole (hv.whole (.comma :: _) (by simp)) (.inr rfl)

mutual

lemma Expr.reads (e : Expr) (h : e.printable) : e.Reads := by
  cases e with
  | ident name => exact .of_operand rfl fun ts _ => ⟨_, ts, rfl, rfl⟩
  | int value =>
    refine .of_expression rfl fun floor _ ts _ => ?_
    exact Rules.expression_int floor ts (by simpa [Expr.printable] using h)
  | float value => simp [Expr.printable] at h
  | string content => exact .of_operand rfl fun ts _ => ⟨_, ts, rfl, rfl⟩
  | bool b => cases b <;> exact .of_operand rfl fun ts _ => ⟨_, ts, rfl, rfl⟩
  | array elements =>
    refine .of_operand rfl fun ts _ => ⟨.lbracket, _, by simp [Expr.lexemes]; rfl, ?_⟩
    exact map_of_done (Rules.list_of_forall₂ (.inr rfl) (Expr.reads_elements elements h) ts)
  | hash pairs =>
    refine .of_operand rfl fun ts _ => ⟨.lbrace, _, by simp [Expr.lexemes]; rfl, ?_⟩
    exact map_of_done (Expr.pairs_lexemes pairs h ts)
  | prefixOp op right =>
    simp only [Expr.printable, Bool.and_eq_true, Bool.not_eq_true'] at h
    have hr := Expr.reads right h.1
    refine .of_grouped fun ts => ⟨op.token :: (right.lexemes ++ .rparen :: ts), ?_, ?_⟩
    · simp [Expr.lexemes]
    · have he : unbounded.expression Level.unary (right.lexemes ++ .rparen :: ts) =
          .done right (.rparen :: ts) := by
        rw [hr.expression h.2 _ (by decide) _ (by simp), Rules.infixes_stop right (Nat.zero_le _)]
      apply Rules.grouped_of_whole
      rw [Rules.whole, Rules.expression_prefix op _ (by cases op <;> rfl) he]
      exact Rules.infixes_stop _ (Nat.zero_le _)
  | infixOp left op right =>
    simp only [Expr.printable, Bool.and_eq_true, Bool.not_eq_true'] at h
    obtain ⟨⟨⟨hl, hla⟩, hr⟩, hra⟩ := h
    refine .of_grouped fun ts =>
      ⟨left.lexemes ++ .op op :: (right.lexemes ++ .rparen :: ts), by simp [Expr.lexemes], ?_⟩
    have hlevel : Level.lowest < op.level ∧ op.level < Level.call := by cases op <;> decide
    have he : unbounded.expression op.level (right.lexemes ++ .rparen :: ts) =
        .done right (.rparen :: ts) := by
      rw [(Expr.reads right hr).expression hra _ hlevel.2 _ (by simp),
        Rules.infixes_stop right (Nat.zero_le _)]
    apply Rules.grouped_of_whole
    rw [Rules.whole, (Expr.reads left hl).expression hla _ (by decide) _ (by simp),
      Rules.infixes_op left hlevel.1 he]
    exact Rules.infixes_stop _ (Nat.zero_le _)
  | cond condition consequence alternative =>
    cases alternative with
    | none =>
      simp only [Expr.printable, Bool.and_eq_true] at h
      refine .of_operand rfl fun ts hts => ?_
      obtain ⟨us, hus, hg⟩ := (Expr.reads condition h.1.1).grouped h.1.2
        (.lbrace :: (separated .semicolon (Stmt.allLexemes consequence) ++ .rbrace :: ts))
      refine ⟨.keyword .condition, .lparen :: us, by simp [Expr.lexemes, bracedLexemes, ← hus], ?_⟩
      exact Rules.conditional_once hg (Stmt.reads_all consequence h.2 ts) hts
    | some alternative =>
      simp only [Expr.printable, Bool.and_eq_true] at h
      refine .of_operand rfl fun ts hts => ?_
      have hb := Stmt.reads_all consequence h.1.2 (.keyword .otherwise :: .lbrace ::
        (separated .semicolon (Stmt.allLexemes alternative) ++ .rbrace :: ts))
      obtain ⟨us, hus, hg⟩ := (Expr.reads condition h.1.1.1).grouped h.1.1.2
        (.lbrace :: (separated .semicolon (Stmt.allLexemes consequence) ++
          .rbrace :: .keyword .otherwise :: .lbrace ::
            (separated .semicolon (Stmt.allLexemes alternative) ++ .rbrace :: ts)))
      refine ⟨.keyword .condition, .lparen :: us, by simp [Expr.lexemes, bracedLexemes, ← hus], ?_⟩
      exact Rules.conditional_both hg hb (Stmt.reads_all alternative h.2 ts)
  | function parameters body =>
    simp only [Expr.printable, Bool.and_eq_true] at h
    refine .of_operand rfl fun ts _ => ⟨.keyword .function,
      .lparen :: separated .comma (parameters.map ([.ident ·])) ++
        .rparen :: .lbrace :: (separated .semicolon (Stmt.allLexemes body) ++ .rbrace :: ts),
      by simp [Expr.lexemes, bracedLexemes], ?_⟩
    exact Rules.functionLiteral_of_statements (parameters_lexemes parameters _)
      (Stmt.reads_all body h.2 ts)
  | call callee arguments =>
    simp only [Expr.printable, Bool.and_eq_true, Bool.not_eq_true'] at h
    refine .of_expression rfl fun floor hf ts _ => ?_
    have ha := Rules.list_of_forall₂ (.inl rfl) (Expr.reads_elements arguments h.2) ts
    have hc := (Expr.reads callee h.1.1).expression h.1.2 floor hf
      (.lparen :: (separated .comma (Expr.allLexemes arguments) ++ .rparen :: ts)) (by simp)
    rw [← Rules.infixes_call callee hf ha, ← hc]
    simp [Expr.lexemes]
  | index left position =>
    simp only [Expr.printable, Bool.and_eq_true, Bool.not_eq_true'] at h
    refine .of_grouped fun ts =>
      ⟨left.lexemes ++ .lbracket :: (position.lexemes ++ .rbracket :: .rparen :: ts),
        by simp [Expr.lexemes], ?_⟩
    have hp := (Expr.reads position h.2).whole (.rbracket :: .rparen :: ts) (by simp)
    apply Rules.grouped_of_whole
    rw [Rules.whole, (Expr.reads left h.1.1).expression h.1.2 _ (by decide) _ (by simp),
      Rules.infixes_index left (by decide) hp]
    exact Rules.infixes_stop _ (Nat.zero_le _)
  | assign name value =>
    simp only [Expr.printable, Bool.and_eq_true] at h
    refine ⟨by simp [Expr.isAssign], fun ts hts => ?_, by simp [Expr.isBracketed]⟩
    have hv := (Expr.reads value h.2).whole ts hts
    have hn : unbounded.operand (.ident name) (.assign :: (value.lexemes ++ ts)) =
        .done (.ident name) (.assign :: (value.lexemes ++ ts)) := rfl
    rw [Expr.lexemes, List.cons_append, List.cons_append, Rules.whole,
      Rules.expression_of_operand _ hn, Rules.infixes_assign name (by decide) hv]
    exact Rules.infixes_stop _ hts.reach_le

lemma Expr.reads_elements (es : List Expr) (h : Expr.allPrintable es) :
    List.Forall₂ ReadOf es (Expr.allLexemes es) := by
  cases es with
  | nil => exact .nil
  | cons e es =>
    simp only [Expr.allPrintable, Bool.and_eq_true] at h
    exact .cons (Expr.reads e h.1).whole (Expr.reads_elements es h.2)

lemma Expr.pairs_lexemes (pairs : List (Expr × Expr)) (h : Expr.pairsPrintable pairs)
    (ts : List Token) :
    unbounded.pairs (separated .comma (Expr.pairLexemes pairs) ++ .rbrace :: ts) =
      .done pairs ts := by
  cases pairs with
  | nil => exact Rules.pairs_nil ts
  | cons pair pairs =>
    obtain ⟨key, value⟩ := pair
    simp only [Expr.pairsPrintable, Bool.and_eq_true] at h
    obtain ⟨us, hus, hv⟩ := pair_after key (Expr.reads value h.1.2) pairs ts
    rw [hus]
    exact Rules.pairs_cons ((Expr.reads key h.1.1.1).whole _ (by simp)) hv
      (Expr.pairs_lexemes pairs h.2 ts)

lemma Expr.statement_hash (e : Expr) (h : e.printable) (hs : e.startsHash) (ts : List Token) :
    unbounded.statement (e.lexemes ++ ts) =
      Rules.terminated (.expr <$> unbounded.infixes Level.lowest e) ts := by
  cases e with
  | hash pairs =>
    cases pairs with
    | nil => exact Rules.statement_empty_hash ts
    | cons pair pairs =>
      obtain ⟨key, value⟩ := pair
      simp only [Expr.printable, Expr.pairsPrintable, Bool.and_eq_true, Bool.not_eq_true'] at h
      obtain ⟨⟨⟨hkp, hkb⟩, hvp⟩, hpp⟩ := h
      have hstart : key.startsHash = false := by
        by_contra hc
        rw [Bool.not_eq_false] at hc
        rw [Expr.opensBrace_of_startsHash key hc] at hkb
        cases hkb
      obtain ⟨us, hus, hv⟩ := pair_after key (Expr.reads value hvp) pairs ts
      have hk := (Expr.reads key hkp).whole (.colon :: us) (by simp)
      have hns := Expr.startsStatement_lexemes key hstart (.colon :: us) (by simp)
      rw [Expr.lexemes, List.append_assoc, List.cons_append, List.singleton_append, hus,
        Rules.statement_brace hns hk, Rules.openStatement_hash hk hv (Expr.pairs_lexemes pairs hpp ts)]
      rfl
  | call callee arguments =>
    simp only [Expr.printable, Bool.and_eq_true, Bool.not_eq_true'] at h
    have ha := Rules.list_of_forall₂ (.inl rfl) (Expr.reads_elements arguments h.2) ts
    have hc := Expr.statement_hash callee h.1.1 hs
      (.lparen :: (separated .comma (Expr.allLexemes arguments) ++ .rparen :: ts))
    have hi : unbounded.infixes Level.lowest callee _ = _ :=
      Rules.infixes_call callee (by decide) ha
    simp only [Expr.lexemes, List.append_assoc, List.cons_append, List.nil_append]
    rw [hc, Rules.terminated, Rules.terminated, Parse.bind_apply, Parse.bind_apply, Parse.map_apply,
      Parse.map_apply, hi]
  | _ => simp [Expr.startsHash] at hs

lemma Stmt.reads (s : Stmt) (h : s.printable) (ts : List Token) (hts : Ended ts) :
    unbounded.statement (s.lexemes ++ ts) = .done s (s.after ts) := by
  cases s with
  | declare name value =>
    simp only [Stmt.printable, Bool.and_eq_true] at h
    exact Rules.statement_declare name ((Expr.reads value h.2).whole ts hts)
  | result value => exact Rules.statement_result ((Expr.reads value h).whole ts hts)
  | expr value =>
    have hw := (Expr.reads value h).whole ts hts
    cases hs : value.startsHash with
    | false =>
      exact Rules.statement_expr
        (Expr.startsStatement_lexemes value hs ts (hts.head_ne (by decide))) hw
    | true =>
      rw [Stmt.lexemes, Expr.statement_hash value h hs ts]
      exact Rules.terminated_of_done (map_of_done (Rules.infixes_stop value hts.reach_le))
  | block body =>
    simp only [Stmt.printable, Bool.and_eq_true] at h
    have hb := Stmt.reads_all body h.2 ts
    rw [Stmt.lexemes, bracedLexemes, List.append_assoc]
    cases hs : startsStatement (separated .semicolon (Stmt.allLexemes body) ++ .rbrace :: ts) with
    | true => exact Rules.statement_block hs hb
    | false =>
      -- Only an expression starts no statement, and a block is read on behind it.
      cases body with
      | nil => simp at h
      | cons s ss =>
        simp only [Stmt.bodyPrintable, Bool.and_eq_true] at h
        obtain ⟨mid, hmid, hend, hcolon, -, hdrop⟩ := body_after s ss h.2.1.2 ts
        have hss := Stmt.reads_all ss h.2.2 ts
        rw [hmid] at hs
        rw [← hdrop] at hss
        simp only [List.cons_append, List.nil_append, hmid]
        cases s with
        | expr e =>
          have hw := (Expr.reads e h.2.1.1).whole mid hend
          exact (Rules.statement_brace hs hw).trans (Rules.openStatement_block hw hcolon hss)
        | _ => simp [Stmt.lexemes, bracedLexemes, startsStatement] at hs
  | loop init condition post body =>
    simp only [Stmt.printable, Bool.and_eq_true, Bool.not_eq_true'] at h
    obtain ⟨⟨⟨⟨hi, hil⟩, hc⟩, hp⟩, hb⟩ := h
    have hbr := Stmt.reads_all body hb ts
    have hpr := Stmt.reads post hp (.rparen :: .lbrace ::
      (separated .semicolon (Stmt.allLexemes body) ++ .rbrace :: ts)) (by simp)
    rw [Stmt.after_cons _ _ (by simp)] at hpr
    have hcr := (Expr.reads condition hc).whole (.semicolon :: (post.lexemes ++ .rparen :: .lbrace ::
      (separated .semicolon (Stmt.allLexemes body) ++ .rbrace :: ts))) (by simp)
    have hir := Stmt.reads init hi (.semicolon :: (condition.lexemes ++ .semicolon ::
      (post.lexemes ++ .rparen :: .lbrace ::
        (separated .semicolon (Stmt.allLexemes body) ++ .rbrace :: ts)))) (by simp)
    rw [Stmt.after, hil] at hir
    have hl := Rules.statement_loop (Rules.initializer_of_statement init.lexemes hir) hcr hpr hbr
    simpa [Stmt.lexemes, bracedLexemes, Stmt.after, Stmt.isLoop] using hl

lemma Stmt.reads_all (ss : List Stmt) (h : Stmt.bodyPrintable ss) (ts : List Token) :
    unbounded.statements (separated .semicolon (Stmt.allLexemes ss) ++ .rbrace :: ts) =
      .done ss ts := by
  cases ss with
  | nil => exact Rules.statements_nil ts
  | cons s ss =>
    simp only [Stmt.bodyPrintable, Bool.and_eq_true] at h
    obtain ⟨mid, hmid, hend, -, hafter, -⟩ := body_after s ss h.1.2 ts
    have hs := Stmt.reads s h.1.1 mid hend
    rw [hafter] at hs
    rw [hmid]
    exact Rules.statements_cons hs (Stmt.reads_all ss h.2 ts)

end

theorem ofText_text (s : Stmt) (h : s.printable) : Program.ofText s.text = .ok [s] := by
  have hs := Stmt.reads s h [] ended_nil
  have hafter : s.after [] = [] := by simp [Stmt.after, dropTerminator]
  rw [List.append_nil, hafter] at hs
  rw [Program.ofText, tokenize_text h, Program.ofTokens_eq_ok, Program.allEntries_done hs,
    Program.allEntries_nil]
  rfl

def searchLoop : Stmt :=
  .loop (.declare "i" (.int 0)) (.infixOp (.ident "i") .lt (.int 3))
    (.expr (.assign "i" (.infixOp (.ident "i") .add (.int 1))))
    [.block [.result (.bool true)],
      .expr (.cond (.prefixOp .not (.index (.ident "found") (.ident "i")))
        [.expr (.call (.ident "puts") [.array [.string "no"], .ident "i"])]
        (some [.expr (.hash [(.string "f", .function ["x", "y"] [.result (.ident "x")])])]))]

theorem ofText_text_searchLoop :
    searchLoop.printable ∧ Program.ofText searchLoop.text = .ok [searchLoop] :=
  ⟨by decide, ofText_text searchLoop (by decide)⟩

end Nut
