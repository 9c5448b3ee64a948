import Nut.Proofs.Parsing.Entries
import Nut.Proofs.Parsing.Statements

/-! With parentheses only where the operators ask for them, a tree is read back as it was. -/

namespace Nut

open Rules (unbounded reach ReadOf Ended)
open Parse (map_of_done)

/-- The infix operators, loosest first; those of one row bind equally tight. -/
def InfixOp.rows : List (List InfixOp) :=
  [[.and, .or], [.eq, .ne], [.lt, .le, .gt, .ge], [.add, .sub, .bitAnd, .bitOr], [.mul, .div, .mod]]

def InfixOp.tightness (o : InfixOp) : Nat :=
  InfixOp.rows.findIdx (·.contains o) + 1

namespace Expr

def prefixTightness : Nat := 6
def callTightness : Nat := 7

def tightness : Expr → Nat
  | .assign .. => 0
  | .infixOp _ o _ => o.tightness
  | .prefixOp .. => prefixTightness
  | _ => callTightness

mutual

def isFormula : Expr → Bool
  | .ident _ => true
  | .int value => 0 ≤ value.toInt
  | .string _ => true
  | .bool _ => true
  | .array elements => allFormulas elements
  | .prefixOp _ right => right.isFormula
  | .infixOp left _ right => left.isFormula && right.isFormula
  | .call callee arguments => callee.isFormula && allFormulas arguments
  | .index left position => left.isFormula && position.isFormula
  | .assign _ value => value.isFormula
  | .float _ | .hash _ | .cond .. | .function .. => false

def allFormulas : List Expr → Bool
  | [] => true
  | e :: es => e.isFormula && allFormulas es

end

def parenthesized (needed : Bool) (ts : List Token) : List Token :=
  if needed then .lparen :: ts ++ [.rparen] else ts

mutual

/-- The tokens of a formula, with parentheses around a left operand that binds looser than its
operator, a right operand that binds no tighter, and an operand of a prefix operator, a callee or an
indexed expression that binds looser than these do. -/
def tokens : Expr → List Token
  | .ident name => [.ident name]
  | .int value => [.int (integerText value)]
  | .string content => [.string content]
  | .bool b => [.keyword (if b then .truth else .falsity)]
  | .array elements => .lbracket :: separated .comma (allTokens elements) ++ [.rbracket]
  | .prefixOp op right =>
    op.token :: parenthesized (right.tightness < prefixTightness) right.tokens
  | .infixOp left o right =>
    parenthesized (left.tightness < o.tightness) left.tokens ++
      .op o :: parenthesized (right.tightness ≤ o.tightness) right.tokens
  | .call callee arguments =>
    parenthesized (callee.tightness < callTightness) callee.tokens ++
      .lparen :: separated .comma (allTokens arguments) ++ [.rparen]
  | .index left position =>
    parenthesized (left.tightness < callTightness) left.tokens ++
      .lbracket :: position.tokens ++ [.rbracket]
  | .assign name value => .ident name :: .assign :: value.tokens
  | .float _ | .hash _ | .cond .. | .function .. => []

def allTokens : List Expr → List (List Token)
  | [] => []
  | e :: es => e.tokens :: allTokens es

end

def entry : Expr → Nat
  | .assign .. => Level.assign
  | .infixOp _ o _ => o.level
  | _ => Level.call

def exit : Expr → Nat
  | .assign .. => Level.lowest
  | .infixOp _ o _ => o.level
  | .prefixOp .. => Level.unary
  | _ => Level.index

end Expr

lemma InfixOp.level_eq (o : InfixOp) : o.level = o.tightness + 1 := by
  cases o <;> decide

lemma InfixOp.tightness_pos (o : InfixOp) : 0 < o.tightness := by
  cases o <;> decide

lemma InfixOp.tightness_lt (o : InfixOp) : o.tightness < Expr.prefixTightness := by
  cases o <;> decide

namespace Expr

lemma tightness_lt_entry (e : Expr) : e.tightness < e.entry := by
  cases e with
  | infixOp left o right => simp [tightness, entry, o.level_eq]
  | _ => simp [tightness, entry, prefixTightness, callTightness, Level.call, Level.assign]

lemma tightness_lt_exit (e : Expr) (h : 0 < e.tightness) : e.tightness < e.exit := by
  cases e with
  | infixOp left o right => simp [tightness, exit, o.level_eq]
  | assign name value => simp [tightness] at h
  | _ => simp [tightness, exit, prefixTightness, callTightness, Level.unary, Level.index]

lemma entry_of_tight (e : Expr) (h : prefixTightness ≤ e.tightness) : e.entry = Level.call := by
  cases e with
  | infixOp left o right =>
    have := o.tightness_lt
    simp only [tightness] at h
    omega
  | assign name value => simp [tightness, prefixTightness] at h
  | _ => rfl

lemma exit_of_tight (e : Expr) (h : callTightness ≤ e.tightness) : e.exit = Level.index := by
  cases e with
  | infixOp left o right =>
    have := o.tightness_lt
    simp only [tightness, callTightness, prefixTightness] at h this
    omega
  | assign name value => simp [tightness, callTightness] at h
  | prefixOp op right => simp [tightness, callTightness, prefixTightness] at h
  | _ => rfl

/-- `e` is read of its tokens at every level below its entry, up to a token that binds no tighter
than its exit. -/
def Parses (e : Expr) : Prop :=
  ∀ floor ts, floor < e.entry → reach ts ≤ e.exit →
    unbounded.expression floor (e.tokens ++ ts) = unbounded.infixes floor e ts

namespace Parses

variable {e : Expr} (he : e.Parses)

include he

lemma done {floor : Nat} {ts : List Token} (hf : floor < e.entry) (ht : reach ts ≤ e.exit)
    (hs : reach ts ≤ floor) : unbounded.expression floor (e.tokens ++ ts) = .done e ts := by
  rw [he floor ts hf ht, Rules.infixes_stop e hs]

lemma readOf : ReadOf e e.tokens := fun _ hts =>
  he.done (Nat.lt_of_le_of_lt (Nat.zero_le _) e.tightness_lt_entry)
    (Nat.le_trans hts.reach_le (Nat.zero_le _)) hts.reach_le

lemma parenthesized {p : Prop} [Decidable p] {floor : Nat} {ts : List Token}
    (hf : ¬p → floor < e.entry) (ht : ¬p → reach ts ≤ e.exit) :
    unbounded.expression floor (Expr.parenthesized p e.tokens ++ ts) =
      unbounded.infixes floor e ts := by
  by_cases hp : p
  · have hw := he.readOf (.rparen :: ts) (by simp)
    simpa [Expr.parenthesized, hp] using Rules.expression_group floor (Rules.grouped_of_whole hw)
  · simpa [Expr.parenthesized, hp] using he floor ts (hf hp) (ht hp)

lemma called {floor : Nat} (hf : floor < Level.call) (ts : List Token) :
    unbounded.expression floor (Expr.parenthesized (e.tightness < callTightness) e.tokens ++ ts) =
      unbounded.infixes floor e ts := by
  refine he.parenthesized (fun h => ?_) fun h => ?_
  · rwa [entry_of_tight e (Nat.le_trans (by decide) (Nat.le_of_not_lt h))]
  · rw [exit_of_tight e (Nat.le_of_not_lt h)]
    exact Rules.reach_le ts

lemma left {floor : Nat} {o : InfixOp} (hf : floor < o.level) (ts : List Token) :
    unbounded.expression floor (Expr.parenthesized (e.tightness < o.tightness) e.tokens ++ .op o :: ts) =
      unbounded.infixes floor e (.op o :: ts) := by
  have hlevel := o.level_eq
  have hpos := o.tightness_pos
  refine he.parenthesized (fun h => ?_) fun h => ?_
  · have := e.tightness_lt_entry
    omega
  · have := e.tightness_lt_exit (by omega)
    rw [reach]
    omega

lemma right {o : InfixOp} {ts : List Token} (ht : reach ts ≤ o.level) :
    unbounded.expression o.level (Expr.parenthesized (e.tightness ≤ o.tightness) e.tokens ++ ts) =
      .done e ts := by
  have hlevel := o.level_eq
  rw [he.parenthesized (fun h => ?_) fun h => ?_, Rules.infixes_stop e ht]
  · have := e.tightness_lt_entry
    omega
  · have := e.tightness_lt_exit (by omega)
    omega

lemma unary {ts : List Token} (ht : reach ts ≤ Level.unary) :
    unbounded.expression Level.unary
      (Expr.parenthesized (e.tightness < prefixTightness) e.tokens ++ ts) = .done e ts := by
  have hlevel : Level.unary = prefixTightness + 1 := rfl
  rw [he.parenthesized (fun h => ?_) fun h => ?_, Rules.infixes_stop e ht]
  · rw [entry_of_tight e (Nat.le_of_not_lt h)]
    decide
  · have := e.tightness_lt_exit (Nat.lt_of_lt_of_le (by decide) (Nat.le_of_not_lt h))
    omega

end Parses

mutual

lemma parses (e : Expr) (h : e.isFormula) : e.Parses := by
  intro floor ts hf ht
  cases e with
  | ident name => exact Rules.expression_of_operand floor rfl
  | int value => exact Rules.expression_int floor ts (by simpa [isFormula] using h)
  | string content => exact Rules.expression_of_operand floor rfl
  | bool b => cases b <;> exact Rules.expression_of_operand floor rfl
  | array elements =>
    have hl := Rules.list_of_forall₂ (.inr rfl) (readOf_all elements h) ts
    have ho : unbounded.operand .lbracket _ = .done (.array elements) ts := map_of_done hl
    simpa [tokens] using Rules.expression_of_operand floor ho
  | prefixOp op right =>
    exact Rules.expression_prefix op floor (by cases op <;> rfl) ((parses right h).unary ht)
  | infixOp left o right =>
    simp only [isFormula, Bool.and_eq_true] at h
    rw [← Rules.infixes_op left hf ((parses right h.2).right ht), ← (parses left h.1).left hf]
    simp [tokens]
  | call callee arguments =>
    simp only [isFormula, Bool.and_eq_true] at h
    have ha := Rules.list_of_forall₂ (.inl rfl) (readOf_all arguments h.2) ts
    rw [← Rules.infixes_call callee hf ha, ← (parses callee h.1).called hf]
    simp [tokens]
  | index left position =>
    simp only [isFormula, Bool.and_eq_true] at h
    have hp := (parses position h.2).readOf (.rbracket :: ts) (by simp)
    rw [← Rules.infixes_index left (Nat.lt_trans hf (show Level.call < Level.index by decide)) hp,
      ← (parses left h.1).called hf]
    simp [tokens]
  | assign name value =>
    have hv : unbounded.whole (value.tokens ++ ts) = _ := (parses value h).done
      (Nat.lt_of_le_of_lt (Nat.zero_le _) value.tightness_lt_entry)
      (Nat.le_trans ht (Nat.zero_le _)) ht
    rw [← Rules.infixes_assign name hf hv]
    exact Rules.expression_of_operand floor rfl
  | float | hash | cond | function => simp [isFormula] at h

lemma readOf_all (es : List Expr) (h : allFormulas es) : List.Forall₂ ReadOf es (allTokens es) := by
  cases es with
  | nil => exact .nil
  | cons e es =>
    simp only [allFormulas, Bool.and_eq_true] at h
    exact .cons (parses e h.1).readOf (readOf_all es h.2)

end

lemma startsStatement_parenthesized (p : Prop) [Decidable p] {u ts : List Token}
    (h : Rules.startsStatement (u ++ ts) = false) :
    Rules.startsStatement (parenthesized p u ++ ts) = false := by
  by_cases hp : p
  · simp [parenthesized, hp, Rules.startsStatement]
  · simpa [parenthesized, hp] using h

lemma startsStatement_tokens (e : Expr) (h : e.isFormula) (ts : List Token)
    (hts : ts.head? ≠ some .bind) : Rules.startsStatement (e.tokens ++ ts) = false := by
  cases e with
  | ident name =>
    cases ts with
    | nil => rfl
    | cons t ts => cases t <;> first | rfl | simp at hts
  | bool b => cases b <;> rfl
  | prefixOp op right => cases op <;> rfl
  | infixOp left o right =>
    simp only [isFormula, Bool.and_eq_true] at h
    simpa [tokens] using startsStatement_parenthesized _
      (startsStatement_tokens left h.1 (.op o :: (_ ++ ts)) (by simp))
  | call callee arguments =>
    simp only [isFormula, Bool.and_eq_true] at h
    simpa [tokens] using startsStatement_parenthesized _
      (startsStatement_tokens callee h.1 (.lparen :: (_ ++ .rparen :: ts)) (by simp))
  | index left position =>
    simp only [isFormula, Bool.and_eq_true] at h
    simpa [tokens] using startsStatement_parenthesized _
      (startsStatement_tokens left h.1 (.lbracket :: (_ ++ .rbracket :: ts)) (by simp))
  | int | string | array | assign => rfl
  | float | hash | cond | function => simp [isFormula] at h

end Expr

theorem ofTokens_tokens (e : Expr) (h : e.isFormula) : Program.ofTokens e.tokens = .ok [.expr e] := by
  have hs := Rules.statement_expr (e.startsStatement_tokens h [] (by simp))
    ((e.parses h).readOf [] (by simp))
  rw [List.append_nil] at hs
  rw [Program.ofTokens_eq_ok, Program.allEntries_done hs]
  rfl

/-- The tree of `f(x = y = -(1 + 2) * 3 - (4 - a[0])) || !(b && c)`. -/
def mixedFormula : Expr :=
  .infixOp
    (.call (.ident "f") [.assign "x" (.assign "y" (.infixOp
      (.infixOp (.prefixOp .neg (.infixOp (.int 1) .add (.int 2))) .mul (.int 3)) .sub
      (.infixOp (.int 4) .sub (.index (.ident "a") (.int 0)))))])
    .or (.prefixOp .not (.infixOp (.ident "b") .and (.ident "c")))

theorem ofTokens_tokens_mixedFormula :
    mixedFormula.isFormula ∧ Program.ofTokens mixedFormula.tokens = .ok [.expr mixedFormula] :=
  ⟨by decide, ofTokens_tokens mixedFormula (by decide)⟩

end Nut
