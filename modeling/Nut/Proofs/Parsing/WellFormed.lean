import Nut.Proofs.Lexing.Rendering
import Nut.Proofs.Parsing.Soundness

/-! What is read of a text is a well-formed tree whose yield is the tokens of the text. -/

namespace Nut

def PrefixOp.spellings : List String := ["!", "-"]

def InfixOp.spellings : List String :=
  ["+", "-", "*", "/", "%", "&", "|", "<", "<=", ">", ">=", "==", "!=", "&&", "||"]

mutual

/-- Branches and bodies are lists of statements, and targets are names, by their type. -/
def Expr.WellFormed : Expr → Prop
  | .ident name => isName name
  | .int value => 0 ≤ value.toInt
  | .float _ => True
  | .string _ => True
  | .bool _ => True
  | .array elements => Expr.AllWellFormed elements
  | .hash pairs => Expr.PairsWellFormed pairs
  | .prefixOp op right => op.text ∈ PrefixOp.spellings ∧ right.WellFormed
  | .infixOp left op right => op.text ∈ InfixOp.spellings ∧ left.WellFormed ∧ right.WellFormed
  | .cond condition consequence none => condition.WellFormed ∧ Stmt.AllWellFormed consequence
  | .cond condition consequence (some alternative) =>
    condition.WellFormed ∧ Stmt.AllWellFormed consequence ∧ Stmt.AllWellFormed alternative
  | .function parameters body => (∀ name ∈ parameters, isName name) ∧ Stmt.AllWellFormed body
  | .call callee arguments => callee.WellFormed ∧ Expr.AllWellFormed arguments
  | .index left position => left.WellFormed ∧ position.WellFormed
  | .assign name value => isName name ∧ value.WellFormed

def Expr.AllWellFormed : List Expr → Prop
  | [] => True
  | e :: es => e.WellFormed ∧ Expr.AllWellFormed es

def Expr.PairsWellFormed : List (Expr × Expr) → Prop
  | [] => True
  | (key, value) :: pairs => key.WellFormed ∧ value.WellFormed ∧ Expr.PairsWellFormed pairs

def Stmt.WellFormed : Stmt → Prop
  | .declare name value => isName name ∧ value.WellFormed
  | .result value => value.WellFormed
  | .expr value => value.WellFormed
  | .block body => body ≠ [] ∧ Stmt.AllWellFormed body
  | .loop init condition post body =>
    init.WellFormed ∧ init.isLoop = false ∧ condition.WellFormed ∧ post.WellFormed ∧
      Stmt.AllWellFormed body

def Stmt.AllWellFormed : List Stmt → Prop
  | [] => True
  | s :: ss => s.WellFormed ∧ Stmt.AllWellFormed ss

end

def Phrase.WellFormed : Phrase → Prop
  | .expr e => e.WellFormed
  | .elements es => Expr.AllWellFormed es
  | .pairs kvs => Expr.PairsWellFormed kvs
  | .stmt s => s.WellFormed
  | .body ss => Stmt.AllWellFormed ss

lemma PrefixOp.text_mem (op : PrefixOp) : op.text ∈ PrefixOp.spellings := by
  cases op <;> decide

lemma InfixOp.text_mem (o : InfixOp) : o.text ∈ InfixOp.spellings := by
  cases o <;> decide

lemma Yields.not_loop_of_semicolon {i : Stmt} {u : List Token}
    (h : Yields (.stmt i) (u ++ [.semicolon])) : i.isLoop = false := by
  cases i with
  | loop init condition post body =>
    generalize hw : u ++ [Token.semicolon] = w at h
    cases h
    have hl := congrArg List.getLast? hw
    rw [List.getLast?_concat, List.getLast?_concat] at hl
    cases hl
  | _ => rfl

def Spelled : List Token → Prop
  | [] => True
  | .ident name :: ts => isName name ∧ Spelled ts
  | _ :: ts => Spelled ts

lemma spelled_append {us ts : List Token} : Spelled (us ++ ts) ↔ Spelled us ∧ Spelled ts := by
  fun_induction Spelled us <;> simp_all [Spelled, and_assoc]

lemma spelled_of_forall {ts : List Token} (h : ∀ name, .ident name ∈ ts → isName name) :
    Spelled ts := by
  fun_induction Spelled ts <;> simp_all

lemma spelled_separated {names : List String}
    (h : Spelled (separated .comma (names.map ([.ident ·])))) : ∀ name ∈ names, isName name := by
  match names with
  | [] => simp
  | [name] => simpa [separated, Spelled] using h
  | name :: next :: names =>
    obtain ⟨hn, hr⟩ : isName name ∧ _ := by simpa [separated, Spelled] using h
    exact List.forall_mem_cons.mpr ⟨hn, spelled_separated hr⟩

lemma Yields.wellFormed {phrase : Phrase} {ts : List Token} (h : Yields phrase ts)
    (hn : Spelled ts) : phrase.WellFormed := by
  induction h with
    try simp only [Spelled, List.cons_append, spelled_append, and_true, and_assoc] at hn
  | ident name => exact hn
  | int h => exact (Int.natCast_nonneg _).trans_eq h.symm
  | float | string | truth | falsity | noElement | noPair | nil => trivial
  | paren _ ih | array _ ih | hash _ ih => exact ih hn
  | prefixOp op _ ih => exact ⟨op.text_mem, ih (by cases op <;> simpa [PrefixOp.token, Spelled] using hn)⟩
  | infixOp o _ _ ihl ihr => exact ⟨o.text_mem, ihl hn.1, ihr hn.2⟩
  | assign _ _ ihl ihr | call _ _ ihl ihr | index _ _ ihl ihr | condOnce _ _ ihl ihr
  | element _ _ _ ihl ihr | cons _ _ ihl ihr => exact ⟨ihl hn.1, ihr hn.2⟩
  | condBoth _ _ _ ihc iha ihb => exact ⟨ihc hn.1, iha hn.2.1, ihb hn.2.2⟩
  | function names _ ih => exact ⟨spelled_separated hn.1, ih hn.2⟩
  | lastElement _ ih => exact ⟨ih hn, trivial⟩
  | lastPair _ _ ihk ihe => exact ⟨ihk hn.1, ihe hn.2, trivial⟩
  | pair _ _ _ ihk ihe ihp => exact ⟨ihk hn.1, ihe hn.2.1, ihp hn.2.2⟩
  | declare name _ _ ih | bind name _ _ ih => exact ⟨hn.1, ih hn.2.1⟩
  | result _ _ ih | expr _ _ ih => exact ih hn.1
  | block hne _ _ ih => exact ⟨hne, ih hn.1⟩
  | loop hi _ _ _ ihi ihc ihp ihb =>
    obtain ⟨hu, hv, hw, hx⟩ := hn
    exact ⟨ihi (by simpa [Spelled, spelled_append] using hu), hi.not_loop_of_semicolon, ihc hv, ihp hw, ihb hx⟩

theorem ofText_sound {source : String} {p : Program} (h : Program.ofText source = .ok p) :
    Yields (.body p) (tokenize source) ∧ Stmt.AllWellFormed p := by
  have hy := Program.yields_of_allEntries (Program.ofTokens_eq_ok.mp h)
  exact ⟨hy, hy.wellFormed (spelled_of_forall fun name h => isName_of_mem_lex h)⟩

theorem ofText_sound_block :
    Program.ofText "{ x = -(1); fn(a, b) { a } }" =
        .ok [.block [.expr (.assign "x" (.prefixOp .neg (.int 1))),
          .expr (.function ["a", "b"] [.expr (.ident "a")])]] ∧
      Yields (.body [.block [.expr (.assign "x" (.prefixOp .neg (.int 1))),
        .expr (.function ["a", "b"] [.expr (.ident "a")])]])
        (tokenize "{ x = -(1); fn(a, b) { a } }") ∧
      Stmt.AllWellFormed [.block [.expr (.assign "x" (.prefixOp .neg (.int 1))),
        .expr (.function ["a", "b"] [.expr (.ident "a")])]] := by
  have h : Program.ofText "{ x = -(1); fn(a, b) { a } }" = .ok [.block
      [.expr (.assign "x" (.prefixOp .neg (.int 1))),
        .expr (.function ["a", "b"] [.expr (.ident "a")])]] := by cbv
  exact ⟨h, ofText_sound h⟩

end Nut
