import Nut.Proofs.Lexing.Munch
import Nut.Proofs.Printing.Lexemes

/-! The text of a printable tree is read as the tokens of the tree. -/

namespace Nut

open Lexeme

lemma lex_solid {c : Char} {t : Token} (cs : List Char) (hb : isBlank c = false)
    (h : first c cs = (t, cs)) : lex (c :: cs) = t :: lex cs := by
  rw [lex_cons _ hb, h]

section Symbols

variable (cs : List Char)

@[simp] lemma lex_space : lex (' ' :: cs) = lex cs := lex_blank cs rfl
@[simp] lemma lex_lparen : lex ('(' :: cs) = .lparen :: lex cs := lex_solid cs rfl rfl
@[simp] lemma lex_rparen : lex (')' :: cs) = .rparen :: lex cs := lex_solid cs rfl rfl
@[simp] lemma lex_lbracket : lex ('[' :: cs) = .lbracket :: lex cs := lex_solid cs rfl rfl
@[simp] lemma lex_rbracket : lex (']' :: cs) = .rbracket :: lex cs := lex_solid cs rfl rfl
@[simp] lemma lex_lbrace : lex ('{' :: cs) = .lbrace :: lex cs := lex_solid cs rfl rfl
@[simp] lemma lex_rbrace : lex ('}' :: cs) = .rbrace :: lex cs := lex_solid cs rfl rfl
@[simp] lemma lex_comma : lex (',' :: cs) = .comma :: lex cs := lex_solid cs rfl rfl
@[simp] lemma lex_semicolon : lex (';' :: cs) = .semicolon :: lex cs := lex_solid cs rfl rfl
@[simp] lemma lex_minus : lex ('-' :: cs) = .op .sub :: lex cs := lex_solid cs rfl rfl

@[simp] lemma lex_colon : lex (':' :: ' ' :: cs) = .colon :: lex cs := by
  rw [lex_cons _ (by decide)]
  exact congrArg _ (lex_space cs)

@[simp] lemma lex_assign : lex ('=' :: ' ' :: cs) = .assign :: lex cs := by
  rw [lex_cons _ (by decide)]
  exact congrArg _ (lex_space cs)

lemma lex_bang (h : ∀ c ∈ cs.head?, c ≠ '=') : lex ('!' :: cs) = .bang :: lex cs := by
  have hf : first '!' cs = (.bang, cs) := by
    cases cs with
    | nil => rfl
    | cons c cs => simp [first, paired, h c (by simp)]
  exact lex_solid cs rfl hf

lemma lex_op (o : InfixOp) : lex (o.text.toList ++ ' ' :: cs) = .op o :: lex cs := by
  have hm : Munch o.text.toList (.op o) (' ' :: cs) := by
    refine .symbol (t := .op o) rfl fun c hc hh => ?_
    cases hh
    cases o <;> cases hc
  rw [hm.lex_eq, lex_space]

end Symbols

@[simp] lemma separate_nil : Separate [] := by
  simp [Separate]

@[simp] lemma separate_cons {c : Char} {cs : List Char} :
    Separate (c :: cs) ↔ isLetter c = false ∧ c.isDigit = false ∧ c ≠ '.' := by
  simp [Separate]

lemma integerText_digits {n : Int64} (h : 0 ≤ n.toInt) : Digits (integerText n).toList := by
  obtain ⟨k, hk⟩ := Int.eq_ofNat_of_zero_le h
  have ht : (integerText n).toList = Nat.toDigits 10 k := by
    rw [integerText, hk, ← Nat.toList_repr]
    rfl
  rw [ht]
  exact ⟨Nat.toDigits_ne_nil, fun c hc => Nat.isDigit_of_mem_toDigits (by omega) (by omega) hc⟩

/-- In front of a text that continues no word or number, `text` is read as `ts`. -/
def Spells (text : String) (ts : List Token) : Prop :=
  ∀ cs, Separate cs → lex (text.toList ++ cs) = ts ++ lex cs

namespace Spells

lemma eq {text : String} {ts : List Token} (h : Spells text ts) :
    ∀ cs, Separate cs → lex (text.toList ++ cs) = ts ++ lex cs :=
  h

lemma keyword (k : Keyword) : Spells k.text [.keyword k] := fun _ hs =>
  (Munch.keyword k fun c hc => (hs c hc).1).lex_eq

lemma name {word : String} (h : isName word) : Spells word [.ident word] := fun _ hs =>
  (Munch.name h fun c hc => (hs c hc).1).lex_eq

lemma integer {n : Int64} (h : 0 ≤ n.toInt) : Spells (integerText n) [.int (integerText n)] := by
  intro cs hs
  have hl := (Munch.int (integerText_digits h) fun c hc => (hs c hc).2).lex_eq
  rwa [String.ofList_toList] at hl

lemma quoted {content : String} (h : isPlain content) :
    Spells ("\"" ++ content ++ "\"") [.string content] := by
  intro cs _
  have hp : ∀ c ∈ content.toList, c ≠ '"' ∧ c ≠ '\\' := by
    simpa [isPlain] using h
  have hm : Munch _ (.string (String.ofList content.toList)) cs := .quoted (.of_plain hp)
  rw [String.ofList_toList] at hm
  simpa using hm.lex_eq

lemma join {separator : String} {t : Token} {texts : List String} {tss : List (List Token)}
    (hl : ∀ cs, lex (separator.toList ++ cs) = t :: lex cs)
    (hs : ∀ cs, Separate (separator.toList ++ cs)) (h : List.Forall₂ Spells texts tss) :
    Spells (join separator texts) (separated t tss) := by
  induction h with
  | nil => exact fun cs _ => rfl
  | @cons text ts texts tss ht h ih =>
    cases h with
    | nil => exact ht
    | cons ht' h =>
      intro cs hcs
      have := ih cs hcs
      simp only [Nut.join, separated, String.toList_append, List.append_assoc] at this ⊢
      rw [ht _ (hs _), hl, this, List.cons_append]

lemma comma {texts : List String} {tss : List (List Token)} (h : List.Forall₂ Spells texts tss) :
    Spells (Nut.join ", " texts) (separated .comma tss) :=
  join (by simp) (by simp +decide) h

lemma block {texts : List String} {tss : List (List Token)} (h : List.Forall₂ Spells texts tss)
    (cs : List Char) :
    lex ((blockText texts).toList ++ cs) = bracedLexemes tss ++ lex cs := by
  have hj : Spells (Nut.join "; " texts) (separated .semicolon tss) :=
    join (by simp) (by simp +decide) h
  have hcs := hj (' ' :: '}' :: cs) (by simp +decide)
  cases h with
  | nil => simp [blockText, braced, bracedLexemes, separated]
  | cons => simpa [blockText, braced, bracedLexemes] using hcs

end Spells

lemma letter_head {word : String} (h : isName word) :
    ∃ c cs, word.toList = c :: cs ∧ isLetter c := by
  simp only [isName, Bool.and_eq_true, List.all_eq_true] at h
  cases hw : word.toList with
  | nil => simp [hw] at h
  | cons c cs => exact ⟨c, cs, rfl, h.1.2 c (by simp [hw])⟩

lemma digit_head {n : Int64} (h : 0 ≤ n.toInt) :
    ∃ c cs, (integerText n).toList = c :: cs ∧ c.isDigit := by
  obtain ⟨hne, hd⟩ := integerText_digits h
  cases hw : (integerText n).toList with
  | nil => exact absurd hw hne
  | cons c cs => exact ⟨c, cs, rfl, hd c (by simp [hw])⟩

lemma Expr.head_text (e : Expr) (h : e.printable) : ∃ c cs, e.text.toList = c :: cs ∧ c ≠ '=' := by
  cases e with
  | ident name =>
    obtain ⟨c, cs, hc, hl⟩ := letter_head h
    exact ⟨c, cs, hc, by rintro rfl; simp +decide at hl⟩
  | int value =>
    obtain ⟨c, cs, hc, hd⟩ := digit_head (n := value) (by simpa [Expr.printable] using h)
    exact ⟨c, cs, hc, by rintro rfl; simp +decide at hd⟩
  | float value => simp [Expr.printable] at h
  | string content => exact ⟨'"', _, by simp [Expr.text]; rfl, by decide⟩
  | bool b => cases b <;> simp [Expr.text, boolText]
  | array elements => simp [Expr.text]
  | hash pairs => simp [Expr.text, braced]
  | prefixOp op right | infixOp left op right | index left position => simp [Expr.text]
  | cond condition consequence alternative =>
    cases alternative <;> simp [Expr.text]
  | function parameters body => simp [Expr.text]
  | call callee arguments =>
    simp only [Expr.printable, Bool.and_eq_true] at h
    obtain ⟨c, cs, hc, hne⟩ := Expr.head_text callee h.1.1
    exact ⟨c, _, by simp [Expr.text, hc]; rfl, hne⟩
  | assign name value =>
    simp only [Expr.printable, Bool.and_eq_true] at h
    obtain ⟨c, cs, hc, hl⟩ := letter_head h.1
    exact ⟨c, _, by simp [Expr.text, hc]; rfl, by rintro rfl; simp +decide at hl⟩

section Keywords

variable (cs : List Char)

@[simp] lemma lex_if : lex ('i' :: 'f' :: ' ' :: cs) = .keyword .condition :: lex cs := by
  simpa [Keyword.text] using Spells.keyword .condition (' ' :: cs) (by simp +decide)

@[simp] lemma lex_else :
    lex ('e' :: 'l' :: 's' :: 'e' :: ' ' :: cs) = .keyword .otherwise :: lex cs := by
  simpa [Keyword.text] using Spells.keyword .otherwise (' ' :: cs) (by simp +decide)

@[simp] lemma lex_fn : lex ('f' :: 'n' :: '(' :: cs) = .keyword .function :: .lparen :: lex cs := by
  simpa [Keyword.text] using Spells.keyword .function ('(' :: cs) (by simp +decide)

@[simp] lemma lex_let : lex ('l' :: 'e' :: 't' :: ' ' :: cs) = .keyword .binding :: lex cs := by
  simpa [Keyword.text] using Spells.keyword .binding (' ' :: cs) (by simp +decide)

@[simp] lemma lex_return :
    lex ('r' :: 'e' :: 't' :: 'u' :: 'r' :: 'n' :: ' ' :: cs) = .keyword .result :: lex cs := by
  simpa [Keyword.text] using Spells.keyword .result (' ' :: cs) (by simp +decide)

@[simp] lemma lex_for : lex ('f' :: 'o' :: 'r' :: ' ' :: cs) = .keyword .loop :: lex cs := by
  simpa [Keyword.text] using Spells.keyword .loop (' ' :: cs) (by simp +decide)

end Keywords

lemma spells_parameters {parameters : List String} (h : parameters.all isName) :
    List.Forall₂ Spells parameters (parameters.map ([.ident ·])) := by
  induction parameters with
  | nil => exact .nil
  | cons name names ih =>
    simp only [List.all_cons, Bool.and_eq_true] at h
    exact .cons (Spells.name h.1) (ih h.2)

mutual

lemma Expr.spells (e : Expr) (h : e.printable) : Spells e.text e.lexemes := by
  intro cs hs
  cases e with
  | ident name => exact Spells.name h cs hs
  | int value => exact Spells.integer (by simpa [Expr.printable] using h) cs hs
  | float value => simp [Expr.printable] at h
  | string content => exact Spells.quoted h cs hs
  | bool b => cases b with
    | true => exact Spells.keyword .truth cs hs
    | false => exact Spells.keyword .falsity cs hs
  | array elements =>
    have he := (Spells.comma (Expr.spells_all elements h)).eq
    simp +decide [Expr.text, Expr.lexemes, he]
  | hash pairs =>
    have hp := (Spells.comma (Expr.spells_pairs pairs h)).eq
    simp +decide [Expr.text, Expr.lexemes, braced, hp]
  | prefixOp op right =>
    simp only [Expr.printable, Bool.and_eq_true] at h
    have hr := (Expr.spells right h.1).eq
    obtain ⟨c, rest, hc, hne⟩ := Expr.head_text right h.1
    have hb := lex_bang (right.text.toList ++ ')' :: cs) (by simp [hc, hne])
    cases op <;> simp +decide [Expr.text, Expr.lexemes, PrefixOp.text, PrefixOp.token, hb, hr]
  | infixOp left op right =>
    simp only [Expr.printable, Bool.and_eq_true] at h
    have hl := (Expr.spells left h.1.1.1).eq
    have hr := (Expr.spells right h.1.2).eq
    simp +decide [Expr.text, Expr.lexemes, hl, lex_op, hr]
  | cond condition consequence alternative =>
    cases alternative with
    | none =>
      simp only [Expr.printable, Bool.and_eq_true] at h
      have hc := (Expr.spells condition h.1.1).eq
      have hb := Spells.block (Stmt.spells_all consequence h.2)
      simp +decide [Expr.text, Expr.lexemes, hc, hb]
    | some alternative =>
      simp only [Expr.printable, Bool.and_eq_true] at h
      have hc := (Expr.spells condition h.1.1.1).eq
      have hb := Spells.block (Stmt.spells_all consequence h.1.2)
      have ha := Spells.block (Stmt.spells_all alternative h.2)
      simp +decide [Expr.text, Expr.lexemes, hc, hb, ha]
  | function parameters body =>
    simp only [Expr.printable, Bool.and_eq_true] at h
    have hp := (Spells.comma (spells_parameters h.1)).eq
    have hb := Spells.block (Stmt.spells_all body h.2)
    simp +decide [Expr.text, Expr.lexemes, hp, hb]
  | call callee arguments =>
    simp only [Expr.printable, Bool.and_eq_true] at h
    have hf := (Expr.spells callee h.1.1).eq
    have ha := (Spells.comma (Expr.spells_all arguments h.2)).eq
    simp +decide [Expr.text, Expr.lexemes, hf, ha]
  | index left position =>
    simp only [Expr.printable, Bool.and_eq_true] at h
    have hl := (Expr.spells left h.1.1).eq
    have hp := (Expr.spells position h.2).eq
    simp +decide [Expr.text, Expr.lexemes, hl, hp]
  | assign name value =>
    simp only [Expr.printable, Bool.and_eq_true] at h
    have hn := (Spells.name h.1).eq
    have hv := (Expr.spells value h.2).eq cs hs
    simp +decide [Expr.text, Expr.lexemes, hn, hv]

lemma Expr.spells_all (es : List Expr) (h : Expr.allPrintable es) :
    List.Forall₂ Spells (Expr.texts es) (Expr.allLexemes es) := by
  cases es with
  | nil => exact .nil
  | cons e es =>
    simp only [Expr.allPrintable, Bool.and_eq_true] at h
    exact .cons (Expr.spells e h.1) (Expr.spells_all es h.2)

lemma Expr.spells_pairs (pairs : List (Expr × Expr)) (h : Expr.pairsPrintable pairs) :
    List.Forall₂ Spells (Expr.pairTexts pairs) (Expr.pairLexemes pairs) := by
  cases pairs with
  | nil => exact .nil
  | cons pair pairs =>
    obtain ⟨key, value⟩ := pair
    simp only [Expr.pairsPrintable, Bool.and_eq_true] at h
    refine .cons (fun cs hs => ?_) (Expr.spells_pairs pairs h.2)
    have hk := (Expr.spells key h.1.1.1).eq
    have hv := (Expr.spells value h.1.2).eq cs hs
    simp +decide [hk, hv]

lemma Stmt.spells (s : Stmt) (h : s.printable) : Spells s.text s.lexemes := by
  intro cs hs
  cases s with
  | declare name value =>
    simp only [Stmt.printable, Bool.and_eq_true] at h
    have hn := (Spells.name h.1).eq
    have hv := (Expr.spells value h.2).eq cs hs
    simp +decide [Stmt.text, Stmt.lexemes, hn, hv]
  | result value =>
    have hv := (Expr.spells value h).eq cs hs
    simp [Stmt.text, Stmt.lexemes, hv]
  | expr value => exact Expr.spells value h cs hs
  | block body =>
    simp only [Stmt.printable, Bool.and_eq_true] at h
    exact Spells.block (Stmt.spells_all body h.2) cs
  | loop init condition post body =>
    simp only [Stmt.printable, Bool.and_eq_true] at h
    have hi := (Stmt.spells init h.1.1.1.1).eq
    have hc := (Expr.spells condition h.1.1.2).eq
    have hp := (Stmt.spells post h.1.2).eq
    have hb := Spells.block (Stmt.spells_all body h.2)
    simp +decide [Stmt.text, Stmt.lexemes, hi, hc, hp, hb]

lemma Stmt.spells_all (ss : List Stmt) (h : Stmt.bodyPrintable ss) :
    List.Forall₂ Spells (Stmt.texts ss) (Stmt.allLexemes ss) := by
  cases ss with
  | nil => exact .nil
  | cons s ss =>
    simp only [Stmt.bodyPrintable, Bool.and_eq_true] at h
    exact .cons (Stmt.spells s h.1.1) (Stmt.spells_all ss h.2)

end

lemma tokenize_text {s : Stmt} (h : s.printable) : tokenize s.text = s.lexemes := by
  have hs := Stmt.spells s h [] separate_nil
  rwa [List.append_nil, lex_nil, List.append_nil] at hs

end Nut
