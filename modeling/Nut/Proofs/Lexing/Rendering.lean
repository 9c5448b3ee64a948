import Nut.Proofs.Lexing.Munch

/-! Tokens written out with blanks between them are read back, and every token that is read can be
written out so. -/

namespace Nut

open Lexeme

def escaped (content : List Char) : List Char :=
  content.flatMap fun c => if c = '"' ∨ c = '\\' then ['\\', c] else [c]

namespace Token

/-- The text of a token that is read back as it: quotes and backslashes in a string are escaped. -/
def rendering : Token → String
  | string content => String.ofList ('"' :: escaped content.toList ++ ['"'])
  | t => t.text

/-- The payload is one that a lexeme can have. -/
def WellFormed : Token → Prop
  | ident name => isName name
  | int digits => Digits digits.toList
  | float text => ∃ ds fs, Digits ds ∧ Digits fs ∧ text = String.ofList (ds ++ '.' :: fs)
  | illegal text => (∃ c, Stray c ∧ text = String.singleton c) ∨
      ∃ ds, Digits ds ∧ text = String.ofList (ds ++ ['.'])
  | _ => True

end Token

/-- The renderings of the tokens, with `gap n` in front of the last `n` of them. -/
def rendered (gap : Nat → String) : List Token → String
  | [] => ""
  | [t] => t.rendering
  | t :: ts => t.rendering ++ gap ts.length ++ rendered gap ts

lemma decodes_escaped (content : List Char) : Decodes (escaped content) content := by
  induction content with
  | nil => exact .nil
  | cons c content ih =>
    rw [escaped, List.flatMap_cons]
    split
    · next h =>
      refine .escape ?_ ih
      obtain rfl | rfl := h <;> simp [escapes]
    · next h => exact .plain (fun hq => h (.inl hq)) (fun hb => h (.inr hb)) ih

lemma separate_of_blank {cs : List Char} (h : ∀ c ∈ cs.head?, isBlank c) : Separate cs := by
  intro c hc
  have hb := h c hc
  refine ⟨?_, ?_, ?_⟩
  · cases hl : isLetter c with
    | false => rfl
    | true => simp [not_blank_of_letter hl] at hb
  · cases hd : c.isDigit with
    | false => rfl
    | true => simp [not_blank_of_digit hd] at hb
  · rintro rfl
    cases hb

lemma head_of_blanks {w : String} (hne : w ≠ "") (hb : ∀ c ∈ w.toList, isBlank c) (cs : List Char) :
    ∀ c ∈ (w.toList ++ cs).head?, isBlank c := by
  intro c hc
  rw [List.head?_append_of_ne_nil _ (by simpa using hne)] at hc
  exact hb c (List.mem_of_mem_head? hc)

lemma not_blank_of_completion {t : Token} {c : Char} (h : c ∈ t.completion?) : isBlank c = false := by
  revert h
  fun_cases Token.completion? t <;> rintro ⟨⟩ <;> rfl

namespace Munch

lemma of_rendering {t : Token} {rest : List Char} (h : t.WellFormed)
    (hr : ∀ c ∈ rest.head?, isBlank c) : Munch t.rendering.toList t rest := by
  have hs := separate_of_blank hr
  have hsymbol (ht : t.isSymbol) : Munch t.text.toList t rest := by
    refine .symbol ht fun c hc hh => ?_
    have hb := not_blank_of_completion hc
    rw [hr c hh] at hb
    cases hb
  cases t with
  | ident name => exact .name h fun c hc => (hs c hc).1
  | int digits =>
    have hi := Munch.int h fun c hc => (hs c hc).2
    rwa [String.ofList_toList] at hi
  | float text =>
    obtain ⟨ds, fs, hd, hf, rfl⟩ := h
    change Munch (String.ofList _).toList _ _
    rw [String.toList_ofList]
    exact .float hd hf fun c hc => (hs c hc).2.1
  | illegal text =>
    obtain ⟨c, hc, rfl⟩ | ⟨ds, hd, rfl⟩ := h
    · change Munch (String.singleton c).toList _ _
      rw [String.toList_singleton]
      exact .stray hc
    · change Munch (String.ofList _).toList _ _
      rw [String.toList_ofList]
      exact .pointed hd fun c hc => (hs c hc).2.1
  | string content =>
    have hm : Munch _ (.string (String.ofList content.toList)) rest :=
      .quoted (decodes_escaped content.toList)
    rwa [String.ofList_toList, ← String.toList_ofList (l := '"' :: _ ++ _)] at hm
  | keyword k => exact .keyword k fun c hc => (hs c hc).1
  | _ => exact hsymbol rfl

lemma wellFormed {l rest : List Char} {t : Token} (h : Munch l t rest) : t.WellFormed := by
  cases h with
  | symbol ht => cases t <;> trivial
  | name hw => exact hw
  | int hd => simpa [Token.WellFormed] using hd
  | float hd hf => exact ⟨_, _, hd, hf, rfl⟩
  | pointed hd => exact .inr ⟨_, hd, rfl⟩
  | stray hc => exact .inl ⟨_, hc, rfl⟩
  | keyword | quoted | unclosed | escaping => trivial

end Munch

lemma Segmented.wellFormed {cs : List Char} {ts : List Token} (h : Segmented cs ts) :
    ∀ t ∈ ts, t.WellFormed := by
  induction h with
  | blanks => simp
  | lexeme _ _ hm _ ih => exact List.forall_mem_cons.mpr ⟨hm.wellFormed, ih⟩

lemma isName_of_mem_lex {cs : List Char} {name : String} (h : .ident name ∈ lex cs) : isName name :=
  (Segmented.of_lex cs).wellFormed _ h

lemma lex_rendered {gap : Nat → String} (hgap : ∀ n, gap n ≠ "" ∧ ∀ c ∈ (gap n).toList, isBlank c)
    {ts : List Token} (h : ∀ t ∈ ts, t.WellFormed) : lex (rendered gap ts).toList = ts := by
  induction ts with
  | nil => exact lex_nil
  | cons t ts ih =>
    obtain ⟨ht, hts⟩ := List.forall_mem_cons.mp h
    cases ts with
    | nil =>
      have hm : Munch t.rendering.toList t [] := .of_rendering ht (by simp)
      have hl := hm.lex_eq
      rwa [List.append_nil, lex_nil] at hl
    | cons u ts =>
      obtain ⟨hne, hb⟩ := hgap (ts.length + 1)
      have hm : Munch t.rendering.toList t ((gap (ts.length + 1)).toList ++ _) :=
        .of_rendering ht (head_of_blanks hne hb (rendered gap (u :: ts)).toList)
      rw [rendered, String.toList_append, String.toList_append, List.append_assoc, List.length_cons,
        hm.lex_eq, lex_blanks hb, ih hts]
      simp

theorem tokenize_rendered {gap : Nat → String}
    (hgap : ∀ n, gap n ≠ "" ∧ ∀ c ∈ (gap n).toList, isBlank c) :
    (∀ ts, (∀ t ∈ ts, t.WellFormed) → tokenize (rendered gap ts) = ts) ∧
      ∀ source, (∀ t ∈ tokenize source, t.WellFormed) ∧
        tokenize (rendered gap (tokenize source)) = tokenize source := by
  have hread (ts : List Token) (h : ∀ t ∈ ts, t.WellFormed) : tokenize (rendered gap ts) = ts :=
    lex_rendered hgap h
  refine ⟨hread, fun source => ?_⟩
  have hw := (Segmented.of_lex source.toList).wellFormed
  exact ⟨hw, hread _ hw⟩

def mixedGap (n : Nat) : String := if n = 1 then "\n" else " \t"

/-- The tokens of `x := "a\"\\" 1. @ <= 0.5`. -/
def mixedTokens : List Token :=
  [.ident "x", .bind, .string "a\"\\", .illegal "1.", .illegal "@", .op .le, .float "0.5"]

lemma mixedGap_blank (n : Nat) : mixedGap n ≠ "" ∧ ∀ c ∈ (mixedGap n).toList, isBlank c := by
  unfold mixedGap
  split <;> simp [isBlank]

lemma stray_at : Stray '@' := by
  refine ⟨by decide, by decide, by decide, by decide, fun t ht => ?_⟩
  cases t with
  | op o => cases o <;> decide
  | ident | int | float | string | illegal | keyword => cases ht
  | _ => decide

lemma wellFormed_mixedTokens : ∀ t ∈ mixedTokens, t.WellFormed := by
  simp only [mixedTokens, List.forall_mem_cons, List.not_mem_nil, false_imp_iff, implies_true, and_true]
  have hd {c : Char} (hc : c.isDigit) : Digits [c] := ⟨List.cons_ne_nil c [], by simpa using hc⟩
  exact ⟨rfl, trivial, trivial, .inr ⟨['1'], hd rfl, rfl⟩, .inl ⟨'@', stray_at, rfl⟩, trivial,
    ['0'], ['5'], hd rfl, hd rfl, rfl⟩

theorem tokenize_rendered_mixed :
    (∀ n, mixedGap n ≠ "" ∧ ∀ c ∈ (mixedGap n).toList, isBlank c) ∧
      (∀ t ∈ mixedTokens, t.WellFormed) ∧ tokenize (rendered mixedGap mixedTokens) = mixedTokens :=
  ⟨mixedGap_blank, wellFormed_mixedTokens,
    (tokenize_rendered mixedGap_blank).1 mixedTokens wellFormed_mixedTokens⟩

end Nut
