import Mathlib
import Nut.Syntax.Lexeme

/-! Lexemes in front of a text that does not continue them. -/

namespace Nut

open Lexeme

lemma lex_nil : lex [] = [] := by
  rw [lex]
  rfl

lemma lex_blank {c : Char} (cs : List Char) (h : isBlank c) : lex (c :: cs) = lex cs := by
  have hd : (c :: cs).dropWhile isBlank = cs.dropWhile isBlank := by simp [h]
  rw [lex, lex.eq_def cs]
  grind

lemma lex_cons {c : Char} (cs : List Char) (h : isBlank c = false) :
    lex (c :: cs) = (first c cs).1 :: lex (first c cs).2 := by
  rw [lex]
  split
  · next hd => simp [h] at hd
  · next d rest hd =>
    obtain ⟨rfl, rfl⟩ : c = d ∧ cs = rest := by simpa [h] using hd
    rfl

def isName (word : String) : Bool :=
  !word.toList.isEmpty && word.toList.all Lexeme.isLetter &&
    !(Keyword.all.map Keyword.text).contains word

lemma letters_of_isName {word : String} (h : isName word) :
    word.toList ≠ [] ∧ ∀ c ∈ word.toList, isLetter c := by
  simp only [isName, Bool.and_eq_true, Bool.not_eq_true', List.all_eq_true] at h
  exact ⟨by simpa using h.1.1, h.1.2⟩

lemma ofWord_of_isName {word : String} (h : isName word) : Token.ofWord word = .ident word := by
  have hnone : Keyword.ofWord? word = none := by
    cases ho : Keyword.ofWord? word with
    | none => rfl
    | some k =>
      have hm : word ∈ Keyword.all.map Keyword.text := by
        rw [← Keyword.text_of_ofWord? ho]
        exact List.mem_map_of_mem (Keyword.mem_all k)
      simp [isName, hm] at h
  rw [Token.ofWord, hnone]

lemma ofWord_keyword (k : Keyword) : Token.ofWord k.text = .keyword k := by
  rw [Token.ofWord, Keyword.ofWord?_text]

/-- A text that continues neither a word nor a number. -/
def Separate (cs : List Char) : Prop :=
  ∀ c ∈ cs.head?, isLetter c = false ∧ c.isDigit = false ∧ c ≠ '.'

lemma takeWhile_of_head {p : Char → Bool} {cs : List Char} (h : ∀ c ∈ cs.head?, p c = false) :
    cs.takeWhile p = [] ∧ cs.dropWhile p = cs := by
  cases cs with
  | nil => simp
  | cons c cs => simp [h c (by simp)]

lemma not_digit_of_letter {c : Char} (h : isLetter c) : c.isDigit = false := by
  by_cases hc : c = '_'
  · subst hc
    decide
  · simp only [isLetter, Char.isAlpha, Char.isUpper, Char.isLower, Char.isDigit] at h ⊢
    grind

lemma first_letter {c : Char} (cs : List Char) (h : isLetter c) :
    first c cs = (.ofWord (String.ofList (c :: cs.takeWhile isLetter)), cs.dropWhile isLetter) := by
  have hd := not_digit_of_letter h
  unfold first
  split <;> simp_all +decide [isLetter]

lemma first_digit {c : Char} (cs : List Char) (h : c.isDigit) :
    first c cs = number (c :: cs.takeWhile Char.isDigit) (cs.dropWhile Char.isDigit) := by
  unfold first
  split <;> simp_all +decide

lemma not_blank_of_letter {c : Char} (h : isLetter c) : isBlank c = false := by
  cases hb : isBlank c with
  | false => rfl
  | true =>
    simp only [isBlank, Bool.or_eq_true, beq_iff_eq] at hb
    obtain ((rfl | rfl) | rfl) | rfl := hb <;> simp +decide at h

lemma not_blank_of_digit {c : Char} (h : c.isDigit) : isBlank c = false := by
  cases hb : isBlank c with
  | false => rfl
  | true =>
    simp only [isBlank, Bool.or_eq_true, beq_iff_eq] at hb
    obtain ((rfl | rfl) | rfl) | rfl := hb <;> simp +decide at h

lemma isName_of_ofWord {cs : List Char} {name : String} (hne : cs ≠ []) (hl : ∀ c ∈ cs, isLetter c)
    (h : Token.ofWord (String.ofList cs) = .ident name) : isName name := by
  unfold Token.ofWord at h
  split at h
  · cases h
  · next hk =>
    cases h
    have hword : ∀ k : Keyword, k.text ≠ String.ofList cs := by
      rintro k hk'
      rw [← hk', Keyword.ofWord?_text] at hk
      cases hk
    simp_all [isName]

end Nut
