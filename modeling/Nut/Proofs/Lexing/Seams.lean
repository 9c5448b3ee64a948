import Nut.Proofs.Lexing.Munch

/-! Two texts one behind the other. They are read apart where nothing of the second can continue
the last lexeme of the first. -/

namespace Nut

open Lexeme

/-- The lexeme is one character, whatever comes behind it. -/
def Token.isSolid : Token → Bool
  | .comma | .semicolon | .lparen | .rparen | .lbrace | .rbrace | .lbracket | .rbracket => true
  | _ => false

namespace Munch

variable {l rest : List Char} {t : Token}

lemma append (h : Munch l t rest) (hr : rest ≠ []) (more : List Char) : Munch l t (rest ++ more) := by
  have hh : (rest ++ more).head? = rest.head? := List.head?_append_of_ne_nil rest hr
  cases h with
  | symbol ht hc => exact .symbol ht (by rwa [hh])
  | keyword k hk => exact .keyword k (by rwa [hh])
  | name hw hn => exact .name hw (by rwa [hh])
  | int hd hn => exact .int hd (by rwa [hh])
  | float hd hf hn => exact .float hd hf (by rwa [hh])
  | pointed hd hn => exact .pointed hd (by rwa [hh])
  | quoted hd => exact .quoted hd
  | unclosed | escaping => exact absurd rfl hr
  | stray hc => exact .stray hc

lemma solid (h : Munch l t rest) (ht : t.isSolid) (more : List Char) : Munch l t more := by
  cases h with
  | symbol hs =>
    have hn : t.completion? = none := by
      cases t with
      | comma | semicolon | lparen | rparen | lbrace | rbrace | lbracket | rbracket => rfl
      | _ => cases ht
    exact .symbol hs (by simp [hn])
  | _ => cases ht

end Munch

namespace Segmented

variable {cs more w : List Char} {ts us : List Token} {t : Token}

lemma blanks_append (hw : ∀ c ∈ w, isBlank c) (h : Segmented cs ts) : Segmented (w ++ cs) ts := by
  cases h with
  | blanks hv => exact .blanks (List.forall_mem_append.mpr ⟨hw, hv⟩)
  | @lexeme v l rest t ts hv hne hl hr =>
    have hwv : ∀ c ∈ w ++ v, isBlank c := List.forall_mem_append.mpr ⟨hw, hv⟩
    simpa using Segmented.lexeme hwv hne hl hr

lemma append_of_solid (h : Segmented cs ts) (hl : ts.getLast? = some t) (ht : t.isSolid)
    (hm : Segmented more us) : Segmented (cs ++ more) (ts ++ us) := by
  -- Only the last lexeme meets the second text; the others have some of the first behind them.
  induction h with
  | blanks => cases hl
  | @lexeme w l rest u ts hw hne hu hr ih =>
    rw [List.append_assoc]
    by_cases hts : ts = []
    · subst hts
      obtain rfl : u = t := by simpa using hl
      cases hr with
      | blanks hv => exact .lexeme hw hne (hu.solid ht _) (hm.blanks_append hv)
    · have hrest : rest ≠ [] := by
        rintro rfl
        exact hts (hr.lex_eq.symm.trans lex_nil)
      rw [List.getLast?_cons_of_ne_nil hts] at hl
      exact .lexeme hw hne (hu.append hrest more) (ih hl)

end Segmented

lemma tokenize_append {A B : String} {t : Token} (h : (tokenize A).getLast? = some t)
    (ht : t.isSolid) : tokenize (A ++ B) = tokenize A ++ tokenize B := by
  have hs := (Segmented.of_lex A.toList).append_of_solid h ht (.of_lex B.toList)
  rw [← String.toList_append] at hs
  exact hs.lex_eq

end Nut
