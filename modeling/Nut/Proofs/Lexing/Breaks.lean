import Nut.Proofs.Lexing.Rendering
import Nut.Proofs.Lexing.Seams

/-! Blanks part a text in two that are read apart, unless they stand inside a string literal. -/

namespace Nut

open Lexeme

inductive Quoting where
  | outside | inside | escaping
  deriving DecidableEq

namespace Quoting

def next : Quoting → Char → Quoting
  | outside, c => if c = '"' then inside else outside
  | inside, c => if c = '"' then outside else if c = '\\' then escaping else inside
  | escaping, _ => inside

def after (q : Quoting) (cs : List Char) : Quoting := cs.foldl next q

lemma after_append (q : Quoting) (cs ds : List Char) : q.after (cs ++ ds) = (q.after cs).after ds :=
  List.foldl_append

lemma after_cons (q : Quoting) (c : Char) (cs : List Char) : q.after (c :: cs) = (q.next c).after cs :=
  rfl

lemma after_outside {cs : List Char} (h : '"' ∉ cs) : outside.after cs = outside := by
  induction cs with
  | nil => rfl
  | cons c cs ih =>
    obtain ⟨hc, hcs⟩ := not_or.mp (List.mem_cons.not.mp h)
    rw [after_cons, next, if_neg (Ne.symm hc), ih hcs]

end Quoting

/-- The last string literal of the text has no closing quote. A quote behind a backslash closes
none. -/
def EndsInString (source : String) : Prop := Quoting.outside.after source.toList ≠ .outside

instance (source : String) : Decidable (EndsInString source) := inferInstanceAs (Decidable (_ ≠ _))

/-- A string literal at the end of a text, without its closing quote, and its content. -/
inductive Unclosed : List Char → List Char → Prop
  | literal {body content} : Decodes body content → Unclosed ('"' :: body) content
  | backslash {body content} : Decodes body content →
      Unclosed ('"' :: body ++ ['\\']) (content ++ ['\\'])

lemma quote_not_mem {p : Char → Bool} {cs : List Char} (h : ∀ c ∈ cs, p c) (hq : p '"' = false) :
    '"' ∉ cs := by
  intro hm
  rw [h _ hm] at hq
  cases hq

lemma after_blanks {w : List Char} (hw : ∀ c ∈ w, isBlank c) :
    Quoting.outside.after w = .outside :=
  Quoting.after_outside (quote_not_mem hw rfl)

lemma unescape_of_blank {c : Char} (h : isBlank c) : unescape c = ['\\', c] := by
  refine unescape_of_not_mem fun d hd => ?_
  simp only [escapes, List.mem_cons, Prod.mk.injEq, List.not_mem_nil, or_false] at hd
  obtain ⟨rfl, -⟩ | ⟨rfl, -⟩ | ⟨rfl, -⟩ | ⟨rfl, -⟩ | ⟨rfl, -⟩ := hd <;> cases h

lemma lex_quote (cs : List Char) :
    lex ('"' :: cs) = .string (String.ofList (quoted cs).1) :: lex (quoted cs).2 :=
  lex_cons cs rfl

namespace Decodes

variable {body content : List Char}

lemma of_blanks {w : List Char} (hw : ∀ c ∈ w, isBlank c) : Decodes w w := by
  refine .of_plain fun c hc => ⟨?_, ?_⟩
  · rintro rfl
    cases hw _ hc
  · rintro rfl
    cases hw _ hc

lemma after_inside (h : Decodes body content) : Quoting.inside.after body = .inside := by
  induction h with
  | nil => rfl
  | plain hq hb _ ih => rw [Quoting.after_cons, Quoting.next, if_neg hq, if_neg hb, ih]
  | escape _ _ ih | unknown _ _ ih => exact ih

lemma after_opened (h : Decodes body content) : Quoting.outside.after ('"' :: body) = .inside :=
  h.after_inside

end Decodes

namespace Unclosed

variable {l content w : List Char}

lemma after_ne (h : Unclosed l content) : Quoting.outside.after l ≠ .outside := by
  cases h with
  | literal hd =>
    rw [hd.after_opened]
    exact nofun
  | backslash hd =>
    rw [Quoting.after_append, hd.after_opened]
    exact nofun

lemma lex_append (h : Unclosed l content) (hne : w ≠ []) (hw : ∀ c ∈ w, isBlank c) (cs : List Char) :
    lex (l ++ (w ++ cs)) =
      .string (String.ofList (content ++ w ++ (quoted cs).1)) :: lex (quoted cs).2 := by
  cases h with
  | literal hd =>
    rw [List.cons_append, lex_quote, hd.quoted_append, (Decodes.of_blanks hw).quoted_append,
      List.append_assoc]
  | @backslash body content hd =>
    obtain ⟨b, w, rfl⟩ := List.exists_cons_of_ne_nil hne
    obtain ⟨hb, hw⟩ := List.forall_mem_cons.mp hw
    -- The backslash stays, as it does in front of every character that it does not escape.
    have hquoted : quoted ('\\' :: b :: (w ++ cs)) = ('\\' :: b :: w ++ (quoted cs).1, (quoted cs).2) := by
      rw [quoted, unescape_of_blank hb, (Decodes.of_blanks hw).quoted_append]
      simp
    rw [List.cons_append, List.cons_append, lex_quote, List.append_assoc, hd.quoted_append]
    simp [hquoted]

end Unclosed

namespace Munch

variable {l rest more : List Char} {t : Token}

lemma closed_or_unclosed (h : Munch l t rest) : Quoting.outside.after l = .outside ∨
    rest = [] ∧ ∃ content, Unclosed l content ∧ t = .string (String.ofList content) := by
  have hpoint {ds : List Char} (hd : Digits ds) : '"' ∉ ds ++ ['.'] := by
    simpa using quote_not_mem hd.2 rfl
  cases h with
  | symbol ht =>
    refine .inl (Quoting.after_outside ?_)
    cases t with
    | op o => cases o <;> decide
    | ident | int | float | string | illegal | keyword => cases ht
    | _ => decide
  | keyword k =>
    refine .inl (Quoting.after_outside ?_)
    cases k <;> decide
  | name hn => exact .inl (Quoting.after_outside (quote_not_mem (letters_of_isName hn).2 rfl))
  | int hd => exact .inl (Quoting.after_outside (quote_not_mem hd.2 rfl))
  | @float ds fs _ hd hf =>
    refine .inl (Quoting.after_outside ?_)
    rw [List.append_cons]
    exact List.not_mem_append (hpoint hd) (quote_not_mem hf.2 rfl)
  | pointed hd => exact .inl (Quoting.after_outside (hpoint hd))
  | quoted hd =>
    refine .inl ?_
    rw [Quoting.after_append, hd.after_opened]
    rfl
  | unclosed hd => exact .inr ⟨rfl, _, .literal hd, rfl⟩
  | escaping hd => exact .inr ⟨rfl, _, .backslash hd, rfl⟩
  | stray hc => exact .inl (Quoting.after_outside (by simpa using hc.not_quote.symm))

lemma before_blank (h : Munch l t []) (hc : Quoting.outside.after l = .outside)
    (hm : ∀ c ∈ more.head?, isBlank c) : Munch l t more := by
  have hs := separate_of_blank hm
  cases h with
  | symbol ht =>
    refine .symbol ht fun c hc hh => ?_
    have hb := not_blank_of_completion hc
    rw [hm c hh] at hb
    cases hb
  | keyword k => exact .keyword k fun c hc => (hs c hc).1
  | name hn => exact .name hn fun c hc => (hs c hc).1
  | int hd => exact .int hd fun c hc => (hs c hc).2
  | float hd hf => exact .float hd hf fun c hc => (hs c hc).2.1
  | pointed hd => exact .pointed hd fun c hc => (hs c hc).2.1
  | quoted hd => exact .quoted hd
  | unclosed hd => exact absurd hc (Unclosed.literal hd).after_ne
  | escaping hd => exact absurd hc (Unclosed.backslash hd).after_ne
  | stray hs => exact .stray hs

end Munch

namespace Segmented

variable {cs more w : List Char} {ts us : List Token}

lemma after_lexeme {l rest : List Char} (hw : ∀ c ∈ w, isBlank c)
    (hl : Quoting.outside.after l = .outside) :
    Quoting.outside.after (w ++ l ++ rest) = Quoting.outside.after rest := by
  rw [Quoting.after_append, Quoting.after_append, after_blanks hw, hl]

lemma append_of_outside (h : Segmented cs ts) (hc : Quoting.outside.after cs = .outside)
    (hm : ∀ c ∈ more.head?, isBlank c) (hus : Segmented more us) :
    Segmented (cs ++ more) (ts ++ us) := by
  induction h with
  | blanks hw => exact hus.blanks_append hw
  | @lexeme w l rest t ts hw hne hu _ ih =>
    obtain hl | ⟨rfl, content, hl, -⟩ := hu.closed_or_unclosed
    · rw [after_lexeme hw hl] at hc
      rw [List.append_assoc]
      refine .lexeme hw hne ?_ (ih hc)
      by_cases hrest : rest = []
      · subst hrest
        exact hu.before_blank hl hm
      · exact hu.append hrest more
    · rw [List.append_nil, Quoting.after_append, after_blanks hw] at hc
      exact absurd hc hl.after_ne

lemma lex_append_of_inside (h : Segmented cs ts) (hc : Quoting.outside.after cs ≠ .outside) :
    ∃ us content, ts = us ++ [.string (String.ofList content)] ∧
      ∀ w, w ≠ [] → (∀ c ∈ w, isBlank c) → ∀ more, lex (cs ++ (w ++ more)) =
        us ++ .string (String.ofList (content ++ w ++ (quoted more).1)) :: lex (quoted more).2 := by
  induction h with
  | blanks hw => exact absurd (after_blanks hw) hc
  | @lexeme v l rest t ts hv hne hu hr ih =>
    obtain hl | ⟨rfl, content, hl, rfl⟩ := hu.closed_or_unclosed
    · rw [after_lexeme hv hl] at hc
      obtain ⟨us, content, rfl, hlex⟩ := ih hc
      refine ⟨t :: us, content, rfl, fun w hwne hw more => ?_⟩
      have hrest : rest ≠ [] := by
        rintro rfl
        exact hc rfl
      rw [List.append_assoc, List.append_assoc, lex_blanks hv, (hu.append hrest _).lex_eq,
        hlex w hwne hw more]
      rfl
    · refine ⟨[], content, ?_, fun w hwne hw more => ?_⟩
      · rw [← hr.lex_eq, lex_nil]
        rfl
      · rw [List.append_nil, List.append_assoc, lex_blanks hv, hl.lex_append hwne hw]
        rfl

end Segmented

theorem tokenize_append_blanks (A B : String) {w : String} (hne : w ≠ "")
    (hw : ∀ c ∈ w.toList, isBlank c) :
    (¬EndsInString A → tokenize (A ++ w ++ B) = tokenize A ++ tokenize B) ∧
      (∀ t ∈ (tokenize A).getLast?, t.isSolid → tokenize (A ++ B) = tokenize A ++ tokenize B) ∧
      (EndsInString A → ∃ ts s c us, tokenize A = ts ++ [.string s] ∧
        tokenize ("\"" ++ B) = .string c :: us ∧
        tokenize (A ++ w ++ B) = ts ++ .string (s ++ w ++ c) :: us) := by
  have hcut := Segmented.of_lex A.toList
  refine ⟨fun h => ?_, fun t ht hsolid => tokenize_append ht hsolid, fun h => ?_⟩
  · have hB := (Segmented.of_lex B.toList).blanks_append hw
    have hs := hcut.append_of_outside (not_not.mp h) (head_of_blanks hne hw B.toList) hB
    rw [← List.append_assoc, ← String.toList_append, ← String.toList_append] at hs
    exact hs.lex_eq
  · obtain ⟨ts, content, hts, hlex⟩ := hcut.lex_append_of_inside h
    refine ⟨ts, .ofList content, .ofList (quoted B.toList).1, lex (quoted B.toList).2, hts, ?_, ?_⟩
    · rw [tokenize, String.toList_append]
      exact lex_quote B.toList
    · have hwne : w.toList ≠ [] := by simpa using hne
      rw [tokenize, String.toList_append, String.toList_append, List.append_assoc,
        hlex w.toList hwne hw B.toList]
      simp only [String.ofList_append, String.ofList_toList]

theorem tokenize_append_blanks_openLiteral :
    let A := "x := \"a\\"
    let B := "b\" ;"
    " " ≠ "" ∧ (∀ c ∈ " ".toList, isBlank c) ∧ EndsInString A ∧ ¬EndsInString "\"\\\"\" x :" ∧
      tokenize A = [.ident "x", .bind, .string "a\\"] ∧
      tokenize (A ++ " " ++ B) = [.ident "x", .bind, .string "a\\ b", .semicolon] ∧
      tokenize ("\"\\\"\" x :" ++ " " ++ "= 1") = tokenize "\"\\\"\" x :" ++ tokenize "= 1" ∧
      tokenize ("f(" ++ "2.5") = tokenize "f(" ++ tokenize "2.5" := by
  intro A B
  have hne : " " ≠ "" := by decide
  have hw : ∀ c ∈ " ".toList, isBlank c := by simp [isBlank]
  have hinside : EndsInString A := by decide
  have houtside : ¬EndsInString "\"\\\"\" x :" := by decide
  have hA : tokenize A = [.ident "x", .bind] ++ [.string "a\\"] := by cbv
  have hB : tokenize ("\"" ++ B) = [.string "b", .semicolon] := by cbv
  have hlast : (tokenize "f(").getLast? = some .lparen := by cbv
  obtain ⟨ts, s, c, us, hA', hB', hAB⟩ := (tokenize_append_blanks A B hne hw).2.2 hinside
  obtain ⟨rfl, hs⟩ := List.append_inj' (hA.symm.trans hA') rfl
  obtain ⟨hc, rfl⟩ := List.cons.inj (hB.symm.trans hB')
  obtain rfl : "a\\" = s := by simpa using hs
  obtain rfl : "b" = c := by simpa using hc
  exact ⟨hne, hw, hinside, houtside, hA, hAB, (tokenize_append_blanks _ _ hne hw).1 houtside,
    (tokenize_append_blanks _ _ hne hw).2.1 _ hlast rfl⟩

end Nut
