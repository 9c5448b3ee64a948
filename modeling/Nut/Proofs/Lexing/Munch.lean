import Nut.Proofs.Lexing.Spelling

/-! A text is made of blanks and lexemes, each of them the longest where it stands, and its tokens are
what its lexemes stand for. -/

namespace Nut

open Lexeme

namespace Token

def isSymbol : Token → Bool
  | ident _ | int _ | float _ | string _ | illegal _ | keyword _ => false
  | _ => true

/-- The character that would make another symbol of this one. -/
def completion? : Token → Option Char
  | .assign | .bang | .colon | .op .lt | .op .gt => some '='
  | .op .bitAnd => some '&'
  | .op .bitOr => some '|'
  | _ => none

end Token

def Digits (ds : List Char) : Prop :=
  ds ≠ [] ∧ ∀ c ∈ ds, c.isDigit

/-- No lexeme of another kind starts with the character. -/
structure Stray (c : Char) : Prop where
  not_blank : isBlank c = false
  not_letter : isLetter c = false
  not_digit : c.isDigit = false
  not_quote : c ≠ '"'
  no_symbol : ∀ t : Token, t.isSymbol → t.text.toList.head? ≠ some c

def escapes : List (Char × Char) :=
  [('"', '"'), ('n', '\n'), ('r', '\r'), ('t', '\t'), ('\\', '\\')]

/-- A body in which every quote is escaped, and the content that it stands for. -/
inductive Decodes : List Char → List Char → Prop
  | nil : Decodes [] []
  | plain {c body content} : c ≠ '"' → c ≠ '\\' → Decodes body content →
      Decodes (c :: body) (c :: content)
  | escape {c d body content} : (c, d) ∈ escapes → Decodes body content →
      Decodes ('\\' :: c :: body) (d :: content)
  | unknown {c body content} : (∀ d, (c, d) ∉ escapes) → Decodes body content →
      Decodes ('\\' :: c :: body) ('\\' :: c :: content)

/-- In front of `rest`, the lexeme ends where it does and stands for the token. -/
inductive Munch : List Char → Token → List Char → Prop
  | symbol {t rest} : t.isSymbol → (∀ c ∈ t.completion?, rest.head? ≠ some c) →
      Munch t.text.toList t rest
  | keyword {rest} (k : Keyword) : (∀ c ∈ rest.head?, isLetter c = false) →
      Munch k.text.toList (.keyword k) rest
  | name {word rest} : isName word → (∀ c ∈ rest.head?, isLetter c = false) →
      Munch word.toList (.ident word) rest
  | int {ds rest} : Digits ds → (∀ c ∈ rest.head?, c.isDigit = false ∧ c ≠ '.') →
      Munch ds (.int (String.ofList ds)) rest
  | float {ds fs rest} : Digits ds → Digits fs → (∀ c ∈ rest.head?, c.isDigit = false) →
      Munch (ds ++ '.' :: fs) (.float (String.ofList (ds ++ '.' :: fs))) rest
  | pointed {ds rest} : Digits ds → (∀ c ∈ rest.head?, c.isDigit = false) →
      Munch (ds ++ ['.']) (.illegal (String.ofList (ds ++ ['.']))) rest
  | quoted {body content rest} : Decodes body content →
      Munch ('"' :: body ++ ['"']) (.string (String.ofList content)) rest
  | unclosed {body content} : Decodes body content →
      Munch ('"' :: body) (.string (String.ofList content)) []
  -- A backslash at the end of the text has nothing to escape.
  | escaping {body content} : Decodes body content →
      Munch ('"' :: body ++ ['\\']) (.string (String.ofList (content ++ ['\\']))) []
  | stray {c rest} : Stray c → Munch [c] (.illegal (String.singleton c)) rest

/-- Blanks and lexemes in turn, with blanks at both ends, and the tokens of the lexemes. -/
inductive Segmented : List Char → List Token → Prop
  | blanks {w} : (∀ c ∈ w, isBlank c) → Segmented w []
  | lexeme {w l rest t ts} : (∀ c ∈ w, isBlank c) → l ≠ [] → Munch l t rest → Segmented rest ts →
      Segmented (w ++ l ++ rest) (t :: ts)

lemma Digits.takeWhile {c : Char} (hc : c.isDigit) (cs : List Char) :
    Digits (c :: cs.takeWhile Char.isDigit) := by
  refine ⟨List.cons_ne_nil _ _, fun d hd => ?_⟩
  obtain rfl | hd := List.mem_cons.mp hd
  · exact hc
  · exact List.mem_takeWhile_imp hd

lemma head_dropWhile {p : Char → Bool} (cs : List Char) : ∀ c ∈ (cs.dropWhile p).head?, p c = false := by
  intro c hc
  simpa [Option.mem_def.mp hc] using List.head?_dropWhile_not p cs

lemma unescape_of_mem {c d : Char} (h : (c, d) ∈ escapes) : unescape c = [d] := by
  simp only [escapes, List.mem_cons, Prod.mk.injEq, List.not_mem_nil, or_false] at h
  obtain ⟨rfl, rfl⟩ | ⟨rfl, rfl⟩ | ⟨rfl, rfl⟩ | ⟨rfl, rfl⟩ | ⟨rfl, rfl⟩ := h <;> rfl

lemma unescape_of_not_mem {c : Char} (h : ∀ d, (c, d) ∉ escapes) : unescape c = ['\\', c] := by
  fun_cases unescape c with
  | case1 => exact absurd (by simp [escapes]) (h '"')
  | case2 => exact absurd (by simp [escapes]) (h '\n')
  | case3 => exact absurd (by simp [escapes]) (h '\r')
  | case4 => exact absurd (by simp [escapes]) (h '\t')
  | case5 => exact absurd (by simp [escapes]) (h '\\')
  | case6 => rfl

namespace Decodes

lemma quoted_append {body content : List Char} (h : Decodes body content) (cs : List Char) :
    quoted (body ++ cs) = (content ++ (quoted cs).1, (quoted cs).2) := by
  induction h with
  | nil => rfl
  | plain hq hb _ ih =>
    rw [List.cons_append, quoted.eq_5 _ _ hq (fun h _ => hb h) (fun _ _ h _ => hb h), ih]
    rfl
  | escape hc _ ih =>
    rw [List.cons_append, List.cons_append, quoted, ih, unescape_of_mem hc]
    rfl
  | unknown hc _ ih =>
    rw [List.cons_append, List.cons_append, quoted, ih, unescape_of_not_mem hc]
    rfl

lemma escaped {body content : List Char} (c : Char) (h : Decodes body content) :
    Decodes ('\\' :: c :: body) (unescape c ++ content) := by
  by_cases hc : ∃ d, (c, d) ∈ escapes
  · obtain ⟨d, hd⟩ := hc
    rw [unescape_of_mem hd]
    exact .escape hd h
  · have hn : ∀ d, (c, d) ∉ escapes := fun d hd => hc ⟨d, hd⟩
    rw [unescape_of_not_mem hn]
    exact .unknown hn h

lemma of_plain {s : List Char} (h : ∀ c ∈ s, c ≠ '"' ∧ c ≠ '\\') : Decodes s s := by
  induction s with
  | nil => exact .nil
  | cons c s ih =>
    obtain ⟨⟨hq, hb⟩, hs⟩ := List.forall_mem_cons.mp h
    exact .plain hq hb (ih hs)

end Decodes

lemma quoted_cases (cs : List Char) : ∃ body content, Decodes body content ∧
    (cs = body ++ '"' :: (quoted cs).2 ∧ (quoted cs).1 = content ∨
      cs = body ∧ quoted cs = (content, []) ∨
      cs = body ++ ['\\'] ∧ quoted cs = (content ++ ['\\'], [])) := by
  -- A literal ends by a quote, or with the text, behind a backslash or not.
  fun_induction quoted cs with
  | case1 => exact ⟨[], [], .nil, .inr (.inl ⟨rfl, rfl⟩)⟩
  | case2 rest => exact ⟨[], [], .nil, .inl ⟨rfl, rfl⟩⟩
  | case3 => exact ⟨[], [], .nil, .inr (.inr ⟨rfl, rfl⟩)⟩
  | case4 c rest ih =>
    obtain ⟨body, content, hd, h⟩ := ih
    refine ⟨'\\' :: c :: body, unescape c ++ content, hd.escaped c, ?_⟩
    obtain ⟨hr, hc⟩ | ⟨hr, hc⟩ | ⟨hr, hc⟩ := h
    · exact .inl ⟨by rw [List.cons_append, List.cons_append, ← hr], by rw [hc]⟩
    · exact .inr (.inl ⟨by rw [hr], by rw [hc]⟩)
    · exact .inr (.inr ⟨by rw [List.cons_append, List.cons_append, ← hr],
        by rw [hc, List.append_assoc]⟩)
  | case5 c rest hq hb hbs ih =>
    have hc : c ≠ '\\' := by
      rintro rfl
      cases rest with
      | nil => exact hb rfl rfl
      | cons d rest => exact hbs d rest rfl rfl
    obtain ⟨body, content, hd, h⟩ := ih
    refine ⟨c :: body, c :: content, .plain hq hc hd, ?_⟩
    obtain ⟨hr, hs⟩ | ⟨hr, hs⟩ | ⟨hr, hs⟩ := h
    · exact .inl ⟨by rw [List.cons_append, ← hr], by rw [hs]⟩
    · exact .inr (.inl ⟨by rw [hr], by rw [hs]⟩)
    · exact .inr (.inr ⟨by rw [List.cons_append, ← hr], by rw [hs]; rfl⟩)

lemma paired_single {d : Char} {s t : Token} {cs : List Char} (h : cs.head? ≠ some d) :
    paired d s t cs = (s, cs) := by
  fun_cases paired d s t cs with
  | case1 => rfl
  | case2 => exact absurd rfl h
  | case3 => rfl

lemma word_first {w rest : List Char} (hw : w ≠ []) (hl : ∀ c ∈ w, isLetter c)
    (hr : ∀ c ∈ rest.head?, isLetter c = false) :
    ∃ c cs, w = c :: cs ∧ isBlank c = false ∧
      first c (cs ++ rest) = (.ofWord (String.ofList w), rest) := by
  cases w with
  | nil => exact absurd rfl hw
  | cons c cs =>
    obtain ⟨hc, hcs⟩ := List.forall_mem_cons.mp hl
    obtain ⟨ht, hd⟩ := takeWhile_of_head hr
    refine ⟨c, cs, rfl, not_blank_of_letter hc, ?_⟩
    rw [first_letter _ hc, List.takeWhile_append_of_pos hcs, List.dropWhile_append_of_pos hcs, ht, hd,
      List.append_nil]

lemma digits_first {ds rest : List Char} (h : Digits ds) (hr : ∀ c ∈ rest.head?, c.isDigit = false) :
    ∃ c cs, ds = c :: cs ∧ isBlank c = false ∧ first c (cs ++ rest) = number ds rest := by
  obtain ⟨hne, hd⟩ := h
  cases ds with
  | nil => exact absurd rfl hne
  | cons c cs =>
    obtain ⟨hc, hcs⟩ := List.forall_mem_cons.mp hd
    obtain ⟨ht, hd⟩ := takeWhile_of_head hr
    refine ⟨c, cs, rfl, not_blank_of_digit hc, ?_⟩
    rw [first_digit _ hc, List.takeWhile_append_of_pos hcs, List.dropWhile_append_of_pos hcs, ht, hd,
      List.append_nil]

lemma head_point (cs : List Char) : ∀ c ∈ ('.' :: cs).head?, c.isDigit = false := by
  rintro c ⟨⟩
  rfl

lemma number_float {ds fs rest : List Char} (h : Digits fs)
    (hr : ∀ c ∈ rest.head?, c.isDigit = false) :
    number ds ('.' :: (fs ++ rest)) = (.float (String.ofList (ds ++ '.' :: fs)), rest) := by
  obtain ⟨hne, hf⟩ := h
  obtain ⟨ht, hd⟩ := takeWhile_of_head hr
  have hh : (fs ++ rest).head?.any Char.isDigit := by
    cases fs with
    | nil => exact absurd rfl hne
    | cons f fs => exact hf f (.head _)
  rw [number, if_pos hh, List.takeWhile_append_of_pos hf, List.dropWhile_append_of_pos hf, ht, hd,
    List.append_nil]

lemma number_pointed {ds rest : List Char} (hr : ∀ c ∈ rest.head?, c.isDigit = false) :
    number ds ('.' :: rest) = (.illegal (String.ofList (ds ++ ['.'])), rest) := by
  rw [number, if_neg]
  cases rest with
  | nil => exact Bool.false_ne_true
  | cons c rest => simpa using hr

lemma first_stray {c : Char} (h : Stray c) (cs : List Char) :
    first c cs = (.illegal (String.singleton c), cs) := by
  have hs := h.no_symbol
  unfold first
  split
  · exact absurd rfl (hs .assign rfl)
  · exact absurd rfl (hs .bang rfl)
  · exact absurd rfl (hs (.op .lt) rfl)
  · exact absurd rfl (hs (.op .gt) rfl)
  · exact absurd rfl (hs (.op .bitAnd) rfl)
  · exact absurd rfl (hs (.op .bitOr) rfl)
  · exact absurd rfl (hs .colon rfl)
  · exact absurd rfl (hs (.op .add) rfl)
  · exact absurd rfl (hs (.op .sub) rfl)
  · exact absurd rfl (hs (.op .mul) rfl)
  · exact absurd rfl (hs (.op .div) rfl)
  · exact absurd rfl (hs (.op .mod) rfl)
  · exact absurd rfl (hs .semicolon rfl)
  · exact absurd rfl (hs .comma rfl)
  · exact absurd rfl (hs .lparen rfl)
  · exact absurd rfl (hs .rparen rfl)
  · exact absurd rfl (hs .lbrace rfl)
  · exact absurd rfl (hs .rbrace rfl)
  · exact absurd rfl (hs .lbracket rfl)
  · exact absurd rfl (hs .rbracket rfl)
  · exact absurd rfl h.not_quote
  · simp [h.not_digit, h.not_letter]

namespace Munch

lemma first_eq {l rest : List Char} {t : Token} (h : Munch l t rest) :
    ∃ c cs, l = c :: cs ∧ isBlank c = false ∧ first c (cs ++ rest) = (t, rest) := by
  cases h with
  | symbol ht hc =>
    cases t with
    | ident | int | float | string | illegal | keyword => cases ht
    | bang | assign | colon => exact ⟨_, _, rfl, rfl, paired_single (hc _ rfl)⟩
    | op o =>
      cases o with
      | lt | gt | bitAnd | bitOr => exact ⟨_, _, rfl, rfl, paired_single (hc _ rfl)⟩
      | _ => exact ⟨_, _, rfl, rfl, rfl⟩
    | _ => exact ⟨_, _, rfl, rfl, rfl⟩
  | keyword k hr =>
    have hk : k.text.toList ≠ [] ∧ k.text.toList.all isLetter := by
      cases k <;> decide
    have hw := word_first hk.1 (List.all_eq_true.mp hk.2) hr
    rwa [String.ofList_toList, ofWord_keyword] at hw
  | @name word _ hn hr =>
    have hw := word_first (letters_of_isName hn).1 (letters_of_isName hn).2 hr
    rwa [String.ofList_toList, ofWord_of_isName hn] at hw
  | int hd hr =>
    obtain ⟨c, cs, hl, hb, hf⟩ := digits_first hd fun c hc => (hr c hc).1
    refine ⟨c, cs, hl, hb, ?_⟩
    rw [hf, number.eq_2]
    rintro after rfl
    exact (hr '.' rfl).2 rfl
  | @float ds fs rest hd hf hr =>
    obtain ⟨c, cs, rfl, hb, hn⟩ := digits_first hd (head_point (fs ++ rest))
    refine ⟨c, cs ++ '.' :: fs, rfl, hb, ?_⟩
    rw [List.append_assoc, List.cons_append, hn, number_float hf hr]
  | @pointed ds rest hd hr =>
    obtain ⟨c, cs, rfl, hb, hn⟩ := digits_first hd (head_point rest)
    refine ⟨c, cs ++ ['.'], rfl, hb, ?_⟩
    rw [List.append_assoc, List.singleton_append, hn, number_pointed hr]
  | @quoted body content rest hd =>
    refine ⟨'"', body ++ ['"'], rfl, rfl, ?_⟩
    rw [List.append_assoc, first, hd.quoted_append]
    simp [Lexeme.quoted]
  | @unclosed body content hd =>
    refine ⟨'"', body, rfl, rfl, ?_⟩
    rw [first, hd.quoted_append]
    simp [Lexeme.quoted]
  | @escaping body content hd =>
    refine ⟨'"', body ++ ['\\'], rfl, rfl, ?_⟩
    rw [List.append_assoc, first, hd.quoted_append]
    simp [Lexeme.quoted]
  | stray hc => exact ⟨_, [], rfl, hc.not_blank, first_stray hc _⟩

lemma lex_eq {l rest : List Char} {t : Token} (h : Munch l t rest) :
    lex (l ++ rest) = t :: lex rest := by
  obtain ⟨c, cs, rfl, hb, hf⟩ := h.first_eq
  rw [List.cons_append, lex_cons _ hb, hf]

lemma of_symbol {t : Token} {c : Char} (cs : List Char) (ht : t.isSymbol)
    (hc : t.completion? = none) (htext : t.text.toList = [c]) :
    ∃ l, c :: cs = l ++ (t, cs).2 ∧ Munch l (t, cs).1 (t, cs).2 := by
  refine ⟨[c], rfl, htext ▸ .symbol ht ?_⟩
  simp [hc]

lemma of_paired {s t : Token} {c d : Char} (cs : List Char) (hs : s.isSymbol) (ht : t.isSymbol)
    (hsd : s.completion? = some d) (htd : t.completion? = none) (hstext : s.text.toList = [c])
    (httext : t.text.toList = [c, d]) :
    ∃ l, c :: cs = l ++ (paired d s t cs).2 ∧ Munch l (paired d s t cs).1 (paired d s t cs).2 := by
  by_cases hd : cs.head? = some d
  · obtain ⟨rest, rfl⟩ := List.head?_eq_some_iff.mp hd
    rw [paired, if_pos rfl]
    refine ⟨[c, d], rfl, httext ▸ .symbol ht ?_⟩
    simp [htd]
  · rw [paired_single hd]
    refine ⟨[c], rfl, hstext ▸ .symbol hs ?_⟩
    simpa [hsd] using hd

lemma of_word {w rest : List Char} (hw : w ≠ []) (hl : ∀ c ∈ w, isLetter c)
    (hr : ∀ c ∈ rest.head?, isLetter c = false) : Munch w (.ofWord (String.ofList w)) rest := by
  cases ht : Keyword.ofWord? (String.ofList w) with
  | some k =>
    have hk : k.text.toList = w := by rw [Keyword.text_of_ofWord? ht, String.toList_ofList]
    rw [← hk, String.ofList_toList, ofWord_keyword]
    exact .keyword k hr
  | none =>
    have ho : Token.ofWord (String.ofList w) = .ident (String.ofList w) := by rw [Token.ofWord, ht]
    have hm := Munch.name (isName_of_ofWord hw hl ho) hr
    rwa [String.toList_ofList, ← ho] at hm

lemma of_number {ds rest : List Char} (hd : Digits ds) (hr : ∀ c ∈ rest.head?, c.isDigit = false) :
    ∃ l, ds ++ rest = l ++ (number ds rest).2 ∧ Munch l (number ds rest).1 (number ds rest).2 := by
  fun_cases number ds rest with
  | case1 after ha =>
    have hf : Digits (after.takeWhile Char.isDigit) := by
      cases after with
      | nil => cases ha
      | cons c after =>
        have hc : c.isDigit := ha
        rw [List.takeWhile_cons_of_pos hc]
        exact Digits.takeWhile hc after
    refine ⟨_, ?_, .float hd hf (head_dropWhile after)⟩
    rw [List.append_assoc, List.cons_append, List.takeWhile_append_dropWhile]
  | case2 after ha =>
    refine ⟨_, ?_, .pointed hd fun c hc => ?_⟩
    · rw [List.append_assoc, List.singleton_append]
    · rw [Option.mem_def.mp hc] at ha
      simpa using ha
  | case3 =>
    refine ⟨ds, rfl, .int hd fun c hc => ⟨hr c hc, ?_⟩⟩
    rintro rfl
    obtain ⟨after, hrest⟩ := List.head?_eq_some_iff.mp hc
    exact absurd hrest (‹∀ after, rest = '.' :: after → False› after)

lemma of_quoted (cs : List Char) : ∃ l, '"' :: cs = l ++ (Lexeme.quoted cs).2 ∧
    Munch l (.string (String.ofList (Lexeme.quoted cs).1)) (Lexeme.quoted cs).2 := by
  obtain ⟨body, content, hd, ⟨hcs, hc⟩ | ⟨hcs, hc⟩ | ⟨hcs, hc⟩⟩ := quoted_cases cs
  · exact ⟨'"' :: body ++ ['"'], by simpa using hcs, hc ▸ .quoted hd⟩
  · exact ⟨'"' :: body, by simp [hc, ← hcs], hc ▸ .unclosed hd⟩
  · exact ⟨'"' :: body ++ ['\\'], by simp [hc, ← hcs], hc ▸ .escaping hd⟩

lemma of_first {c : Char} (cs : List Char) (hb : isBlank c = false) :
    ∃ l, c :: cs = l ++ (first c cs).2 ∧ Munch l (first c cs).1 (first c cs).2 := by
  by_cases hl : isLetter c
  · rw [first_letter cs hl]
    refine ⟨_, ?_, of_word (List.cons_ne_nil c _) ?_ (head_dropWhile cs)⟩
    · rw [List.cons_append, List.takeWhile_append_dropWhile]
    · exact List.forall_mem_cons.mpr ⟨hl, fun d hd => List.mem_takeWhile_imp hd⟩
  by_cases hd : c.isDigit
  · rw [first_digit cs hd]
    have hn := of_number (Digits.takeWhile hd cs) (head_dropWhile cs)
    rwa [List.cons_append, List.takeWhile_append_dropWhile] at hn
  by_cases hs : Stray c
  · rw [first_stray hs]
    exact ⟨[c], rfl, .stray hs⟩
  unfold first
  split
  iterate 7 exact of_paired cs rfl rfl rfl rfl rfl rfl
  iterate 13 exact of_symbol cs rfl rfl rfl
  · exact of_quoted cs
  · refine absurd ⟨hb, by simpa using hl, by simpa using hd, ‹_›, ?_⟩ hs
    rintro t ht hc
    replace hc := hc.symm
    cases t with
    | op o => cases o <;> simp_all [Token.text, InfixOp.text]
    | _ => simp_all [Token.text, Token.isSymbol]

end Munch

lemma lex_blanks {w : List Char} (hw : ∀ c ∈ w, isBlank c) (cs : List Char) :
    lex (w ++ cs) = lex cs := by
  induction w with
  | nil => rfl
  | cons c w ih =>
    obtain ⟨hc, hw⟩ := List.forall_mem_cons.mp hw
    rw [List.cons_append, lex_blank _ hc, ih hw]

namespace Segmented

lemma lex_eq {cs : List Char} {ts : List Token} (h : Segmented cs ts) : lex cs = ts := by
  induction h with
  | @blanks w hw =>
    have hl := lex_blanks hw []
    rwa [List.append_nil, lex_nil] at hl
  | lexeme hw _ hl _ ih => rw [List.append_assoc, lex_blanks hw, hl.lex_eq, ih]

lemma of_lex (cs : List Char) : Segmented cs (lex cs) := by
  fun_induction lex cs with
  | case1 cs hd => exact .blanks (by simpa using hd)
  | case2 cs c rest hd _ ih =>
    have hb : isBlank c = false := head_dropWhile cs c (by rw [hd]; rfl)
    obtain ⟨l, hl, hm⟩ := Munch.of_first rest hb
    have hcs : cs = cs.takeWhile isBlank ++ l ++ (first c rest).2 := by
      rw [List.append_assoc, ← hl, ← hd, List.takeWhile_append_dropWhile]
    have hw : ∀ d ∈ cs.takeWhile isBlank, isBlank d := fun d hd => List.mem_takeWhile_imp hd
    obtain ⟨d, ds, rfl, -⟩ := hm.first_eq
    have hs := Segmented.lexeme hw (List.cons_ne_nil d ds) hm ih
    rwa [← hcs] at hs

end Segmented

theorem tokenize_iff_segmented {source : String} {ts : List Token} :
    tokenize source = ts ↔ Segmented source.toList ts :=
  ⟨fun h => h ▸ Segmented.of_lex source.toList, Segmented.lex_eq⟩

end Nut
