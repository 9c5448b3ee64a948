import Nut.Syntax.Token

/-! Lexemes and the tokens of a text. Blanks separate lexemes, and each lexeme is the longest
one that starts at its first character. -/

namespace Nut

namespace Lexeme

def isBlank (c : Char) : Bool :=
  c == ' ' || c == '\t' || c == '\r' || c == '\n'

def isLetter (c : Char) : Bool :=
  c.isAlpha || c == '_'

/-- What a backslash and the character after it stand for; an unknown pair stands for itself. -/
def unescape : Char → List Char
  | '"' => ['"']
  | 'n' => ['\n']
  | 'r' => ['\r']
  | 't' => ['\t']
  | '\\' => ['\\']
  | c => ['\\', c]

/-- The content of a string literal whose opening quote is already read, and what follows its
closing quote. A literal without one extends to the end of the text. -/
def quoted : List Char → List Char × List Char
  | [] => ([], [])
  | '"' :: rest => ([], rest)
  | ['\\'] => (['\\'], [])
  | '\\' :: c :: rest => (unescape c ++ (quoted rest).1, (quoted rest).2)
  | c :: rest => (c :: (quoted rest).1, (quoted rest).2)

/-- A digit run is an integer literal; with a point and more digits it is a float literal, and
with a point alone it is no literal at all. -/
def number (digits rest : List Char) : Token × List Char :=
  match rest with
  | '.' :: after =>
    if after.head?.any Char.isDigit then
      (.float (String.ofList (digits ++ '.' :: after.takeWhile Char.isDigit)),
        after.dropWhile Char.isDigit)
    else
      (.illegal (String.ofList (digits ++ ['.'])), after)
  | _ => (.int (String.ofList digits), rest)

def paired (second : Char) (single double : Token) : List Char → Token × List Char
  | [] => (single, [])
  | c :: rest => if c = second then (double, rest) else (single, c :: rest)

def first (c : Char) (rest : List Char) : Token × List Char :=
  match c with
  | '=' => paired '=' .assign (.op .eq) rest
  | '!' => paired '=' .bang (.op .ne) rest
  | '<' => paired '=' (.op .lt) (.op .le) rest
  | '>' => paired '=' (.op .gt) (.op .ge) rest
  | '&' => paired '&' (.op .bitAnd) (.op .and) rest
  | '|' => paired '|' (.op .bitOr) (.op .or) rest
  | ':' => paired '=' .colon .bind rest
  | '+' => (.op .add, rest)
  | '-' => (.op .sub, rest)
  | '*' => (.op .mul, rest)
  | '/' => (.op .div, rest)
  | '%' => (.op .mod, rest)
  | ';' => (.semicolon, rest)
  | ',' => (.comma, rest)
  | '(' => (.lparen, rest)
  | ')' => (.rparen, rest)
  | '{' => (.lbrace, rest)
  | '}' => (.rbrace, rest)
  | '[' => (.lbracket, rest)
  | ']' => (.rbracket, rest)
  | '"' => (.string (String.ofList (quoted rest).1), (quoted rest).2)
  | c =>
    if c.isDigit then
      number (c :: rest.takeWhile Char.isDigit) (rest.dropWhile Char.isDigit)
    else if isLetter c then
      (.ofWord (String.ofList (c :: rest.takeWhile isLetter)), rest.dropWhile isLetter)
    else
      (.illegal (String.singleton c), rest)

theorem length_dropWhile_le (p : Char → Bool) (cs : List Char) :
    (cs.dropWhile p).length ≤ cs.length :=
  (List.dropWhile_sublist p).length_le

theorem length_quoted_le (cs : List Char) : (quoted cs).2.length ≤ cs.length := by
  fun_induction quoted cs <;> simp_all <;> omega

theorem length_paired_le (d : Char) (s t : Token) (cs : List Char) :
    (paired d s t cs).2.length ≤ cs.length := by
  fun_cases paired d s t cs <;> simp

theorem length_number_le (ds cs : List Char) : (number ds cs).2.length ≤ cs.length := by
  fun_cases number ds cs with
  | case1 after h =>
    have := length_dropWhile_le Char.isDigit after
    simp
    omega
  | case2 => simp
  | case3 => simp

theorem length_first_le (c : Char) (cs : List Char) : (first c cs).2.length ≤ cs.length := by
  have hq := length_quoted_le cs
  have hl := length_dropWhile_le isLetter cs
  have hd := length_dropWhile_le Char.isDigit cs
  have hn := length_number_le (c :: cs.takeWhile Char.isDigit) (cs.dropWhile Char.isDigit)
  unfold first
  split <;> try (first | exact length_paired_le _ _ _ _ | exact Nat.le_refl _ | exact hq)
  split
  · omega
  · split
    · exact hl
    · exact Nat.le_refl _

theorem length_first_lt {cs rest : List Char} {c : Char} (h : cs.dropWhile isBlank = c :: rest) :
    (first c rest).2.length < cs.length := by
  have hb := length_dropWhile_le isBlank cs
  have hf := length_first_le c rest
  rw [h, List.length_cons] at hb
  omega

end Lexeme

def lex (cs : List Char) : List Token :=
  match h : cs.dropWhile Lexeme.isBlank with
  | [] => []
  | c :: rest =>
    have := Lexeme.length_first_lt h
    (Lexeme.first c rest).1 :: lex (Lexeme.first c rest).2
termination_by cs.length

def tokenize (source : String) : List Token :=
  lex source.toList

end Nut
