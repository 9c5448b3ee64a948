import Nut.Syntax.Operator

/-! Tokens and the keyword table. -/

namespace Nut

inductive Keyword where
  | function
  | binding
  | truth
  | falsity
  | condition
  | otherwise
  | result
  | loop
  deriving DecidableEq

namespace Keyword

def text : Keyword → String
  | function => "fn"
  | binding => "let"
  | truth => "true"
  | falsity => "false"
  | condition => "if"
  | otherwise => "else"
  | result => "return"
  | loop => "for"

def all : List Keyword :=
  [function, binding, truth, falsity, condition, otherwise, result, loop]

def ofWord? (word : String) : Option Keyword :=
  all.find? fun k => k.text == word

theorem mem_all (k : Keyword) : k ∈ all := by
  cases k <;> decide

theorem text_of_ofWord? {word : String} {k : Keyword} (h : ofWord? word = some k) :
    k.text = word := by
  simpa using List.find?_some h

theorem ofWord?_text (k : Keyword) : ofWord? k.text = some k := by
  cases k <;> decide

end Keyword

inductive Token where
  | ident (name : String)
  | int (digits : String)
  | float (digits : String)
  | string (content : String)
  | illegal (text : String)
  | keyword (k : Keyword)
  | op (o : InfixOp)
  | bang
  | assign
  | bind
  | comma
  | semicolon
  | colon
  | lparen
  | rparen
  | lbrace
  | rbrace
  | lbracket
  | rbracket
  deriving DecidableEq

namespace Token

def ofWord (word : String) : Token :=
  match Keyword.ofWord? word with
  | some k => .keyword k
  | none => .ident word

/-- The text shown for a token. String content is put between quotes as it is, without
escaping, so the text of a string token need not lex back to it. -/
def text : Token → String
  | ident name => name
  | int digits => digits
  | float digits => digits
  | string content => "\"" ++ content ++ "\""
  | illegal text => text
  | keyword k => k.text
  | op o => o.text
  | bang => "!"
  | assign => "="
  | bind => ":="
  | comma => ","
  | semicolon => ";"
  | colon => ":"
  | lparen => "("
  | rparen => ")"
  | lbrace => "\x7b"
  | rbrace => "\x7d"
  | lbracket => "["
  | rbracket => "]"

theorem text_ofWord (word : String) : (ofWord word).text = word := by
  unfold ofWord
  split
  · next h => exact Keyword.text_of_ofWord? h
  · rfl

end Token

end Nut
