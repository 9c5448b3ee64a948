import Mathlib
import Nut.Syntax.Tree
import Nut.Syntax.Token

/-! The grammar, as the token lists that a tree may be written with. -/

namespace Nut

def PrefixOp.token : PrefixOp → Token
  | .not => .bang
  | .neg => .op .sub

def separated (separator : Token) : List (List Token) → List Token
  | [] => []
  | [ts] => ts
  | ts :: tss => ts ++ separator :: separated separator tss

lemma separated_cons (separator : Token) (ts : List Token) (tss : List (List Token)) :
    separated separator (ts :: tss) =
      ts ++ if tss.isEmpty then [] else separator :: separated separator tss := by
  cases tss <;> simp [separated]

def Stmt.isLoop : Stmt → Bool
  | .loop .. => true
  | _ => false

inductive Phrase where
  | expr (e : Expr)
  | elements (es : List Expr)
  | pairs (pairs : List (Expr × Expr))
  | stmt (s : Stmt)
  | body (ss : List Stmt)

def Terminator (w : List Token) : Prop :=
  w = [] ∨ w = [.semicolon]

inductive Yields : Phrase → List Token → Prop
  | ident (name : String) : Yields (.expr (.ident name)) [.ident name]
  | int {digits : String} {n : Int64} : n.toInt = Nat.ofDigitChars 10 digits.toList 0 →
      Yields (.expr (.int n)) [.int digits]
  /-- The rest is the point and the digits behind it. -/
  | float {whole rest : List Char} : (∀ c ∈ whole, c.isDigit) → (∀ c ∈ rest.head?, ¬c.isDigit) →
      Yields (.expr (.float (Float.ofScientific (Nat.ofDigitChars 10 (whole ++ rest.tail) 0) true
        rest.tail.length))) [.float (String.ofList (whole ++ rest))]
  | string (content : String) : Yields (.expr (.string content)) [.string content]
  | truth : Yields (.expr (.bool true)) [.keyword .truth]
  | falsity : Yields (.expr (.bool false)) [.keyword .falsity]
  | paren {e u} : Yields (.expr e) u → Yields (.expr e) (.lparen :: u ++ [.rparen])
  | array {es u} : Yields (.elements es) u → Yields (.expr (.array es)) (.lbracket :: u ++ [.rbracket])
  | hash {pairs u} : Yields (.pairs pairs) u → Yields (.expr (.hash pairs)) (.lbrace :: u ++ [.rbrace])
  | prefixOp {e u} (op : PrefixOp) : Yields (.expr e) u →
      Yields (.expr (.prefixOp op e)) (op.token :: u)
  | infixOp {l r u v} (o : InfixOp) : Yields (.expr l) u → Yields (.expr r) v →
      Yields (.expr (.infixOp l o r)) (u ++ .op o :: v)
  | assign {name e u v} : Yields (.expr (.ident name)) u → Yields (.expr e) v →
      Yields (.expr (.assign name e)) (u ++ .assign :: v)
  | condOnce {c a u v} : Yields (.expr c) u → Yields (.body a) v →
      Yields (.expr (.cond c a none))
        (.keyword .condition :: .lparen :: u ++ .rparen :: .lbrace :: v ++ [.rbrace])
  | condBoth {c a b u v w} : Yields (.expr c) u → Yields (.body a) v → Yields (.body b) w →
      Yields (.expr (.cond c a (some b)))
        (.keyword .condition :: .lparen :: u ++ .rparen :: .lbrace :: v ++
          .rbrace :: .keyword .otherwise :: .lbrace :: w ++ [.rbrace])
  | function {body v} (names : List String) : Yields (.body body) v →
      Yields (.expr (.function names body))
        (.keyword .function :: .lparen :: separated .comma (names.map ([.ident ·])) ++
          .rparen :: .lbrace :: v ++ [.rbrace])
  | call {f es u v} : Yields (.expr f) u → Yields (.elements es) v →
      Yields (.expr (.call f es)) (u ++ .lparen :: v ++ [.rparen])
  | index {e i u v} : Yields (.expr e) u → Yields (.expr i) v →
      Yields (.expr (.index e i)) (u ++ .lbracket :: v ++ [.rbracket])
  | noElement : Yields (.elements []) []
  | lastElement {e u} : Yields (.expr e) u → Yields (.elements [e]) u
  | element {e es u v} : Yields (.expr e) u → es ≠ [] → Yields (.elements es) v →
      Yields (.elements (e :: es)) (u ++ .comma :: v)
  | noPair : Yields (.pairs []) []
  | lastPair {k e u v} : Yields (.expr k) u → Yields (.expr e) v →
      Yields (.pairs [(k, e)]) (u ++ .colon :: v)
  /-- With no pair after it, the comma is the optional one. -/
  | pair {k e pairs u v w} : Yields (.expr k) u → Yields (.expr e) v → Yields (.pairs pairs) w →
      Yields (.pairs ((k, e) :: pairs)) (u ++ .colon :: v ++ .comma :: w)
  | declare {e u w} (name : String) : Yields (.expr e) u → Terminator w →
      Yields (.stmt (.declare name e)) (.keyword .binding :: .ident name :: .assign :: u ++ w)
  | bind {e u w} (name : String) : Yields (.expr e) u → Terminator w →
      Yields (.stmt (.declare name e)) (.ident name :: .bind :: u ++ w)
  | result {e u w} : Yields (.expr e) u → Terminator w →
      Yields (.stmt (.result e)) (.keyword .result :: u ++ w)
  | expr {e u w} : Yields (.expr e) u → Terminator w → Yields (.stmt (.expr e)) (u ++ w)
  | block {ss u w} : ss ≠ [] → Yields (.body ss) u → Terminator w →
      Yields (.stmt (.block ss)) (.lbrace :: u ++ .rbrace :: w)
  /-- The initializer brings the first semicolon. -/
  | loop {i c p b u v w x} : Yields (.stmt i) (u ++ [.semicolon]) → Yields (.expr c) v →
      Yields (.stmt p) w → Yields (.body b) x →
      Yields (.stmt (.loop i c p b))
        (.keyword .loop :: .lparen :: u ++ .semicolon :: v ++ .semicolon :: w ++
          .rparen :: .lbrace :: x ++ [.rbrace])
  | nil : Yields (.body []) []
  | cons {s ss u v} : Yields (.stmt s) u → Yields (.body ss) v → Yields (.body (s :: ss)) (u ++ v)

end Nut
