import Nut.Syntax.Text
import Nut.Syntax.Token

/-! Why a text is no program. -/

namespace Nut

inductive ParseError where
  | unexpectedEnd
  | expectedToken (wanted : Token) (found : Option Token)
  | expectedIdentifier (found : Option Token)
  | expectedParameter (found : Option Token)
  | expectedInitializerEnd (found : Option Token)
  | unclosedBlock
  | illegalToken (text : String)
  | noOperand (token : Token)
  | integerTooLarge (digits : String)
  | invalidTarget (target : Expr)

namespace ParseError

def foundText : Option Token → String
  | some t => t.text
  | none => "end of input"

def message : ParseError → String
  | unexpectedEnd => "unexpected end of input"
  | expectedToken wanted found =>
    "expected next token to be " ++ wanted.text ++ ", found " ++ foundText found
  | expectedIdentifier found => "expected identifier, found " ++ foundText found
  | expectedParameter found => "expected parameter name, found " ++ foundText found
  | expectedInitializerEnd found =>
    "expected ; after for-loop initializer, found " ++ foundText found
  | unclosedBlock => "expected \x7d, found end of input"
  | illegalToken text => "illegal token " ++ text
  | noOperand token => "no prefix parse function for " ++ token.text
  | integerTooLarge digits =>
    "could not parse " ++ digits ++ " as integer: number too large to fit in target type"
  | invalidTarget target => "invalid assignment target: " ++ target.text

end ParseError

end Nut
