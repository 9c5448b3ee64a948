import Nut.Syntax.Text
import Nut.Value.Basic

/-! The text of a value. -/

namespace Nut

/-- An order for the entries of a hash to be shown in. It is not known which one. -/
structure Arrangement where
  order : Entries Key Value → List String → List String
  perm (entries : Entries Key Value) (texts : List String) : (order entries texts).Perm texts

namespace Arrangement

def asPut : Arrangement where
  order _ texts := texts
  perm _ _ := .refl _

theorem order_nil (a : Arrangement) (entries : Entries Key Value) : a.order entries [] = [] :=
  (a.perm entries []).eq_nil

theorem order_singleton (a : Arrangement) (entries : Entries Key Value) (text : String) :
    a.order entries [text] = [text] :=
  List.perm_singleton.mp (a.perm entries [text])

end Arrangement

def Key.text : Key → String
  | int n => integerText n
  | string s => s
  | bool b => boolText b

mutual

def Value.text (a : Arrangement) : Value → String
  | .int n => integerText n
  | .float x => floatText x
  | .string s => s
  | .bool b => boolText b
  | .null => "null"
  | .array elements => "[" ++ join ", " (Value.texts a elements) ++ "]"
  | .hash entries => braced (join ", " (a.order entries (Value.entryTexts a entries)))
  | .function parameters body _ =>
    "fn(" ++ join ", " parameters ++ ") " ++ blockText (Stmt.texts body)
  | .builtin b => "builtin function " ++ b.name

def Value.texts (a : Arrangement) : List Value → List String
  | [] => []
  | v :: vs => v.text a :: Value.texts a vs

def Value.entryTexts (a : Arrangement) : List (Key × Value) → List String
  | [] => []
  | (k, v) :: entries => (k.text ++ ": " ++ v.text a) :: Value.entryTexts a entries

end

theorem Value.text_array (a : Arrangement) (elements : List Value) :
    (array elements).text a = "[" ++ join ", " (texts a elements) ++ "]" := rfl

theorem Value.text_hash (a : Arrangement) (entries : Entries Key Value) :
    (hash entries).text a = braced (join ", " (a.order entries (entryTexts a entries))) := rfl

mutual

/-- No hash in the value has two entries, whose order would show. -/
def Value.orderFree : Value → Bool
  | .array elements => Value.allOrderFree elements
  | .hash [] => true
  | .hash [(_, v)] => v.orderFree
  | .hash _ => false
  | _ => true

def Value.allOrderFree : List Value → Bool
  | [] => true
  | v :: vs => v.orderFree && Value.allOrderFree vs

end

end Nut
