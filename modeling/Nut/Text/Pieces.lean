/-! Searching, splitting and trimming texts. -/

namespace Nut.Pieces

def onHead (c : Char) : List (List Char) → List (List Char)
  | [] => [[c]]
  | piece :: pieces => (c :: piece) :: pieces

/-- Splits behind the next `skip` characters at every occurrence of a separator, leftmost first.
The characters of an occurrence are skipped, so occurrences do not overlap. -/
def splitFrom (separator : List Char) : Nat → List Char → List (List Char)
  | _, [] => [[]]
  | skip + 1, _ :: cs => splitFrom separator skip cs
  | 0, c :: cs =>
    if separator.isPrefixOf (c :: cs) then
      [] :: splitFrom separator (separator.length - 1) cs
    else
      onHead c (splitFrom separator 0 cs)

def split (separator text : List Char) : List (List Char) :=
  if separator.isEmpty then text.map fun c => [c] else splitFrom separator 0 text

def occurs (part : List Char) : List Char → Bool
  | [] => part.isEmpty
  | c :: cs => part.isPrefixOf (c :: cs) || occurs part cs

def trimStart (cutset text : List Char) : List Char :=
  text.dropWhile cutset.contains

def trimEnd (cutset text : List Char) : List Char :=
  (text.reverse.dropWhile cutset.contains).reverse

def trim (cutset text : List Char) : List Char :=
  trimEnd cutset (trimStart cutset text)

end Nut.Pieces
