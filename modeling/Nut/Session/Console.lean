import Nut.Session.Answer
import Nut.Text.Pieces

/-! The interactive session, in which every line is a text of its own. -/

namespace Nut.Console

def greeting : String :=
  "Hello! This is the Nut programming language!\nFeel free to type in commands\n"

def prompt : String := ">> "

def banner : String :=
  "\n      ___\n    /     \\\n   | () () |\n    \\  ^  /\n     |||||\n"

def complaint (lines : List String) : String :=
  banner ++ "\nWoops! That one was a tough nut to crack!\n" ++
    String.join (lines.map fun line => line ++ "\n")

def reply (arrangement : Arrangement) : Verdict → String
  | .value v => v.text arrangement ++ "\n"
  | .fault f => complaint ["eval error: " ++ f.message]
  | .rejected errors => complaint (errors.map fun e => "parse error: " ++ e.message)
  | .unfinished => ""

def write (state : State) (text : String) : State :=
  { state with output := state.output ++ text }

def enter (steps : Nat) (state : State) (line : String) : State :=
  let (verdict, after) := run steps 0 line state
  write after (reply after.host.arrangement verdict)

/-- Lines with their endings; the last one may have none. -/
def lines : List Char → List (List Char)
  | [] => []
  | '\n' :: cs => ['\n'] :: lines cs
  | c :: cs => Pieces.onHead c (lines cs)

/-- The prompt is shown before every line, and once more at the end of the input. -/
def session (steps : Nat) (state : State) (input : String) : State :=
  ((lines input.toList).map String.ofList).foldl
    (fun state line => write (enter steps state line) prompt)
    (write state (greeting ++ prompt))

end Nut.Console
