import Nut.Session.Answer

/-! Running a file. -/

namespace Nut.Script

inductive Unreadable where
  | missing
  | forbidden
  | directory
  | notText
  | other (reason : String)

def Unreadable.message : Unreadable → String
  | missing => "No such file or directory (os error 2)"
  | forbidden => "Permission denied (os error 13)"
  | directory => "Is a directory (os error 21)"
  | notText => "stream did not contain valid UTF-8"
  | other reason => reason

structure Report where
  exit : UInt32
  stdout : String
  stderr : String

def ofBytes (bytes : ByteArray) : Except Unreadable String :=
  match String.fromUTF8? bytes with
  | some source => .ok source
  | none => .error .notText

def failure (reason : String) : String := "Error: " ++ reason ++ "\n"

def report (steps : Nat) (state : State) (name : String) (source : Except Unreadable String) :
    Report :=
  match source with
  | .error unreadable =>
    ⟨1, "", failure ("could not read " ++ name ++ "\n\nCaused by:\n    " ++ unreadable.message)⟩
  | .ok source =>
    let (verdict, after) := run steps 0 source state
    let errors := verdict.errors
    if errors.isEmpty then
      ⟨0, after.output ++ (Answer.ofVerdict verdict).text after.host.arrangement ++ "\n", ""⟩
    else
      ⟨1, after.output, String.join (errors.map fun e => e ++ "\n") ++
        failure (name ++ " failed with " ++ toString errors.length ++ " error(s)")⟩

end Nut.Script
