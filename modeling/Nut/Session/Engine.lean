import Nut.Session.Answer

/-! Running texts for their texts. -/

namespace Nut.Engine

def run (steps : Nat) (source : String) (state : State) : Except String String × State :=
  let (verdict, after) := Nut.run steps 0 source state
  if verdict.errors.isEmpty then
    (.ok ((Answer.ofVerdict verdict).text after.host.arrangement), after)
  else
    (.error (join "\n" verdict.errors), after)

end Nut.Engine
