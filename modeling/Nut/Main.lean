import Nut.Session.Console
import Nut.Session.Script

/-! The command line: a file to run, or an interactive session. -/

namespace Nut.Main

def flush (stdout : IO.FS.Stream) (state : State) : IO State := do
  stdout.putStr state.output
  stdout.flush
  return { state with output := "" }

partial def converse (stdin stdout : IO.FS.Stream) (state : State) : IO Unit := do
  let state ← flush stdout (Console.write state Console.prompt)
  let line ← stdin.getLine
  unless line.isEmpty do
    converse stdin stdout (Console.enter ample state line)

def read (name : String) : IO (Except Script.Unreadable String) := do
  try
    return Script.ofBytes (← IO.FS.readBinFile name)
  catch
    | .noFileOrDirectory .. => return .error .missing
    | .permissionDenied .. => return .error .forbidden
    | .inappropriateType .. => return .error .directory
    | e => return .error (.other (toString e))

def runFile (state : State) (name : String) : IO UInt32 := do
  let report := Script.report ample state name (← read name)
  (← IO.getStdout).putStr report.stdout
  (← IO.getStderr).putStr report.stderr
  return report.exit

end Nut.Main

open Nut Nut.Main in
def main (arguments : List String) : IO UInt32 := do
  let state := State.initial (← IO.rand 0 (Nat.pow 2 31))
  match arguments with
  | [] =>
    converse (← IO.getStdin) (← IO.getStdout) (Console.write state Console.greeting)
    return 0
  | ["run", name] => runFile state name
  | _ =>
    (← IO.getStderr).putStrLn "usage: nut [run FILE]"
    return 2
