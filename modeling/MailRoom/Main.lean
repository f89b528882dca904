import MailRoom.Command.Run

/-! The program on real files. -/
namespace MailRoom.Command

def usage : String :=
  "usage: [-source] [-verbose] [--traceback-json] [--step-limit STEPS] LEVEL PROGRAM\n"

private def problemOf : IO.Error → FileProblem
  | .inappropriateType .. => .isDirectory
  | .permissionDenied .. => .noPermission
  | _ => .notFound

private def openFile (path : String) : IO (Except FileProblem ByteArray) := do
  try return .ok (← IO.FS.readBinFile path)
  catch problem => return .error (problemOf problem)

/-- A disk on which the given paths have been opened. -/
private def openAll : List String → IO Disk
  | [] => return fun _ => .error .notFound
  | path :: rest => do
    let content ← openFile path
    let others ← openAll rest
    return fun asked => if asked = path then content else others asked

/-- The text with a replacement character for each lone surrogate. -/
private def shown (text : Text) : String :=
  String.ofList (text.map fun point => point.char?.getD '\ufffd')

private def escapeText : Escape → String
  | .value message => message
  | .undecodable => "a file is not in UTF-8"
  | .unread failure => failure.message
  | .noProgram _ => "no program is given"
  | .noLimit => "no number of steps is given"
  | .tooDeep => "a level file is nested too deep"
  | .replay (.start (.size error)) => error.message?.getD "there is no memory for the floor"
  | .replay (.start (.tile fault)) => fault.message
  | .replay (.stop _) => "the run was cut short"

/-- The most tiles that a floor is given. -/
def room : Nat := 134217728

/-- The most arrays and objects of a document that are open at a time. -/
def depth : Nat := 990

def perform (arguments : Arguments) : IO UInt32 := do
  let disk ← openAll (arguments.level :: arguments.program.toList)
  match run ⟨disk, room, depth⟩ arguments with
  | .ok transcript =>
    (← IO.getStdout).putStr (shown transcript.stdout)
    (← IO.getStderr).putStr (shown transcript.stderr)
    return transcript.exit.toUInt32
  | .error escape =>
    (← IO.getStderr).putStrLn (escapeText escape)
    return 1

end MailRoom.Command

def main (texts : List String) : IO UInt32 :=
  match MailRoom.Command.Arguments.read texts with
  | .ok arguments => MailRoom.Command.perform arguments
  | .error .help => do
    (← IO.getStdout).putStr MailRoom.Command.usage
    return 0
  | .error .usage => do
    (← IO.getStderr).putStr MailRoom.Command.usage
    return 2
