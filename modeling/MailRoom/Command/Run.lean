import MailRoom.Command.Arguments
import MailRoom.Command.Disk
import MailRoom.Level.Catalog
import MailRoom.Level.Document
import MailRoom.ParseError.Diagnostic
import MailRoom.Replay

/-! The command line: plays a program on a level and reports how it went. -/
namespace MailRoom.Command

/-- What the command line runs on: the disk, for how many tiles there is memory, and how deep
documents are followed. The calls in progress take a few of the levels, which are not told apart. -/
structure Host where
  disk : Disk
  room : Nat
  depth : Nat

structure Transcript where
  exit : Nat
  stdout : Text
  stderr : Text

inductive Escape where
  | value (message : String)
  | undecodable
  | unread (failure : ReadFailure)
  /-- There is no program argument to take as a text or as a path. -/
  | noProgram (literal : Bool)
  /-- There is no number where a number of steps is asked for. -/
  | noLimit
  /-- A level file is nested deeper than is followed. -/
  | tooDeep
  | replay (error : Level.ReplayError)

inductive LoadFailure where
  | level (error : LevelError)
  | escaped (escape : Escape)

/-- Why there is nothing to play: a report to the user, or an escape. -/
inductive Refusal where
  | reported (message : Text)
  | escaped (escape : Escape)

def report (message : String) : Refusal := .reported (.ofString message)

def decode (bytes : ByteArray) : Except Escape String :=
  match String.fromUTF8? bytes with
  | some text => .ok text
  | none => .error .undecodable

def loadLevel (host : Host) (path : String) : Except LoadFailure Level := do
  match host.disk path with
  | .error .zeroInPath => throw (.escaped (.value FileProblem.zeroInPath.reason))
  | .error problem => throw (.level (.unreadable path (problem.message path)))
  | .ok bytes =>
    let text ← (decode bytes).mapError .escaped
    (Level.ofText host.depth path (.ofString text)).mapError fun
      | .level error => .level error
      | .numeral error => .escaped (.value error.message)
      | .tooDeep => .escaped .tooDeep

/-- A row of digits is the number of a built-in level, anything else a path. -/
def findLevel (host : Host) (argument : String) : Except LoadFailure Level := do
  if !argument.isEmpty && argument.toList.all isDigitLike then
    let number ← (Numeral.read (.ofString argument)).mapError fun error =>
      .escaped (.value error.message)
    (Level.builtin number).mapError .level
  else loadLevel host argument

/-- The text of the program and the name it goes by. -/
def findProgram (disk : Disk) (arguments : Arguments) : Except Refusal (String × String) := do
  match arguments.program, arguments.literal with
  | none, literal => throw (.escaped (.noProgram literal))
  | some text, true => return (text, "<string>")
  | some path, false =>
    match disk path with
    | .error .zeroInPath => throw (.escaped (.value FileProblem.zeroInPath.reason))
    | .error problem => throw (report ("Failed to read " ++ path ++ ": " ++ problem.message path))
    | .ok bytes =>
      let text ← (decode bytes).mapError .escaped
      return (String.ofList (Line.normalize text.toList), path)

def parse (text file : String) : Except Refusal Program :=
  (Program.parse file text .standard).mapError fun
    | .rejected error => report ((Diagnostic.ofError error).report text)
    | failure => .escaped (.unread failure)

/-- The number of steps to play under, if one is given; it has to be positive. -/
def findLimit : LimitArgument → Except Refusal (Option Int)
  | .absent => .ok none
  | .empty => .error (.escaped .noLimit)
  | .steps limit =>
    if limit ≤ 0 then .error (report "--step-limit must be positive") else .ok (some limit)

def traceLines (arguments : Arguments) (played : Report) : List String :=
  match played.error with
  | none => []
  | some incident =>
    Trace.text played.log Trace.standardDepth incident arguments.verbose ::
      if arguments.tracebackJson then [Trace.json played.log Trace.standardDepth incident] else []

def play (host : Host) (arguments : Arguments) : Except Refusal Transcript := do
  let level ← (findLevel host arguments.level).mapError fun
    | .level error => .reported (Text.ofString "LevelError: " ++ error.message)
    | .escaped escape => .escaped escape
  let (text, file) ← findProgram host.disk arguments
  let program ← parse text file
  let limit ← findLimit arguments.limit
  let machine ← (level.machine program arguments.verbose limit).mapError fun error =>
    .escaped (.value error.message)
  let played ← (level.replay host.room machine .empty).2.mapError fun error =>
    .escaped (.replay error)
  return {
    exit := if played.passed then 0 else 1
    stdout := .ofString (played.summary ++ "\n")
    stderr := .ofString (String.join ((traceLines arguments played).map (· ++ "\n"))) }

/-- What is printed, and the exit code; a refusal that is reported ends with code one. -/
def run (host : Host) (arguments : Arguments) : Except Escape Transcript :=
  match play host arguments with
  | .ok transcript => .ok transcript
  | .error (.reported message) => .ok ⟨1, [], message ++ Text.ofString "\n"⟩
  | .error (.escaped escape) => .error escape

end MailRoom.Command
