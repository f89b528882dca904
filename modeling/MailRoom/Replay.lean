import MailRoom.Level.Basic
import MailRoom.Machine.Run
import MailRoom.Program.Reader
import MailRoom.Trace.Report

/-! Replays: a program run on a level and judged by what it put into the outbox. -/
namespace MailRoom

/-- Where two rows first differ; where one ends early, they differ at its end. -/
def firstMismatch : List Value → List Value → Option Nat
  | [], [] => none
  | produced :: rest, expected :: others =>
    if produced = expected then (firstMismatch rest others).map (· + 1) else some 0
  | _, _ => some 0

inductive Outcome where
  | matched
  | mismatched
  | runtimeError
  deriving DecidableEq, Repr

def Outcome.name : Outcome → String
  | matched => "MATCH"
  | mismatched => "MISMATCH"
  | runtimeError => "RUNTIME_ERROR"

structure Report where
  level : Text
  outbox : List Value
  expected : List Value
  steps : Nat
  mismatch : Option Nat
  error : Option Incident
  log : Log

namespace Report

def outcome (report : Report) : Outcome :=
  if report.error.isSome then .runtimeError
  else if report.mismatch.isSome then .mismatched
  else .matched

def passed (report : Report) : Bool := report.outcome = .matched

/-- Both went through without an error and in the same way. Two errors are never the same. -/
def agrees (report other : Report) : Bool :=
  report.error.isNone && other.error.isNone && report.level = other.level &&
    report.outbox = other.outbox && report.expected = other.expected &&
    report.steps = other.steps && report.mismatch = other.mismatch

def rowText (values : List Value) : String :=
  "[" ++ String.intercalate ", " (values.map Value.text) ++ "]"

def summary (report : Report) : String :=
  String.intercalate "\n" <|
    match report.error, report.mismatch with
    | some incident, _ => ["Program failed", incident.text]
    | none, none =>
      ["Program completed", "Output matched! (" ++ toString report.steps ++ " steps)"]
    | none, some index => [
        "Program completed",
        "Output did not match at index " ++ toString index,
        "Expected: " ++ rowText report.expected,
        "Got:      " ++ rowText report.outbox]

end Report

namespace Level

/-- The machine that plays a program on the level, under a step limit of its own if one is
given. -/
def machine (level : Level) (program : Program) (verbose : Bool) (stepLimit : Option Int) :
    Except ConfigError Machine :=
  (level.config stepLimit).map fun config =>
    { program, config, verbose, capacity := some Log.standardCapacity }

def judge (level : Level) (session : Session) (verdict : Verdict) : Report where
  level := level.name
  outbox := session.state.outbox
  expected := level.expected
  steps := verdict.steps
  mismatch :=
    if verdict.error.isSome then none else firstMismatch session.state.outbox level.expected
  error := verdict.error
  log := session.log

/-- Why a replay has no report. -/
inductive ReplayError where
  | start (error : LayoutError)
  | stop (stop : Stop)

/-- One run on a fresh state, before an audience that may have seen earlier ones. -/
def replay (level : Level) (room : Nat) (machine : Machine) (audience : Audience) :
    Audience × Except ReplayError Report :=
  match State.start room machine.config level.floor.entries level.inbox with
  | .error error => (audience, .error (.start error))
  | .ok state =>
    let (session, verdict) := (machine.session audience state).execute machine
    (session.audience, (verdict.map (level.judge session)).mapError .stop)

end Level

end MailRoom
