import MailRoom.Fault
import MailRoom.Json.Printer
import MailRoom.Trace.Log

/-! The trace of a failed run, as text and as a document. -/
namespace MailRoom.Trace

def errorName : String := "HRMRuntimeError"

def standardDepth : Int := 5

def placeText (incident : Incident) : String :=
  let parts :=
    (incident.instruction.map fun index => "instruction " ++ toString index).toList ++
      (incident.step.map fun step => "step " ++ toString step).toList
  if parts.isEmpty then "" else " (" ++ String.intercalate ", " parts ++ ")"

def floorText (tiles : List (Int × String)) : String :=
  if tiles.isEmpty then "<empty>"
  else String.intercalate ", " (tiles.map fun (tile, value) => toString tile ++ "=" ++ value)

def entryLines (verbose : Bool) (entry : Entry) : List String :=
  let line := match entry.location with
    | some location => ", line " ++ toString location.line
    | none => ""
  let statement := match entry.statement with
    | some statement => if statement.isEmpty then [] else ["    " ++ statement]
    | none => []
  let floor := match entry.floor with
    | some tiles => if verbose then ["    Floor: " ++ floorText tiles] else []
    | none => []
  ("  Step " ++ toString entry.step ++ " (" ++ entry.id ++ "), instruction " ++
      toString entry.instruction ++ line) ::
    statement ++ ["    Hands: " ++ entry.hands.getD "<empty>"] ++ floor

/-- The last steps of the log and the fault that ended them. -/
def text (log : Log) (depth : Int) (incident : Incident) (verbose : Bool) : String :=
  let entries := log.tail depth
  let steps :=
    if entries.isEmpty then ["  <no steps recorded>"] else entries.flatMap (entryLines verbose)
  String.intercalate "\n" <|
    "Trace (most recent step last):" :: steps ++
      [errorName ++ ": " ++ incident.text ++ placeText incident]

def entryJson (entry : Entry) : Json :=
  let location := match entry.location with
    | none => []
    | some location => [("source_location", Json.ofFields [
        ("file", .ofString location.file),
        ("line", .int location.line),
        ("statement", .ofString location.statement)])]
  let floor := match entry.floor with
    | none => []
    | some tiles => [("floor", Json.ofFields (tiles.map fun (tile, value) =>
        (toString tile, Json.ofString value)))]
  .ofFields <| [
    ("step_index", .int entry.step),
    ("state_id", .ofString entry.id),
    ("instruction_index", .int entry.instruction),
    ("rule", .ofString entry.rule),
    ("hands", .ofOption .ofString entry.hands)] ++ location ++ floor

def errorJson (incident : Incident) : Json :=
  .ofFields [
    ("type", .ofString errorName),
    ("kind", .ofString incident.fault.kind),
    ("message", .ofString incident.fault.message),
    ("instruction_index", .ofOption .int incident.instruction),
    ("failing_step_index", .ofOption .int incident.step)]

def json (log : Log) (depth : Int) (incident : Incident) : String :=
  (Json.ofFields [
    ("error", errorJson incident),
    ("trace", .array ((log.tail depth).map entryJson))]).indented 0

end MailRoom.Trace
