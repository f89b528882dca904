import MailRoom.Program.Mnemonics
import MailRoom.Text.Line

/-! Writing a program as a save file. -/
namespace MailRoom.Program

def headerLine : String := "-- HUMAN RESOURCE MACHINE PROGRAM --"

def commentWord : String := "COMMENT"

/-- Labels that no marker shows, as markers after all others. -/
def unmarked (program : Program) : List Marker :=
  let shown := (program.markers.filter fun marker => marker.kind = .label).map Marker.value
  (program.labels.entries.filter fun (name, _) => !shown.contains name).map
    fun (name, index) => ⟨index, .label, name⟩

def allMarkers (program : Program) : List Marker := program.markers ++ program.unmarked

def markersAt (program : Program) (index : Nat) : List Marker :=
  program.allMarkers.filter fun marker => marker.index = index

def markerLine (marker : Marker) : String :=
  if marker.kind = .label then marker.value ++ ":"
  else "    " ++ commentWord ++ "  " ++ marker.value

def instructionLine (mnemonics : Mnemonics) (instruction : Instruction) :
    Except MissingSpelling String :=
  (instruction.describeWith mnemonics 8).map ("    " ++ ·)

def definitionLines (definition : Definition) : List String :=
  ["DEFINE " ++ definition.kind.name ++ " " ++ toString definition.number, definition.data ++ ";"]

/-- The lines of the instructions from an index on, each below its markers. -/
def codeLines (program : Program) (mnemonics : Mnemonics) (index : Nat) :
    List Instruction → Except MissingSpelling (List String)
  | [] => .ok ((program.markersAt index).map markerLine)
  | instruction :: rest => do
    let line ← instructionLine mnemonics instruction
    let below ← program.codeLines mnemonics (index + 1) rest
    return (program.markersAt index).map markerLine ++ line :: below

def format (program : Program) (mnemonics : Mnemonics) : Except MissingSpelling String := do
  let code ← program.codeLines mnemonics 0 program.instructions
  let drawings := if program.definitions.isEmpty then []
    else "" :: "" :: program.definitions.flatMap definitionLines
  return Line.unlines (headerLine :: "" :: code ++ drawings)

end MailRoom.Program
