import MailRoom.Json.Reader
import MailRoom.Level.Basic

/-! Reading a level from a document. A document that is nested deeper than is followed may still
make a level, unless a deep part of it has to be put into words. -/
namespace MailRoom.Level

def requiredFields : List String := ["inbox", "outbox", "floor_size", "number_bound", "step_limit"]

inductive DocumentError where
  | level (error : LevelError)
  /-- What is to be put into words is nested deeper than is followed. -/
  | tooDeep

namespace Document

abbrev Members := List (Text × Json)

/-- The error in the words of a level, if there are words for it. -/
def complaint (depth : Nat) (report : String → LevelError) (error : ValueError) : DocumentError :=
  match error.message depth with
  | some reason => .level (report reason)
  | none => .tooDeep

/-- One entry of the floor. A bad value is reported before a bad tile number. -/
def floorEntry (depth : Nat) (key : Text) (raw : Json) : Except DocumentError (Int × Value) := do
  let value ← (Value.ofJson raw).mapError (complaint depth (.floorTile key))
  let tile ← (Numeral.read key).mapError fun error => .level (.floorTile key error.message)
  return (tile, value)

/-- The floor in the order of its entries; a later entry for a tile takes the place of an
earlier one. -/
def floor (depth : Nat) (members : Members) : Except DocumentError (Table Int Value) :=
  match Json.field? "floor" members with
  | none => .ok .empty
  | some (.object entries) =>
    (entries.mapM fun (key, raw) => floorEntry depth key raw).map Table.ofList
  | some _ => .error (.level .floorNotObject)

def integer (members : Members) (field : String) : Except DocumentError Int :=
  match Json.field? field members with
  | some (.int value) => .ok value
  | _ => .error (.level (.notInteger field))

/-- A list of values, or a text in mixed notation. -/
def values (depth : Nat) (members : Members) (field : String) :
    Except DocumentError (List Value) :=
  match Json.field? field members with
  | some (.text mixed) => (Mixed.read mixed).mapError (complaint depth (.badValue field))
  | some (.array items) =>
    (items.mapM Value.ofJson).mapError (complaint depth (.badValue field))
  | _ => .error (.level (.notValues field))

def textOr (depth : Nat) (standard : Text) (members : Members) (field : String) :
    Except DocumentError Text :=
  match Json.field? field members with
  | none => .ok standard
  | some raw =>
    match raw.plain depth with
    | some text => .ok text
    | none => .error .tooDeep

end Document

def Draft.ofDocument (depth : Nat) (standardName : Text) (members : Document.Members) :
    Except DocumentError Draft :=
  let missing := requiredFields.filter fun field => (Json.field? field members).isNone
  if !missing.isEmpty then .error (.level (.missingFields missing))
  else do
    let floor ← Document.floor depth members
    let floorSize ← Document.integer members "floor_size"
    let numberBound ← Document.integer members "number_bound"
    let stepLimit ← Document.integer members "step_limit"
    let name ← Document.textOr depth standardName members "name"
    let inbox ← Document.values depth members "inbox"
    let expected ← Document.values depth members "outbox"
    let description ← Document.textOr depth [] members "description"
    return { name, description, inbox, expected, floor, floorSize, numberBound, stepLimit }

/-- The name of a level whose document does not come from a file. -/
def defaultName : Text := .ofString "<level>"

def ofDocument (depth : Nat) (standardName : Text) (members : Document.Members) :
    Except DocumentError Level := do
  (ofDraft (← Draft.ofDocument depth standardName members)).mapError .level

inductive ReadError where
  | level (error : LevelError)
  | numeral (error : NumeralError)
  | tooDeep

def ReadError.ofDocument : DocumentError → ReadError
  | .level error => .level error
  | .tooDeep => .tooDeep

def ofText (depth : Nat) (path : String) (source : Text) : Except ReadError Level :=
  match Json.read depth source with
  | .error (.malformed malformation place) =>
    .error (.level (.notJson path (malformation.report source place)))
  | .error (.numeral error) => .error (.numeral error)
  | .error .tooDeep => .error .tooDeep
  | .ok (.object members) => (ofDocument depth (.ofString path) members).mapError .ofDocument
  | .ok _ => .error (.level (.notObject path))

end MailRoom.Level
