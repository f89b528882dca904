import MailRoom.Level.Mixed
import MailRoom.Machine.Config
import MailRoom.Table

/-! Levels: what lies in the inbox and on the floor, what is expected in the outbox, and the
limits. The limits make sense, and the values and tiles agree with them. -/
namespace MailRoom

/-- A number within the bound, or a letter. -/
def Value.isWithin (bound : Int) : Value → Bool
  | number value => -bound ≤ value.val && value.val ≤ bound
  | letter _ => true

/-- A number outside the bound. -/
def Value.excess? (bound : Int) : Value → Option Int
  | number value => if (number value).isWithin bound then none else some value.val
  | letter _ => none

theorem Value.excess?_eq_none {bound : Int} {value : Value} :
    value.excess? bound = none ↔ value.isWithin bound = true := by
  cases value <;> simp [excess?, isWithin]

structure Level.Draft where
  name : Text
  description : Text
  inbox : List Value
  expected : List Value
  floor : Table Int Value
  floorSize : Int
  numberBound : Int
  stepLimit : Int

def Level.Draft.values (draft : Draft) : List Value :=
  draft.inbox ++ draft.expected ++ draft.floor.entries.map Prod.snd

structure Level extends Level.Draft where
  size_natural : 0 ≤ floorSize
  limit_positive : 0 < stepLimit
  bound_fits : 0 ≤ numberBound ∧ numberBound ≤ Number.max
  tiles_inside : ∀ tile ∈ floor.keys, 0 ≤ tile ∧ tile < floorSize
  values_within : ∀ value ∈ toDraft.values, value.isWithin numberBound

/-- Why something is no level. -/
inductive LevelError where
  | unknownLevel (number : Int) (known : List Nat)
  | unreadable (path reason : String)
  | notJson (path reason : String)
  | notObject (path : String)
  | missingFields (names : List String)
  | floorNotObject
  | floorTile (key : Text) (reason : String)
  | notInteger (field : String)
  | notValues (field : String)
  | badValue (field reason : String)
  | negativeFloor (name : Text)
  | limitNotPositive (name : Text)
  | boundOutside (name : Text)
  | tileOutside (name : Text) (tile : Int) (floorSize : Int)
  | valueOutside (name : Text) (value : Int) (bound : Int)

namespace LevelError

/-- A statement about a level that has got a name already. -/
private def about (name : Text) (statement : String) : Text :=
  Text.ofString "Level '" ++ name ++ Text.ofString ("': " ++ statement)

def message : LevelError → Text
  | unknownLevel number known => .ofString <|
    "Unknown level " ++ toString number ++ " (known levels: " ++
      String.intercalate ", " (known.map toString) ++ ")"
  | unreadable path reason => .ofString ("Failed to read " ++ path ++ ": " ++ reason)
  | notJson path reason => .ofString (path ++ " is not valid JSON: " ++ reason)
  | notObject path => .ofString (path ++ " must hold a JSON object")
  | missingFields names => .ofString ("Level is missing " ++ String.intercalate ", " names)
  | floorNotObject => .ofString "'floor' must map tile indices to values"
  | floorTile key reason => .ofString ("floor tile " ++ key.quoted ++ ": " ++ reason)
  | notInteger field => .ofString ("'" ++ field ++ "' must be an integer")
  | notValues field => .ofString ("'" ++ field ++ "' must be a list or a mixed string")
  | badValue field reason => .ofString ("'" ++ field ++ "': " ++ reason)
  | negativeFloor name => about name "floor_size must not be negative"
  | limitNotPositive name => about name "step_limit must be positive"
  | boundOutside name => about name ("number_bound must be in [0, " ++ toString Number.max ++ "]")
  | tileOutside name tile floorSize => about name <|
    "floor tile " ++ toString tile ++ " is outside [0, " ++ toString floorSize ++ ")"
  | valueOutside name value bound => about name <|
    toString value ++ " is outside [-" ++ toString bound ++ ", " ++ toString bound ++ "]"

end LevelError

namespace Level

def ofDraft (draft : Draft) : Except LevelError Level :=
  if negative : draft.floorSize < 0 then .error (.negativeFloor draft.name)
  else if spent : draft.stepLimit ≤ 0 then .error (.limitNotPositive draft.name)
  else if fits : 0 ≤ draft.numberBound ∧ draft.numberBound ≤ Number.max then
    match outside : draft.floor.keys.find? fun (tile : Int) =>
        !(0 ≤ tile && tile < draft.floorSize) with
    | some tile => .error (.tileOutside draft.name tile draft.floorSize)
    | none =>
      match wide : draft.values.findSome? (Value.excess? draft.numberBound) with
      | some value => .error (.valueOutside draft.name value draft.numberBound)
      | none => .ok { draft with
          size_natural := Int.not_lt.mp negative
          limit_positive := Int.not_le.mp spent
          bound_fits := fits
          tiles_inside := by
            intro tile member
            simpa using List.find?_eq_none.mp outside tile member
          values_within := by
            intro value member
            exact Value.excess?_eq_none.mp (List.findSome?_eq_none_iff.mp wide value member) }
  else .error (.boundOutside draft.name)

/-- The limits of a play on the level, with a number of steps of its own if one is given. -/
def config (level : Level) (stepLimit : Option Int) : Except ConfigError Config :=
  Config.ofInts level.floorSize level.numberBound (stepLimit.getD level.stepLimit)

end Level

end MailRoom
