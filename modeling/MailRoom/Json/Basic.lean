import MailRoom.Decimal.Shortest
import MailRoom.Text.Quoted

/-! JSON documents. Integers and numbers with a fraction or an exponent are kept apart, and members
keep their order. -/
namespace MailRoom

inductive Json where
  | null
  | bool (value : Bool)
  | int (value : Int)
  | float (value : Binary64)
  | text (value : Text)
  | array (items : List Json)
  | object (members : List (Text × Json))

namespace Json

instance : Inhabited Json := ⟨null⟩

def ofString (string : String) : Json := text (Text.ofString string)

def ofOption (write : α → Json) : Option α → Json
  | none => null
  | some value => write value

def ofFields (fields : List (String × Json)) : Json :=
  object (fields.map fun (name, value) => (Text.ofString name, value))

def field? (name : String) : List (Text × Json) → Option Json :=
  List.lookup (Text.ofString name)

mutual

/-- A document on one line, as messages quote it, if it is nested no deeper than is followed. The
innermost parts count as a level of their own. -/
def display : Json → (depth : Nat) → Option String
  | _, 0 => none
  | null, _ + 1 => some "None"
  | bool value, _ + 1 => some (if value then "True" else "False")
  | int value, _ + 1 => some (toString value)
  | float value, _ + 1 => some value.text
  | text value, _ + 1 => some value.quoted
  | array items, depth + 1 =>
    (displayItems items depth).map fun parts => "[" ++ String.intercalate ", " parts ++ "]"
  | object members, depth + 1 =>
    (displayMembers members depth).map fun parts =>
      "\x7b" ++ String.intercalate ", " parts ++ "\x7d"

def displayItems : List Json → (depth : Nat) → Option (List String)
  | [], _ => some []
  | item :: rest, depth => do
    return (← item.display depth) :: (← displayItems rest depth)

def displayMembers : List (Text × Json) → (depth : Nat) → Option (List String)
  | [], _ => some []
  | (key, value) :: rest, depth => do
    return (key.quoted ++ ": " ++ (← value.display depth)) :: (← displayMembers rest depth)

end

/-- A text stands for itself, anything else for its display. -/
def plain (json : Json) (depth : Nat) : Option Text :=
  match json with
  | text value => some value
  | other => (other.display depth).map Text.ofString

end Json

end MailRoom
