import MailRoom.Json.Basic

/-! Writing a JSON document in plain ASCII, on one line or indented by two spaces a level. -/
namespace MailRoom.Json

namespace Printer

def unit (code : Nat) : String := "\\u" ++ Quoted.hexDigits 4 code

def escapeChar (char : Char) : String :=
  if char = '"' then "\\\""
  else if char = '\\' then "\\\\"
  else if char = '\n' then "\\n"
  else if char = '\r' then "\\r"
  else if char = '\t' then "\\t"
  else if char = '\x08' then "\\b"
  else if char = '\x0c' then "\\f"
  else if ' ' ≤ char ∧ char ≤ '~' then char.toString
  else if char.toNat < 0x10000 then unit char.toNat
  else
    let beyond := char.toNat - 0x10000
    unit (0xd800 + beyond / 0x400) ++ unit (0xdc00 + beyond % 0x400)

def escape : CodePoint → String
  | .scalar char => escapeChar char
  | .surrogate offset => unit (0xd800 + offset)

def quote (text : Text) : String :=
  "\"" ++ text.foldl (fun written point => written ++ escape point) "" ++ "\""

def number : Binary64 → String
  | .undefined => "NaN"
  | .infinite negative => if negative then "-Infinity" else "Infinity"
  | finite => finite.text

end Printer

mutual

def compact : Json → String
  | null => "null"
  | bool value => if value then "true" else "false"
  | int value => toString value
  | float value => Printer.number value
  | text value => Printer.quote value
  | array items => "[" ++ String.intercalate "," (compactItems items) ++ "]"
  | object members => "\x7b" ++ String.intercalate "," (compactMembers members) ++ "\x7d"

def compactItems : List Json → List String
  | [] => []
  | item :: rest => item.compact :: compactItems rest

def compactMembers : List (Text × Json) → List String
  | [] => []
  | (key, value) :: rest => (Printer.quote key ++ ":" ++ value.compact) :: compactMembers rest

end

/-- Every part on a line of its own, between lines that open and close. -/
private def block (level : Nat) (opening closing : String) (parts : List String) : String :=
  let margin := String.ofList (List.replicate (2 * level) ' ')
  if parts.isEmpty then opening ++ closing
  else opening ++ "\n" ++ String.intercalate ",\n" (parts.map fun part => margin ++ "  " ++ part) ++
    "\n" ++ margin ++ closing

mutual

/-- The document with its inner lines indented for a nesting level. -/
def indented (level : Nat) : Json → String
  | array items => block level "[" "]" (indentedItems (level + 1) items)
  | object members => block level "\x7b" "\x7d" (indentedMembers (level + 1) members)
  | null => "null"
  | bool value => if value then "true" else "false"
  | int value => toString value
  | float value => Printer.number value
  | text value => Printer.quote value

def indentedItems (level : Nat) : List Json → List String
  | [] => []
  | item :: rest => item.indented level :: indentedItems level rest

def indentedMembers (level : Nat) : List (Text × Json) → List String
  | [] => []
  | (key, value) :: rest =>
    (Printer.quote key ++ ": " ++ value.indented level) :: indentedMembers level rest

end

end MailRoom.Json
