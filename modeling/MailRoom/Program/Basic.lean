import MailRoom.Opcode
import MailRoom.Table

/-! Programs: instructions with resolved jumps, the labels and comment markers between them, and
the drawings that labels and comments refer to. -/
namespace MailRoom

structure Location where
  file : String
  line : Int
  column : Int
  /-- The line as it was written, without the blanks around it. -/
  statement : String
  deriving DecidableEq, Repr

/-- A tile, or the tile whose number is found on a tile. -/
structure Address where
  tile : Int
  indirect : Bool
  deriving DecidableEq, Repr

def Address.text (address : Address) : String :=
  if address.indirect then "[" ++ toString address.tile ++ "]" else toString address.tile

structure Instruction where
  opcode : Opcode
  address : Option Address
  label : Option String
  /-- Where a jump goes, as an index into the instructions. -/
  target : Option Int
  location : Option Location
  deriving DecidableEq, Repr

inductive MarkerKind where
  | label
  | comment
  | other (name : String)
  deriving DecidableEq, Repr

namespace MarkerKind

def name : MarkerKind → String
  | label => "LABEL"
  | comment => "COMMENT"
  | other name => name

def ofName (word : String) : MarkerKind :=
  if word = "LABEL" then label else if word = "COMMENT" then comment else other word

end MarkerKind

/-- A label or a comment before the instruction with this index. -/
structure Marker where
  index : Int
  kind : MarkerKind
  value : String
  deriving DecidableEq, Repr

/-- A drawing, kept as the text that encodes it. -/
structure Definition where
  kind : MarkerKind
  number : Int
  data : String
  deriving DecidableEq, Repr

structure Program where
  instructions : List Instruction
  /-- The index that each label stands before, in order of declaration. -/
  labels : Table String Int
  markers : List Marker
  definitions : List Definition
  location : Option Location

end MailRoom
