import MailRoom.Program.Basic

/-! Spellings of instructions. A tile with more digits than are written, which only an instruction
that no text has given can have, is outside the model. -/
namespace MailRoom

abbrev Mnemonics := Table String Opcode

namespace Mnemonics

/-- Every instruction is spelled by its own name. -/
def standard : Mnemonics := .ofList (Opcode.all.map fun opcode => (opcode.name, opcode))

/-- The first spelling of a word that is no instruction. -/
def foreign? (mnemonics : Mnemonics) : Option (String × String) :=
  mnemonics.entries.findSome? fun (spelling, opcode) =>
    match opcode with
    | .foreign name => some (spelling, name)
    | _ => none

end Mnemonics

structure MissingSpelling where
  opcode : Opcode
  deriving DecidableEq

def MissingSpelling.message (missing : MissingSpelling) : String :=
  "No spelling for opcode '" ++ missing.opcode.name ++ "'"

def Mnemonics.spelling (mnemonics : Mnemonics) (opcode : Opcode) : Except MissingSpelling String :=
  match Table.keyOf? mnemonics opcode with
  | some spelling => .ok spelling
  | none => .error ⟨opcode⟩

def padRight (width : Int) (word : String) : String :=
  word ++ String.ofList (List.replicate (width - word.length).toNat ' ')

namespace Instruction

def operandText (instruction : Instruction) : Option String :=
  match instruction.address with
  | some address => some address.text
  | none => instruction.label

/-- An instruction under a given spelling, its operand in a column of its own. -/
def withSpelling (instruction : Instruction) (width : Int) (spelling : String) : String :=
  match instruction.operandText with
  | none => spelling
  | some operand => padRight width spelling ++ " " ++ operand

def describe (instruction : Instruction) : String :=
  instruction.withSpelling 0 instruction.opcode.name

def describeWith (instruction : Instruction) (mnemonics : Mnemonics) (width : Int) :
    Except MissingSpelling String :=
  (mnemonics.spelling instruction.opcode).map (instruction.withSpelling width)

end Instruction

end MailRoom
