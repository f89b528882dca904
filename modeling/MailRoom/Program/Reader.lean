import MailRoom.Program.Item
import MailRoom.Program.Writer
import MailRoom.Text.Line
import MailRoom.Token.Lexer

/-! Reading a program: the items of its text in order, then the jumps resolved. -/
namespace MailRoom

namespace Item

def instructions (items : List Item) : List Instruction :=
  items.filterMap fun
    | instruction found => some found
    | _ => none

def definitions (items : List Item) : List Definition :=
  items.filterMap fun
    | definition found => some found
    | _ => none

/-- Labels and comments, each before the instruction that follows it. -/
def markers (index : Nat) : List Item → List Marker
  | [] => []
  | label name :: rest => ⟨index, .label, name⟩ :: markers index rest
  | comment value :: rest => ⟨index, .comment, value⟩ :: markers index rest
  | instruction _ :: rest => markers (index + 1) rest
  | _ :: rest => markers index rest

def labels (items : List Item) : Table String Int :=
  .ofList (((markers 0 items).filter fun marker => marker.kind = .label).map
    fun marker => (marker.value, marker.index))

end Item

namespace Program

/-- A jump gets the index of its label. -/
def resolve (file : String) (labels : Table String Int) (instruction : Instruction) :
    Except ReadFailure Instruction :=
  match instruction.label with
  | none => .ok instruction
  | some name =>
    match labels.find? name with
    | some index => .ok { instruction with target := some index }
    | none =>
      let position := instruction.location.map fun location => ⟨location.line, location.column⟩
      .error (.rejected ⟨.undeclaredLabel name, file, position⟩)

def ofTokens (source : Source) (tokens : List Token) : Except ReadFailure Program :=
  match source.mnemonics.foreign? with
  | some (spelling, name) => .error (.foreignMnemonic spelling name)
  | none => do
    let (items, last) ← Item.readAll source [] tokens
    let labels := Item.labels items
    let instructions ← (Item.instructions items).mapM (resolve source.file labels)
    return {
      instructions
      labels
      markers := Item.markers 0 items
      definitions := Item.definitions items
      location := some (source.locate last.position) }

def parse (file text : String) (mnemonics : Mnemonics) : Except ReadFailure Program := do
  let tokens ← (Token.scan file text).mapError .rejected
  let lines := (Line.split text.toList).map String.ofList
  ofTokens (Source.ofLines file lines mnemonics) tokens

end Program

end MailRoom
