import MailRoom.Program.Mnemonics
import MailRoom.ParseError
import MailRoom.Text.Numeral

/-! Items of a save file: what a row of tokens consists of. An item is read from the head of the
row together with the number of tokens it takes. -/
namespace MailRoom

/-- Why a row of tokens is no program. -/
inductive ReadFailure where
  | rejected (error : ParseError)
  | numeral (error : NumeralError)
  | foreignMnemonic (spelling name : String)
  | defineWithoutSpace
  | outOfTokens
  deriving DecidableEq

/-- The failure in words; where tokens merely run out there are none. -/
def ReadFailure.message : ReadFailure → String
  | rejected error => error.cause.message
  | numeral error => error.message
  | foreignMnemonic spelling name =>
    "Mnemonic '" ++ spelling ++ "' maps to unknown opcode '" ++ name ++ "'"
  | defineWithoutSpace => "not enough values to unpack (expected 2, got 1)"
  | outOfTokens => ""

inductive Item where
  | blank
  | definition (definition : Definition)
  | label (name : String)
  | comment (value : String)
  /-- An instruction whose label has not been looked up. -/
  | instruction (instruction : Instruction)
  deriving DecidableEq

/-- What the items are read with: the file's name, its lines without the blanks around them, and
the spellings. -/
structure Source where
  file : String
  lines : Array String
  mnemonics : Mnemonics

namespace Source

def ofLines (file : String) (lines : List String) (mnemonics : Mnemonics) : Source where
  file := file
  lines := (lines.map fun line => String.ofList (trimChars line.toList)).toArray
  mnemonics := mnemonics

def locate (source : Source) (position : Position) : Location where
  file := source.file
  line := position.line
  column := position.column
  statement :=
    if position.line < 1 then "" else (source.lines[(position.line - 1).toNat]?).getD ""

def reject (source : Source) (cause : ParseCause) (token : Token) : Except ReadFailure α :=
  .error (.rejected ⟨cause, source.file, token.position⟩)

end Source

namespace Item

variable (source : Source)

def readNumeral (text : String) : Except ReadFailure Int :=
  (Numeral.read (Text.ofString text)).mapError .numeral

/-- A line ends with a newline, which it takes, or where the text ends. -/
def endOfLine : List Token → Except ReadFailure Nat
  | [] => .error .outOfTokens
  | token :: _ =>
    if token.kind = .newline then .ok 1
    else if token.kind = .endOfText then .ok 0
    else source.reject (.trailingToken token) token

def expect (kind : TokenKind) : List Token → Except ReadFailure Token
  | [] => .error .outOfTokens
  | token :: _ =>
    if token.kind = kind then .ok token
    else source.reject (.expectedToken kind token.kind) token

/-- The tile number at the head, for the instruction that a word names. -/
def tile (word : Token) : List Token → Except ReadFailure Int
  | [] => .error .outOfTokens
  | token :: _ =>
    match token.kind with
    | .newline | .endOfText => source.reject (.missingTile word.text) word
    | .number => do
      let number ← readNumeral token.text
      if number < 0 then source.reject (.negativeTile number) token else return number
    | .word => source.reject (.wordAsTile token.text) token
    | other => source.reject (.unexpectedInAddress other) token

def address (word : Token) : List Token → Except ReadFailure (Address × Nat)
  | [] => .error .outOfTokens
  | token :: rest =>
    if token.kind = .openBracket then do
      let tile ← tile source word rest
      match rest.drop 1 with
      | [] => .error .outOfTokens
      | closing :: _ =>
        if closing.kind = .closeBracket then return (⟨tile, true⟩, 3)
        else source.reject .unclosedAddress closing
    else do
      let tile ← tile source word (token :: rest)
      return (⟨tile, false⟩, 1)

def jumpLabel (word : Token) : List Token → Except ReadFailure String
  | [] => .error .outOfTokens
  | token :: _ =>
    match token.kind with
    | .newline | .endOfText => source.reject (.missingLabel word.text) word
    | .word => .ok token.text
    | other => source.reject (.expectedLabel other) token

/-- The instruction that a word starts, and how many tokens its operand takes. -/
def readInstruction (word : Token) (rest : List Token) : Except ReadFailure (Instruction × Nat) :=
  match source.mnemonics.find? word.text with
  | none => source.reject (.unknownInstruction word.text) word
  | some opcode =>
    let location := some (source.locate word.position)
    match opcode.shape? with
    | some .address => do
      let (address, taken) ← address source word rest
      return (⟨opcode, some address, none, none, location⟩, taken)
    | some .label => do
      let label ← jumpLabel source word rest
      return (⟨opcode, none, some label, none, location⟩, 1)
    | _ => .ok (⟨opcode, none, none, none, location⟩, 0)

/-- A drawing from the text of its token: kind, number, and after a line feed the data. -/
def readDefinition (text : String) : Except ReadFailure Definition :=
  let head := text.toList.takeWhile (· ≠ '\n')
  let data := (text.toList.dropWhile (· ≠ '\n')).drop 1
  let kind := head.takeWhile (· ≠ ' ')
  if kind.length = head.length then .error .defineWithoutSpace
  else do
    let number ← readNumeral (String.ofList (head.drop (kind.length + 1)))
    return ⟨.ofName (String.ofList kind), number, String.ofList data⟩

/-- The item that a token starts, and how many further tokens it takes. -/
def read (declared : List String) (token : Token) (rest : List Token) :
    Except ReadFailure (Item × Nat) :=
  match token.kind with
  | .newline | .header => .ok (.blank, 0)
  | .define => do
    let drawn ← readDefinition token.text
    let ending ← endOfLine source rest
    return (.definition drawn, ending)
  | .word =>
    if rest.head?.any fun next => next.kind = .colon then
      if token.text ∈ declared then source.reject (.repeatedLabel token.text) token
      else .ok (.label token.text, 1)
    else if token.text = "COMMENT" then do
      let value ← expect source .number rest
      let ending ← endOfLine source (rest.drop 1)
      return (.comment value.text, 1 + ending)
    else do
      let (found, taken) ← readInstruction source token rest
      let ending ← endOfLine source (rest.drop taken)
      return (.instruction found, taken + ending)
  | other => source.reject (.expectedItem other) token

/-- The labels that are declared once an item has been read. -/
def declare (declared : List String) : Item → List String
  | label name => name :: declared
  | _ => declared

/-- The items up to the end of the text, and the token that marks the end. -/
def readAll (declared : List String) : List Token → Except ReadFailure (List Item × Token)
  | [] => .error .outOfTokens
  | token :: rest =>
    if token.kind = .endOfText then .ok ([], token)
    else do
      let (item, taken) ← read source declared token rest
      let (items, last) ← readAll (item.declare declared) (rest.drop taken)
      return (item :: items, last)
termination_by tokens => tokens.length

end Item

end MailRoom
