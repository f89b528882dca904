import MailRoom.Token.Basic

/-! What can be wrong with a save file, and how it is reported. -/
namespace MailRoom

inductive ParseCause where
  | unexpectedCharacter (char : Char)
  | bareMinus
  | malformedNumber (digits : String)
  | defineWithoutKind
  | unknownDefineKind (kind : String)
  | defineWithoutNumber (kind : String)
  | unterminatedDefine (kind number : String)
  | expectedItem (found : TokenKind)
  | expectedToken (expected found : TokenKind)
  | trailingToken (token : Token)
  | missingTile (mnemonic : String)
  | unclosedAddress
  | unexpectedInAddress (found : TokenKind)
  | missingLabel (mnemonic : String)
  | expectedLabel (found : TokenKind)
  | unknownInstruction (word : String)
  | undeclaredLabel (name : String)
  | repeatedLabel (name : String)
  | negativeTile (tile : Int)
  | wordAsTile (word : String)
  deriving DecidableEq

namespace ParseCause

def kind : ParseCause → String
  | unknownInstruction _ => "UnknownOpcode"
  | undeclaredLabel _ => "UnresolvedLabel"
  | repeatedLabel _ => "DuplicateLabel"
  | negativeTile _ | wordAsTile _ => "InvalidAddress"
  | _ => "StaticInvalidSyntax"

def message : ParseCause → String
  | unexpectedCharacter char => "Unexpected character '" ++ char.toString ++ "'"
  | bareMinus => "Expected digits after '-'"
  | malformedNumber digits => "Malformed number starting with '" ++ digits ++ "'"
  | defineWithoutKind => "Expected COMMENT or LABEL after DEFINE"
  | unknownDefineKind kind => "Unknown DEFINE kind '" ++ kind ++ "'"
  | defineWithoutNumber kind => "Expected numeric id after DEFINE " ++ kind
  | unterminatedDefine kind number =>
    "Unterminated DEFINE " ++ kind ++ " " ++ number ++ " block (missing ';')"
  | expectedItem found => "Expected instruction or label but found " ++ found.name
  | expectedToken expected found =>
    "Expected token " ++ expected.name ++ " but found " ++ found.name
  | trailingToken token =>
    "Unexpected " ++ token.kind.name ++ " '" ++ token.text ++ "' at end of line"
  | missingTile mnemonic => mnemonic ++ " expects a tile address"
  | unclosedAddress => "Expected ']' to close indirect address"
  | unexpectedInAddress found => "Unexpected " ++ found.name ++ " in address"
  | missingLabel mnemonic => mnemonic ++ " expects a label"
  | expectedLabel found => "Expected label name but found " ++ found.name
  | unknownInstruction word => "Unknown instruction '" ++ word ++ "'"
  | undeclaredLabel name => "Jump to undeclared label '" ++ name ++ "'"
  | repeatedLabel name => "Label '" ++ name ++ "' is declared twice"
  | negativeTile tile => "Tile address must be non-negative, got " ++ toString tile
  | wordAsTile word => "'" ++ word ++ "' is not a tile address"

end ParseCause

/-- What is wrong with a save file, and where, as far as that is known. -/
structure ParseError where
  cause : ParseCause
  file : String
  position : Option Position
  deriving DecidableEq

end MailRoom
