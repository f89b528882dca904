import MailRoom.ParseError
import MailRoom.Text.Alphabetic
import MailRoom.Text.Blank
import MailRoom.Text.Numeric

/-! Cutting a text into tokens. Every step says how many characters its token spans, so that the
scan goes on behind them and positions follow from the characters passed. -/
namespace MailRoom

namespace Lexer

/-- A token at the head of a text and how many characters it spans, the first not counted. -/
structure Lexeme where
  kind : TokenKind
  text : String
  extra : Nat
  deriving DecidableEq

def isSkipped (char : Char) : Bool := char = ' ' || char = '\t' || char = '\r'

def isWordStart (char : Char) : Bool := isAlphabetic char || char = '_'

def isWordPart (char : Char) : Bool := isAlphabetic char || isNumeric char || char = '_'

def isDigit (char : Char) : Bool := '0' ≤ char && char ≤ '9'

def bracket? : Char → Option TokenKind
  | '[' => some .openBracket
  | ']' => some .closeBracket
  | ':' => some .colon
  | _ => none

def isBetweenParts (char : Char) : Bool := isSkipped char || char = '\n'

def header (chars : List Char) : Lexeme :=
  let line := chars.takeWhile (· ≠ '\n')
  ⟨.header, String.ofList (line.reverse.dropWhile (· = '\r')).reverse, line.length - 1⟩

/-- Whether a text goes on with a character of a class. -/
def startsWith (belongs : Char → Bool) (chars : List Char) : Bool := chars.head?.any belongs

/-- A row of digits, perhaps behind a minus sign; no letter may follow. -/
def number (file : String) (position : Position) (first : Char) (rest : List Char) :
    Except ParseError Lexeme :=
  let sign := if first = '-' then [first] else []
  let body := if first = '-' then rest else first :: rest
  let row := body.takeWhile isDigit
  let written := sign ++ row
  if row.isEmpty then .error ⟨.bareMinus, file, position⟩
  else if startsWith isWordPart (body.drop row.length) then
    .error ⟨.malformedNumber (String.ofList written), file, position⟩
  else .ok ⟨.number, String.ofList written, written.length - 1⟩

/-- A drawing behind its keyword, cut into its parts. -/
structure Drawing where
  gap : List Char
  kind : List Char
  space : List Char
  row : List Char
  data : List Char
  /-- From the semicolon on. -/
  rest : List Char

namespace Drawing

def cut (chars : List Char) : Drawing :=
  let gap := chars.takeWhile isBetweenParts
  let fromKind := chars.drop gap.length
  let kind := fromKind.takeWhile isWordPart
  let fromSpace := fromKind.drop kind.length
  let space := fromSpace.takeWhile isBetweenParts
  let fromRow := fromSpace.drop space.length
  let row := fromRow.takeWhile isDigit
  let fromData := fromRow.drop row.length
  let data := fromData.takeWhile (· ≠ ';')
  ⟨gap, kind, space, row, data, fromData.drop data.length⟩

def kindText (drawing : Drawing) : String := String.ofList drawing.kind

def rowText (drawing : Drawing) : String := String.ofList drawing.row

/-- The data without carriage returns, trimmed. -/
def dataText (drawing : Drawing) : String :=
  String.ofList (trimChars (drawing.data.filter (· ≠ '\r')))

def text (drawing : Drawing) : String :=
  drawing.kindText ++ " " ++ drawing.rowText ++ "\n" ++ drawing.dataText

def length (drawing : Drawing) : Nat :=
  drawing.gap.length + drawing.kind.length + drawing.space.length + drawing.row.length +
    drawing.data.length + 1

end Drawing

/-- The rest of a drawing behind its keyword, up to the first semicolon after its number. -/
def define (file : String) (keyword after : Position) (rest : List Char) :
    Except ParseError Lexeme :=
  let drawing := Drawing.cut rest
  let atKind := after.afterAll drawing.gap
  let atRow := (atKind.afterAll drawing.kind).afterAll drawing.space
  if !startsWith isWordStart drawing.kind then .error ⟨.defineWithoutKind, file, atKind⟩
  else if drawing.kindText ≠ "COMMENT" ∧ drawing.kindText ≠ "LABEL" then
    .error ⟨.unknownDefineKind drawing.kindText, file, keyword⟩
  else if drawing.row.isEmpty then .error ⟨.defineWithoutNumber drawing.kindText, file, atRow⟩
  else if startsWith isWordPart (drawing.data ++ drawing.rest) then
    .error ⟨.malformedNumber drawing.rowText, file, atRow⟩
  else if drawing.rest.isEmpty then
    .error ⟨.unterminatedDefine drawing.kindText drawing.rowText, file, keyword⟩
  else .ok ⟨.define, drawing.text, drawing.length⟩

/-- A word, or the drawing that the word for drawings starts. -/
def word (file : String) (position : Position) (first : Char) (rest : List Char) :
    Except ParseError Lexeme :=
  let tail := rest.takeWhile isWordPart
  let text := String.ofList (first :: tail)
  if text = "DEFINE" then
    (define file position (position.afterAll (first :: tail)) (rest.drop tail.length)).map
      fun block => { block with extra := tail.length + block.extra }
  else .ok ⟨.word, text, tail.length⟩

/-- The token that starts with a character which is not skipped. -/
def lexeme (file : String) (position : Position) (first : Char) (rest : List Char) :
    Except ParseError Lexeme :=
  if first = '\n' then .ok ⟨.newline, "\n", 0⟩
  else if first = '-' ∧ rest.head? = some '-' then .ok (header (first :: rest))
  else match bracket? first with
    | some kind => .ok ⟨kind, first.toString, 0⟩
    | none =>
      if first = '-' ∨ isDigit first then number file position first rest
      else if isWordStart first then word file position first rest
      else .error ⟨.unexpectedCharacter first, file, position⟩

def scan (file : String) (position : Position) : List Char → Except ParseError (List Token)
  | [] => .ok [⟨.endOfText, "", position⟩]
  | first :: rest =>
    if isSkipped first then scan file (position.after first) rest
    else do
      let found ← lexeme file position first rest
      let passed := first :: rest.take found.extra
      let tokens ← scan file (position.afterAll passed) (rest.drop found.extra)
      return ⟨found.kind, found.text, position⟩ :: tokens
termination_by chars => chars.length

end Lexer

def Token.scan (file text : String) : Except ParseError (List Token) :=
  Lexer.scan file .start text.toList

end MailRoom
