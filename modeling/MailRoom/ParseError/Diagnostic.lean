import MailRoom.ParseError
import MailRoom.Text.Line

/-! Parse errors in words, with the line in question and a caret below the place. -/
namespace MailRoom

structure Diagnostic where
  kind : String
  message : String
  file : String
  line : Option Int
  column : Option Int
  deriving DecidableEq

namespace Diagnostic

def ofError (error : ParseError) : Diagnostic where
  kind := error.cause.kind
  message := error.cause.message
  file := error.file
  line := error.position.map Position.line
  column := error.position.map Position.column

def columnText (diagnostic : Diagnostic) : String :=
  (diagnostic.column.map toString).getD "None"

def text (diagnostic : Diagnostic) : String :=
  let place := match diagnostic.line with
    | none => ""
    | some line =>
      " at " ++ diagnostic.file ++ ":" ++ toString line ++ ":" ++ diagnostic.columnText
  diagnostic.kind ++ ": " ++ diagnostic.message ++ place

/-- The line in question and a caret below its column, if the text has that line. -/
def excerpt (diagnostic : Diagnostic) (source : List Char) : List String :=
  match diagnostic.line with
  | none => []
  | some line =>
    if line < 1 then []
    else match (Line.split source)[(line - 1).toNat]? with
      | none => []
      | some shown =>
        let blanks := (diagnostic.column.getD 1 - 1).toNat
        [String.ofList shown, String.ofList (List.replicate blanks ' ') ++ "^"]

def report (diagnostic : Diagnostic) (source : String) : String :=
  String.intercalate "\n" <|
    "Error occurred while parsing:" :: diagnostic.excerpt source.toList ++
      ["ParseError: " ++ diagnostic.text]

end Diagnostic

end MailRoom
