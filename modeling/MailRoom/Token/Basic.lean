/-! Tokens of a save file and the places where they stand. -/
namespace MailRoom

inductive TokenKind where
  | newline
  | header
  | word
  | number
  | define
  | openBracket
  | closeBracket
  | colon
  | endOfText
  | other (name : String)
  deriving DecidableEq, Repr

namespace TokenKind

def name : TokenKind → String
  | newline => "NEWLINE"
  | header => "HEADER"
  | word => "IDENT"
  | number => "NUMBER"
  | define => "DEFINE"
  | openBracket => "LBRACKET"
  | closeBracket => "RBRACKET"
  | colon => "COLON"
  | endOfText => "EOF"
  | other name => name

def all : List TokenKind :=
  [newline, header, word, number, define, openBracket, closeBracket, colon, endOfText]

def ofName (text : String) : TokenKind :=
  (all.find? fun kind => kind.name = text).getD (other text)

end TokenKind

/-- A line and a column, both counted from one. -/
structure Position where
  line : Int
  column : Int
  deriving DecidableEq, Repr

namespace Position

def start : Position := ⟨1, 1⟩

def after (position : Position) (char : Char) : Position :=
  if char = '\n' then ⟨position.line + 1, 1⟩ else ⟨position.line, position.column + 1⟩

def afterAll (position : Position) (chars : List Char) : Position := chars.foldl after position

theorem afterAll_append (position : Position) (first second : List Char) :
    position.afterAll (first ++ second) = (position.afterAll first).afterAll second :=
  List.foldl_append

end Position

structure Token where
  kind : TokenKind
  text : String
  position : Position
  deriving DecidableEq, Repr

end MailRoom
