import MailRoom.Json.Lexeme
import MailRoom.Table

/-! Reading a JSON document: the lexemes run through a machine that keeps the open arrays and
objects on a stack, which has a depth. A repeated key keeps its first place and its latest value. -/
namespace MailRoom.Json

inductive ReadError where
  | malformed (malformation : Malformation) (place : Nat)
  | numeral (error : NumeralError)
  /-- More arrays and objects are open at a time than are followed. -/
  | tooDeep
  deriving DecidableEq

namespace Reader

/-- An array or object that waits for a value. -/
inductive Frame where
  /-- Items so far, the newest first. -/
  | array (items : List Json)
  | object (members : Table Text Json) (key : Text)

inductive State where
  | value (stack : List Frame)
  | firstItem (stack : List Frame)
  | afterItem (items : List Json) (stack : List Frame)
  | firstKey (stack : List Frame)
  | key (members : Table Text Json) (stack : List Frame)
  | afterKey (members : Table Text Json) (key : Text) (stack : List Frame)
  | afterMember (members : Table Text Json) (stack : List Frame)
  | finished (document : Json)

/-- What is missing where a text goes on otherwise, or ends. -/
def State.missing : State → Malformation
  | value _ | firstItem _ => .value
  | firstKey _ | key _ _ => .key
  | afterKey _ _ _ => .colon
  | afterItem _ _ | afterMember _ _ => .comma
  | finished _ => .furtherText

def deliver (document : Json) : List Frame → State
  | [] => .finished document
  | .array items :: stack => .afterItem (document :: items) stack
  | .object members key :: stack => .afterMember (members.insert key document) stack

/-- The state behind an opening bracket, with the arrays and objects around it on the stack. -/
def enter (depth : Nat) (stack : List Frame) (inner : State) : Except ReadError State :=
  if stack.length < depth then .ok inner else .error .tooDeep

def start (depth : Nat) (stack : List Frame) (place : Nat) : Lexeme → Except ReadError State
  | .openArray => enter depth stack (.firstItem stack)
  | .openObject => enter depth stack (.firstKey stack)
  | .text value => .ok (deliver (.text value) stack)
  | .atom value => .ok (deliver value stack)
  | .tooLong digits => .error (.numeral (.tooLong digits))
  | .misquoted malformation place => .error (.malformed malformation place)
  | _ => .error (.malformed .value place)

def step (depth : Nat) (state : State) (place : Nat) (lexeme : Lexeme) : Except ReadError State :=
  match state, lexeme with
  | .value stack, lexeme => start depth stack place lexeme
  | .firstItem stack, .closeArray => .ok (deliver (.array []) stack)
  | .firstItem stack, lexeme => start depth (.array [] :: stack) place lexeme
  | .afterItem items stack, .comma => .ok (.value (.array items :: stack))
  | .afterItem items stack, .closeArray => .ok (deliver (.array items.reverse) stack)
  | .firstKey stack, .closeObject => .ok (deliver (.object []) stack)
  | .firstKey stack, .text key => .ok (.afterKey .empty key stack)
  | .key members stack, .text key => .ok (.afterKey members key stack)
  | .afterKey members key stack, .colon => .ok (.value (.object members key :: stack))
  | .afterMember members stack, .comma => .ok (.key members stack)
  | .afterMember members stack, .closeObject => .ok (deliver (.object members.entries) stack)
  | .firstKey _, .misquoted malformation place | .key _ _, .misquoted malformation place =>
    .error (.malformed malformation place)
  | state, _ => .error (.malformed state.missing place)

/-- The document, if it is finished where the text ends. -/
def State.finish (place : Nat) : State → Except ReadError Json
  | finished document => .ok document
  | state => .error (.malformed state.missing place)

end Reader

/-- The document that a text holds, of arrays and objects nested no deeper than is followed. -/
def read (depth : Nat) (source : Text) : Except ReadError Json :=
  if source.head? = some (.scalar '\ufeff') then .error (.malformed .byteOrderMark 0)
  else do
    let last ← (lexemes 0 source).foldlM
      (fun state (place, lexeme) => Reader.step depth state place lexeme) (.value [])
    last.finish source.length

end MailRoom.Json
