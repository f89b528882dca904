/-! The eleven instructions a worker understands, and words that name no instruction. -/
namespace MailRoom

inductive OperandShape where
  | none
  | address
  | label
  deriving DecidableEq, Repr

inductive Opcode where
  | inbox
  | outbox
  | copyFrom
  | copyTo
  | add
  | sub
  | bumpUp
  | bumpDown
  | jump
  | jumpIfZero
  | jumpIfNegative
  /-- A word outside the instruction set. -/
  | foreign (name : String)
  deriving DecidableEq, Repr

namespace Opcode

def name : Opcode → String
  | inbox => "INBOX"
  | outbox => "OUTBOX"
  | copyFrom => "COPYFROM"
  | copyTo => "COPYTO"
  | add => "ADD"
  | sub => "SUB"
  | bumpUp => "BUMPUP"
  | bumpDown => "BUMPDN"
  | jump => "JUMP"
  | jumpIfZero => "JUMPZ"
  | jumpIfNegative => "JUMPN"
  | foreign name => name

def all : List Opcode :=
  [inbox, outbox, copyFrom, copyTo, add, sub, bumpUp, bumpDown, jump, jumpIfZero, jumpIfNegative]

def ofName (word : String) : Opcode :=
  (all.find? fun opcode => opcode.name = word).getD (foreign word)

/-- The operand of an instruction; a foreign word has no meaning and hence no operand shape. -/
def shape? : Opcode → Option OperandShape
  | inbox | outbox => some .none
  | copyFrom | copyTo | add | sub | bumpUp | bumpDown => some .address
  | jump | jumpIfZero | jumpIfNegative => some .label
  | foreign _ => none

theorem name_ofName (word : String) : (ofName word).name = word := by
  unfold ofName
  cases found : all.find? fun opcode => opcode.name = word with
  | none => rfl
  | some opcode => simpa using List.find?_some found

end Opcode

end MailRoom
