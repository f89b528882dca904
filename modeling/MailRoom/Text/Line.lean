/-! Lines of a text. A line ends at a line feed, a carriage return, both together, or at one of
the other separators; a separator at the very end opens no further line. -/
namespace MailRoom.Line

def isBreak (char : Char) : Bool :=
  [0xa, 0xb, 0xc, 0xd, 0x1c, 0x1d, 0x1e, 0x85, 0x2028, 0x2029].contains char.toNat

private def prepend (char : Char) : List (List Char) → List (List Char)
  | [] => [[char]]
  | line :: lines => (char :: line) :: lines

def split : List Char → List (List Char)
  | [] => []
  | '\r' :: '\n' :: rest => [] :: split rest
  | char :: rest => if isBreak char then [] :: split rest else prepend char (split rest)

theorem split_break {char : Char} {rest : List Char} (breaks : isBreak char = true)
    (lone : char = '\r' → rest.head? ≠ some '\n') : split (char :: rest) = [] :: split rest := by
  rw [split, if_pos breaks]
  rintro rest rfl rfl
  exact lone rfl rfl

theorem split_plain {char : Char} (plain : isBreak char = false) (rest : List Char) :
    split (char :: rest) = (char :: (split rest).headD []) :: (split rest).tail := by
  rw [split, if_neg (by simp [plain])]
  · cases split rest <;> rfl
  · rintro rest rfl
    cases plain

def unlines : List String → String
  | [] => ""
  | line :: rest => line ++ "\n" ++ unlines rest

/-- Every carriage return, with or without a line feed after it, becomes a line feed. -/
def normalize : List Char → List Char
  | [] => []
  | '\r' :: '\n' :: rest => '\n' :: normalize rest
  | '\r' :: rest => '\n' :: normalize rest
  | char :: rest => char :: normalize rest

end MailRoom.Line
