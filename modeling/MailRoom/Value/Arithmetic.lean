import MailRoom.Fault

/-! Arithmetic and order on values. A result outside the bound is a fault; an accepted one comes
with the proof that it keeps the bound. -/
namespace MailRoom

/-- An integer within a bound on either side of zero. -/
structure Within (bound : Int) where
  val : Int
  lower : -bound ≤ val
  upper : val ≤ bound
  deriving DecidableEq

namespace Within

def check (rule : Opcode) (bound result : Int) : Except Fault (Within bound) :=
  if inside : -bound ≤ result ∧ result ≤ bound then .ok ⟨result, inside.1, inside.2⟩
  else .error (.overflow rule result bound)

/-- Below the largest number every result within the bound is a number. -/
def toNumber (result : Within bound) (small : bound ≤ 2147483647) : Number where
  val := result.val
  lower := by have := result.lower; omega
  upper := by have := result.upper; omega

end Within

namespace Value

/-- Both operands as integers, if they are numbers. -/
def operands (rule : Opcode) : Value → Value → Except Fault (Int × Int)
  | number left, number right => .ok (left.val, right.val)
  | left, right => .error (.needsNumbers rule left.kind right.kind)

def add (bound : Int) (left right : Value) : Except Fault (Within bound) := do
  let (left, right) ← operands .add left right
  Within.check .add bound (left + right)

def sub (bound : Int) (left right : Value) : Except Fault (Within bound) := do
  let (left, right) ← operands .sub left right
  Within.check .sub bound (left - right)

/-- The instruction that a step up or down belongs to. -/
def bumpRule (delta : Int) : Opcode := if delta > 0 then .bumpUp else .bumpDown

def bump (bound delta : Int) : Value → Except Fault (Within bound)
  | number value => Within.check (bumpRule delta) bound (value.val + delta)
  | letter _ => .error (.needsNumber (bumpRule delta) .letter)

/-- Numbers in order of size, letters in order of code points; the two kinds do not mix. -/
def compare : Value → Value → Except Fault Ordering
  | number left, number right => .ok (Ord.compare left.val right.val)
  | letter left, letter right => .ok (Ord.compare left.toNat right.toNat)
  | left, right => .error (.incomparable left.kind right.kind)

/-- Values in ascending order; values that cannot be compared count as in order. -/
def sort (values : List Value) : List Value :=
  values.mergeSort fun left right =>
    match left.compare right with
    | .ok .gt => false
    | _ => true

end Value

end MailRoom
