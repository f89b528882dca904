import MailRoom.Observer.Priority
import Mathlib.Data.List.Sort
import Mathlib.Data.List.TakeWhile

/-! Sorting by priority, one item at a time. Main statements: `Priority.sort_append_singleton`, by
which an item that is put at the end of a sorted list comes behind all of no lower priority, and
`Priority.sort_sort_append`, by which sorting after each item is sorting once. -/
namespace MailRoom.Priority

variable {priority : α → Int}

theorem sort_eq_insertionSort (priority : α → Int) (items : List α) :
    sort priority items =
      items.insertionSort fun first second => priority second ≤ priority first := by
  have same (item : α) (items : List α) : insert priority item items =
      items.orderedInsert (fun first second => priority second ≤ priority first) item := by
    induction items with
    | nil => rfl
    | cons head rest ih => rw [insert, List.orderedInsert_cons, ih]
  induction items with
  | nil => rfl
  | cons head rest ih => exact (same head _).trans (congrArg _ ih)

theorem sort_of_descending {items : List α} (descending : Descending priority items) :
    sort priority items = items := by
  rw [sort_eq_insertionSort]
  exact descending.insertionSort_eq

/-- An item behind all of the same or a higher priority. -/
def settle (priority : α → Int) (newcomer : α) (present : List α) : List α :=
  present.takeWhile (priority newcomer ≤ priority ·) ++
    newcomer :: present.dropWhile (priority newcomer ≤ priority ·)

theorem settle_cons (newcomer first : α) (present : List α) :
    settle priority newcomer (first :: present) =
      if priority newcomer ≤ priority first then first :: settle priority newcomer present
      else newcomer :: first :: present := by
  by_cases before : priority newcomer ≤ priority first <;> simp [settle, before]

theorem exists_settle (newcomer : α) (present : List α) : ∃ ahead behind,
    present = ahead ++ behind ∧ settle priority newcomer present = ahead ++ newcomer :: behind ∧
    ∀ item ∈ ahead, priority newcomer ≤ priority item :=
  ⟨_, _, List.takeWhile_append_dropWhile.symm, rfl, fun _ member => by
    simpa using List.mem_takeWhile_imp member⟩

theorem perm_settle (newcomer : α) (present : List α) :
    (settle priority newcomer present).Perm (newcomer :: present) := by
  obtain ⟨ahead, behind, parts, settled, _⟩ := @exists_settle _ priority newcomer present
  rw [settled, parts]
  exact List.perm_middle

theorem sublist_settle (newcomer : α) (present : List α) :
    present.Sublist (settle priority newcomer present) := by
  obtain ⟨ahead, behind, parts, settled, _⟩ := @exists_settle _ priority newcomer present
  rw [settled]
  exact parts ▸ (List.Sublist.refl ahead).append (List.sublist_cons_self _ behind)

theorem settle_append {newcomer : α} {front : List α}
    (lower : ∀ item ∈ front, priority newcomer ≤ priority item) (back : List α) :
    settle priority newcomer (front ++ back) = front ++ settle priority newcomer back := by
  have behind : ∀ item ∈ front, decide (priority newcomer ≤ priority item) = true :=
    fun item member => decide_eq_true (lower item member)
  simp only [settle, List.takeWhile_append_of_pos behind, List.dropWhile_append_of_pos behind,
    List.append_assoc]

/-- Of two who join a list, one behind those of the same priority and one in front of them, either
can do so first. -/
theorem settle_insert (newcomer first : α) (present : List α) :
    settle priority newcomer (insert priority first present) =
      insert priority first (settle priority newcomer present) := by
  induction present with
  | nil => exact settle_cons newcomer first []
  | cons other present ih =>
    by_cases ahead : priority other ≤ priority first <;>
      by_cases kept : priority newcomer ≤ priority other
    · have before : priority newcomer ≤ priority first := Int.le_trans kept ahead
      simp [settle_cons, insert, ahead, kept, before]
    · by_cases before : priority newcomer ≤ priority first <;>
        simp [settle_cons, insert, ahead, kept, before]
    · simp [settle_cons, insert, ahead, kept, ih]
    · have before : ¬priority newcomer ≤ priority first := by omega
      simp [settle_cons, insert, ahead, kept, before]

/-- To settle in a sorted list is to be sorted with it, as the last to come. -/
theorem settle_sort (newcomer : α) (items : List α) :
    settle priority newcomer (sort priority items) = sort priority (items ++ [newcomer]) := by
  induction items with
  | nil => rfl
  | cons first items ih => exact (settle_insert newcomer first _).trans (congrArg _ ih)

/-- Put at the end of a list in order and sorted with it, an item settles in the list. -/
theorem sort_append_singleton {present : List α} (descending : Descending priority present)
    (newcomer : α) : sort priority (present ++ [newcomer]) = settle priority newcomer present := by
  rw [← settle_sort, sort_of_descending descending]

theorem sort_sort_append (items : List α) (newcomer : α) :
    sort priority (sort priority items ++ [newcomer]) = sort priority (items ++ [newcomer]) := by
  rw [sort_append_singleton (descending_sort items), settle_sort]

section Map

variable (view : β → α)

theorem map_settle (newcomer : β) (present : List β) :
    (settle (fun item => priority (view item)) newcomer present).map view =
      settle priority (view newcomer) (present.map view) := by
  simp only [settle, List.map_append, List.map_cons, List.takeWhile_map, List.dropWhile_map]
  rfl

theorem map_sort (items : List β) :
    (sort (fun item => priority (view item)) items).map view =
      sort priority (items.map view) := by
  simp only [sort_eq_insertionSort]
  exact List.map_insertionSort _ _ _ _ fun _ _ _ _ => Iff.rfl

end Map

end MailRoom.Priority
