/-! Lists sorted by priority, the highest first. The sort is stable: items of one priority stay in
the order in which they were. -/
namespace MailRoom.Priority

variable (priority : α → Int)

/-- Nobody stands behind somebody of a lower priority. -/
def Descending (items : List α) : Prop :=
  items.Pairwise fun first second => priority second ≤ priority first

/-- An item in front of all of the same or a lower priority. -/
def insert (item : α) : List α → List α
  | [] => [item]
  | head :: rest =>
    if priority head ≤ priority item then item :: head :: rest else head :: insert item rest

def sort (items : List α) : List α := items.foldr (insert priority) []

theorem perm_insert (item : α) (items : List α) :
    (insert priority item items).Perm (item :: items) := by
  induction items with
  | nil => exact .refl _
  | cons head rest ih =>
    unfold insert
    split
    · exact .refl _
    · exact (ih.cons head).trans (.swap item head rest)

theorem perm_sort (items : List α) : (sort priority items).Perm items := by
  induction items with
  | nil => exact .refl _
  | cons head rest ih => exact (perm_insert priority head _).trans (ih.cons head)

variable {priority}

theorem descending_insert {items : List α} (descending : Descending priority items) (item : α) :
    Descending priority (insert priority item items) := by
  induction items with
  | nil => exact List.pairwise_singleton _ _
  | cons head rest ih =>
    obtain ⟨first, further⟩ := List.pairwise_cons.mp descending
    unfold insert
    split
    · rename_i ahead
      refine List.pairwise_cons.mpr ⟨fun other member => ?_, descending⟩
      rcases List.mem_cons.mp member with rfl | behind
      · exact ahead
      · exact Int.le_trans (first other behind) ahead
    · rename_i lower
      refine List.pairwise_cons.mpr ⟨fun other member => ?_, ih further⟩
      rcases List.mem_cons.mp ((perm_insert priority item rest).mem_iff.mp member) with rfl | behind
      · omega
      · exact first other behind

theorem descending_sort (items : List α) : Descending priority (sort priority items) := by
  induction items with
  | nil => exact List.Pairwise.nil
  | cons head rest ih => exact descending_insert ih head

theorem descending_map {rank : β → Int} {view : α → β}
    (same : ∀ item, rank (view item) = priority item) {items : List α} :
    Descending rank (items.map view) ↔ Descending priority items := by
  simp only [Descending, List.pairwise_map, same]

end MailRoom.Priority
