import MailRoom.Program.Basic
import Mathlib.Data.List.Sort

/-! Markers in the order of their indices. Main statement: `Marker.filter_inOrder`, by which
choosing some of the markers and putting them in order can be done in either turn; so markers at one
index stay in the order in which they were. -/
namespace MailRoom

namespace Marker

/-- The order in which markers are written. -/
def Before (first second : Marker) : Prop := first.index ≤ second.index

instance : DecidableRel Before := fun first second =>
  inferInstanceAs (Decidable (first.index ≤ second.index))

instance : Std.Total Before := ⟨fun first second => Int.le_total first.index second.index⟩

instance : IsTrans Marker Before := ⟨fun _ _ _ => Int.le_trans⟩

/-- Markers by their indices, those at the same index as they stood before. -/
def inOrder (markers : List Marker) : List Marker := markers.insertionSort Before

variable {markers : List Marker}

theorem mem_inOrder {marker : Marker} : marker ∈ inOrder markers ↔ marker ∈ markers :=
  List.mem_insertionSort Before

theorem inOrder_cons (marker : Marker) (markers : List Marker) :
    inOrder (marker :: markers) = (inOrder markers).orderedInsert Before marker := rfl

theorem inOrder_perm (markers : List Marker) : (inOrder markers).Perm markers :=
  List.perm_insertionSort Before markers

theorem inOrder_sorted (markers : List Marker) : (inOrder markers).Pairwise Before :=
  List.pairwise_insertionSort Before markers

theorem inOrder_eq_self (sorted : markers.Pairwise Before) : inOrder markers = markers :=
  sorted.insertionSort_eq

theorem filter_orderedInsert (chosen : Marker → Bool) (marker : Marker)
    (sorted : markers.Pairwise Before) :
    (markers.orderedInsert Before marker).filter chosen =
      if chosen marker then (markers.filter chosen).orderedInsert Before marker
      else markers.filter chosen := by
  induction markers with
  | nil => simp [List.filter_cons]
  | cons other rest ih =>
    obtain ⟨first, sorted⟩ := List.pairwise_cons.mp sorted
    by_cases before : marker.Before other
    · -- The marker comes before all others, hence before those that are chosen.
      have least : ∀ kept ∈ (other :: rest).filter chosen, marker.Before kept := by
        intro kept member
        rcases List.mem_cons.mp (List.mem_filter.mp member).1 with rfl | member
        · exact before
        · exact IsTrans.trans _ _ _ before (first kept member)
      have inserted : ((other :: rest).filter chosen).orderedInsert Before marker =
          marker :: (other :: rest).filter chosen := by
        cases kept : (other :: rest).filter chosen with
        | nil => rfl
        | cons next others =>
          exact List.orderedInsert_cons_of_le Before others (least next (by simp [kept]))
      rw [List.orderedInsert_cons_of_le Before rest before, inserted, List.filter_cons]
    · rw [List.orderedInsert_of_not_le Before rest before, List.filter_cons, ih sorted,
        List.filter_cons]
      by_cases kept : chosen other
      · simp only [kept, if_true, List.orderedInsert_of_not_le Before _ before]
        split <;> rfl
      · simp only [kept]
        rfl

theorem filter_inOrder (chosen : Marker → Bool) (markers : List Marker) :
    (inOrder markers).filter chosen = inOrder (markers.filter chosen) := by
  induction markers with
  | nil => rfl
  | cons marker rest ih =>
    rw [inOrder_cons, filter_orderedInsert chosen marker (inOrder_sorted rest), ih,
      List.filter_cons]
    split <;> rfl

theorem filter_index_inOrder (markers : List Marker) (index : Int) :
    (inOrder markers).filter (fun marker => marker.index = index) =
      markers.filter fun marker => marker.index = index := by
  rw [filter_inOrder]
  apply inOrder_eq_self
  apply List.pairwise_of_forall_mem_list
  intro first member second member'
  have placed := of_decide_eq_true (List.mem_filter.mp member).2
  have placed' := of_decide_eq_true (List.mem_filter.mp member').2
  exact Int.le_of_eq (placed.trans placed'.symm)

/-- Markers in order: those at an index stand before those at later ones. -/
theorem filter_from (sorted : markers.Pairwise Before) (index : Int) :
    (markers.filter fun marker => marker.index = index) ++
        (markers.filter fun marker => index + 1 ≤ marker.index) =
      markers.filter fun marker => index ≤ marker.index := by
  induction markers with
  | nil => rfl
  | cons marker rest ih =>
    obtain ⟨first, sorted⟩ := List.pairwise_cons.mp sorted
    rcases Int.lt_trichotomy marker.index index with below | same | above
    · rw [List.filter_cons_of_neg (by simp; omega), List.filter_cons_of_neg (by simp; omega),
        List.filter_cons_of_neg (by simp; omega), ih sorted]
    · rw [List.filter_cons_of_pos (by simp [same]), List.filter_cons_of_neg (by simp; omega),
        List.filter_cons_of_pos (by simp [same]), List.cons_append, ih sorted]
    · -- All that follow are above the index, too.
      have above : ∀ other ∈ marker :: rest, index < other.index := by
        intro other member
        rcases List.mem_cons.mp member with rfl | member
        · exact above
        · exact Int.lt_of_lt_of_le above (first other member)
      have none : (marker :: rest).filter (fun marker => marker.index = index) = [] := by
        apply List.filter_eq_nil_iff.mpr
        intro other member
        have later := above other member
        simp only [decide_eq_true_eq]
        omega
      have further : (marker :: rest).filter (fun marker => index + 1 ≤ marker.index) =
          marker :: rest := by
        apply List.filter_eq_self.mpr
        intro other member
        exact decide_eq_true (above other member)
      have all : (marker :: rest).filter (fun marker => index ≤ marker.index) =
          marker :: rest := by
        apply List.filter_eq_self.mpr
        intro other member
        exact decide_eq_true (Int.le_of_lt (above other member))
      rw [none, further, all, List.nil_append]

end Marker

end MailRoom
