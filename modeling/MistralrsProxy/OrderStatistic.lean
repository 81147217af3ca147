import Mathlib.Data.List.Sort
import Mathlib.Order.Bounds.Basic

/-! Order statistics of a list: in an ascending list the element at a position is the least one with more elements at or
below it than the position says. Nothing here refers to a particular program. -/

namespace OrderStatistic

variable {α : Type} [LinearOrder α] {items : List α} {position : Nat}

/-- How many elements are at most `x`. -/
def countLe (x : α) (items : List α) : Nat := items.countP fun item => decide (item ≤ x)

theorem countLe_perm {items' : List α} (h : items.Perm items') (x : α) : countLe x items = countLe x items' :=
  h.countP_eq _

theorem countLe_pos {x : α} (h : x ∈ items) : 0 < countLe x items :=
  List.countP_pos_iff.mpr ⟨x, h, decide_eq_true (le_refl x)⟩

/-- The elements up to a position are at most the one that is there. -/
theorem lt_countLe_getElem (hsorted : items.Pairwise (· ≤ ·)) (h : position < items.length) :
    position < countLe items[position] items := by
  have htake : countLe items[position] (items.take (position + 1)) = (items.take (position + 1)).length := by
    apply List.countP_eq_length.mpr
    intro item hitem
    obtain ⟨index, hindex, rfl⟩ := List.mem_iff_getElem.mp hitem
    rw [List.getElem_take]
    rw [List.length_take] at hindex
    apply decide_eq_true
    rcases Nat.lt_or_ge index position with hlt | hge
    · exact List.pairwise_iff_getElem.mp hsorted index position (by omega) h hlt
    · obtain rfl : index = position := by omega
      exact le_refl _
  have hsplit : countLe items[position] items =
      countLe items[position] (items.take (position + 1)) + countLe items[position] (items.drop (position + 1)) := by
    unfold countLe
    rw [← List.countP_append, List.take_append_drop]
  rw [hsplit, htake, List.length_take]
  omega

/-- A smaller bound leaves only the elements in front of the position. -/
theorem countLe_le_of_lt_getElem (hsorted : items.Pairwise (· ≤ ·)) (h : position < items.length) {x : α}
    (hx : x < items[position]) : countLe x items ≤ position := by
  have hdrop : countLe x (items.drop position) = 0 := by
    apply List.countP_eq_zero.mpr
    intro item hitem hle
    obtain ⟨index, hindex, rfl⟩ := List.mem_iff_getElem.mp hitem
    rw [List.getElem_drop] at hle
    rw [List.length_drop] at hindex
    have hfrom : items[position] ≤ items[position + index] := by
      rcases Nat.eq_zero_or_pos index with rfl | hpos
      · exact le_refl _
      · exact List.pairwise_iff_getElem.mp hsorted position (position + index) h (by omega) (by omega)
    exact absurd (hfrom.trans (of_decide_eq_true hle)) (not_le_of_gt hx)
  have hsplit : countLe x items = countLe x (items.take position) + countLe x (items.drop position) := by
    unfold countLe
    rw [← List.countP_append, List.take_append_drop]
  rw [hsplit, hdrop, Nat.add_zero]
  calc
    countLe x (items.take position) ≤ (items.take position).length := List.countP_le_length
    _ ≤ position := by rw [List.length_take]; omega

/-- The element at a position is an order statistic. -/
theorem isLeast_getElem (hsorted : items.Pairwise (· ≤ ·)) (h : position < items.length) :
    IsLeast {x | x ∈ items ∧ position < countLe x items} items[position] := by
  refine ⟨⟨List.getElem_mem h, lt_countLe_getElem hsorted h⟩, ?_⟩
  rintro x ⟨_, hx⟩
  by_contra hlt
  exact absurd hx (Nat.not_lt.mpr (countLe_le_of_lt_getElem hsorted h (not_le.mp hlt)))

/-- The last element of an ascending list is its greatest. -/
theorem isGreatest_getLast (hsorted : items.Pairwise (· ≤ ·)) (h : items ≠ []) :
    IsGreatest {x | x ∈ items} (items.getLast h) := by
  refine ⟨List.getLast_mem h, ?_⟩
  intro x hx
  obtain ⟨index, hindex, rfl⟩ := List.mem_iff_getElem.mp hx
  rw [List.getLast_eq_getElem]
  rcases Nat.lt_or_ge index (items.length - 1) with hlt | hge
  · exact List.pairwise_iff_getElem.mp hsorted index (items.length - 1) hindex (by omega) hlt
  · have hlast : index = items.length - 1 := by omega
    subst hlast
    exact le_refl _

end OrderStatistic
