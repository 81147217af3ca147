import Mathlib.Data.List.Sort
import Mathlib.Order.Monotone.Defs

/-! Greedy assignment. Work is given one piece at a time to the member of a pool whose load would be least
with it; then no member that received something is loaded more than any other would be with one piece more.
Nothing here refers to a particular program. -/

namespace Greedy

variable {ι κ : Type}

/-- Sorting puts a least element first, for any order that is total and transitive on the elements. -/
theorem head_insertionSort {α : Type} {r : α → α → Prop} [DecidableRel r] {elements : List α}
    (htotal : ∀ first ∈ elements, ∀ second ∈ elements, r first second ∨ r second first)
    (htrans : ∀ first ∈ elements, ∀ second ∈ elements, ∀ third ∈ elements, r first second → r second third →
      r first third)
    {head : α} {rest : List α} (h : elements.insertionSort r = head :: rest) :
    head ∈ elements ∧ ∀ other ∈ elements, r head other := by
  induction elements generalizing head rest with
  | nil => cases h
  | cons first elements ih =>
      have hsub : ∀ {other}, other ∈ elements → other ∈ first :: elements := List.mem_cons_of_mem _
      have hself : r first first := (htotal first List.mem_cons_self first List.mem_cons_self).elim id id
      cases hsorted : elements.insertionSort r with
      | nil =>
          have hnone : elements = [] :=
            List.eq_nil_of_length_eq_zero (by rw [← List.length_insertionSort r, hsorted]; rfl)
          subst hnone
          cases h
          refine ⟨List.mem_cons_self, ?_⟩
          intro other hmem
          rw [List.mem_singleton.mp hmem]
          exact hself
      | cons least sorted =>
          obtain ⟨hleast, hbelow⟩ := ih (fun a ha b hb => htotal a (hsub ha) b (hsub hb))
            (fun a ha b hb c hc => htrans a (hsub ha) b (hsub hb) c (hsub hc)) hsorted
          rw [List.insertionSort_cons, hsorted] at h
          by_cases hfirst : r first least
          · rw [List.orderedInsert_cons_of_le r sorted hfirst] at h
            cases h
            refine ⟨List.mem_cons_self, ?_⟩
            intro other hmem
            rcases List.mem_cons.mp hmem with rfl | hmem
            · exact hself
            · exact htrans _ List.mem_cons_self _ (hsub hleast) _ (hsub hmem) hfirst (hbelow other hmem)
          · rw [List.orderedInsert_of_not_le r sorted hfirst] at h
            cases h
            refine ⟨hsub hleast, ?_⟩
            intro other hmem
            rcases List.mem_cons.mp hmem with rfl | hmem
            · exact (htotal _ List.mem_cons_self _ (hsub hleast)).resolve_left hfirst
            · exact hbelow other hmem

/-- No member of the pool that was chosen is loaded more than another one would be with one piece more. -/
def Balanced [LE κ] (load : ι → ℕ → κ) (pool : Set ι) (count : ι → ℕ) (chosen : Set ι) : Prop :=
  ∀ i ∈ chosen, ∀ j ∈ pool, load i (count i) ≤ load j (count j + 1)

theorem balanced_empty [LE κ] (load : ι → ℕ → κ) (pool : Set ι) (count : ι → ℕ) : Balanced load pool count ∅ :=
  fun _ hmem => hmem.elim

/-- One more piece for a member whose load is least with it. -/
theorem Balanced.assign [Preorder κ] {load : ι → ℕ → κ} (hload : ∀ i, Monotone (load i)) {pool : Set ι}
    {count after : ι → ℕ} {chosen : Set ι} (h : Balanced load pool count chosen) {least : ι}
    (hleast : ∀ j ∈ pool, load least (count least + 1) ≤ load j (count j + 1))
    (hafter : after least ≤ count least + 1) (hgrows : ∀ i, count i ≤ after i)
    (hother : ∀ i, i ≠ least → after i = count i) :
    Balanced load pool after (insert least chosen) := by
  intro i hmem j hj
  have hgrown : load j (count j + 1) ≤ load j (after j + 1) := hload j (Nat.succ_le_succ (hgrows j))
  by_cases hi : i = least
  · subst hi
    calc load i (after i) ≤ load i (count i + 1) := hload i hafter
      _ ≤ load j (count j + 1) := hleast j hj
      _ ≤ load j (after j + 1) := hgrown
  · rw [hother i hi]
    exact (h i (hmem.resolve_left hi) j hj).trans hgrown

end Greedy
