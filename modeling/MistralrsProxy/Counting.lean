import Mathlib.Algebra.BigOperators.Ring.List
import Mathlib.Algebra.Order.BigOperators.Group.List
import Mathlib.Algebra.Order.Ring.Nat

/-! Counting over a list of distinct keys: how a count moves when one key changes, and the size of a list
from the sizes of its fibres. Nothing here refers to a particular program. -/

namespace Counting

variable {κ α : Type} {keys : List κ}

theorem sum_toNat_eq_countP (p : κ → Bool) : (keys.map fun k => (p k).toNat).sum = keys.countP p := by
  induction keys with
  | nil => rfl
  | cons head rest ih =>
      rw [List.map_cons, List.sum_cons, ih, List.countP_cons, Nat.add_comm]
      cases p head <;> simp

/-- If every element passes exactly one of the tests, the counts add up to the length. -/
theorem length_eq_sum_countP (tests : List (α → Bool)) (items : List α)
    (h : ∀ item ∈ items, (tests.map fun test => (test item).toNat).sum = 1) :
    items.length = (tests.map fun test => items.countP test).sum := by
  induction items with
  | nil => simp
  | cons item rest ih =>
      have hcons : ∀ test : α → Bool, (item :: rest).countP test = rest.countP test + (test item).toNat := by
        intro test
        rw [List.countP_cons]
        cases test item <;> rfl
      simp only [hcons]
      rw [List.sum_map_add, ← ih fun other hmem => h other (List.mem_cons_of_mem _ hmem), h item List.mem_cons_self,
        List.length_cons]

variable [DecidableEq κ]

/-- A count moves with the one key whose value may change. -/
theorem countP_of_frame {p q : κ → Bool} {key : κ} (hnodup : keys.Nodup) (hmem : key ∈ keys)
    (hframe : ∀ other, other ≠ key → q other = p other) :
    keys.countP q + (p key).toNat = keys.countP p + (q key).toNat := by
  induction keys with
  | nil => cases hmem
  | cons head rest ih =>
      rw [List.nodup_cons] at hnodup
      by_cases hhead : head = key
      · subst hhead
        have hrest : rest.countP q = rest.countP p := by
          apply List.countP_congr
          intro other hother
          rw [hframe other (fun h => hnodup.1 (h ▸ hother))]
        rw [List.countP_cons, List.countP_cons, hrest]
        cases p head <;> cases q head <;> simp
      · have hrest := ih hnodup.2 ((List.mem_cons.mp hmem).resolve_left (Ne.symm hhead))
        rw [List.countP_cons, List.countP_cons, hframe head hhead]
        omega

theorem sum_indicator {M : Type} [AddCommMonoid M] (weight : M) {key : κ} (hnodup : keys.Nodup) (hmem : key ∈ keys) :
    (keys.map fun other => if key = other then weight else 0).sum = weight := by
  induction keys with
  | nil => cases hmem
  | cons head rest ih =>
      rw [List.nodup_cons] at hnodup
      by_cases hhead : key = head
      · subst hhead
        have hrest : (rest.map fun other => if key = other then weight else 0).sum = 0 := by
          apply List.sum_eq_zero
          intro value hvalue
          obtain ⟨other, hother, rfl⟩ := List.mem_map.mp hvalue
          have hne : key ≠ other := by
            rintro rfl
            exact hnodup.1 hother
          exact if_neg hne
        rw [List.map_cons, List.sum_cons, if_pos rfl, hrest, add_zero]
      · have hrest := ih hnodup.2 ((List.mem_cons.mp hmem).resolve_left hhead)
        rw [List.map_cons, List.sum_cons, if_neg hhead, hrest, zero_add]

/-- A sum over the elements that have a key is the sum over the fibres. -/
theorem sum_weights {M : Type} [AddCommMonoid M] (weight : α → M) (key : α → Option κ) (items : List α)
    (hnodup : keys.Nodup) (hkeys : ∀ item ∈ items, ∀ k, key item = some k → k ∈ keys) :
    (keys.map fun k => ((items.filter fun item => key item = some k).map weight).sum).sum =
      ((items.filter fun item => (key item).isSome).map weight).sum := by
  induction items with
  | nil => simp
  | cons item rest ih =>
      have hrest := ih (fun other hother => hkeys other (List.mem_cons_of_mem _ hother))
      cases hkey : key item with
      | none =>
          simp only [List.filter_cons, hkey, Option.isSome_none, Bool.false_eq_true, if_false, reduceCtorEq,
            decide_false]
          exact hrest
      | some name =>
          have hitem := sum_indicator (weight item) hnodup (hkeys item List.mem_cons_self name hkey)
          have hsplit : ∀ k, (((item :: rest).filter fun item => key item = some k).map weight).sum =
              (if name = k then weight item else 0) + ((rest.filter fun item => key item = some k).map weight).sum := by
            intro k
            by_cases hk : name = k
            · simp [hkey, hk]
            · simp [hkey, hk]
          simp only [hsplit]
          rw [List.sum_map_add, hitem, hrest]
          simp [hkey]

/-- Every element lies in exactly one fibre. -/
theorem sum_fibres (key : α → κ) (items : List α) (hnodup : keys.Nodup) (hkeys : ∀ item ∈ items, key item ∈ keys) :
    (keys.map fun k => items.countP fun item => key item == k).sum = items.length := by
  induction items with
  | nil => simp
  | cons item rest ih =>
      have hrest := ih (fun other hother => hkeys other (List.mem_cons_of_mem _ hother))
      have hitem := sum_indicator 1 hnodup (hkeys item List.mem_cons_self)
      simp only [List.countP_cons, beq_iff_eq, List.length_cons]
      rw [List.sum_map_add, hrest, hitem]

/-- A bound on every fibre that has a mark, when the others are empty. -/
theorem length_le_of_fibres (key : α → κ) (items : List α) (marked : κ → Bool) (bound : ℕ)
    (hnodup : keys.Nodup) (hkeys : ∀ item ∈ items, key item ∈ keys)
    (hfibre : ∀ k ∈ keys, (items.countP fun item => key item == k) ≤ (marked k).toNat * bound) :
    items.length ≤ keys.countP marked * bound := by
  calc items.length = (keys.map fun k => items.countP fun item => key item == k).sum :=
        (sum_fibres key items hnodup hkeys).symm
    _ ≤ (keys.map fun k => (marked k).toNat * bound).sum := List.sum_le_sum hfibre
    _ = keys.countP marked * bound := by rw [List.sum_map_mul_right, sum_toNat_eq_countP]

end Counting
