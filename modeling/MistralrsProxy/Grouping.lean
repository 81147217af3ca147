import MistralrsProxy.Counting
import MistralrsProxy.KeyedTable

/-! Grouping the items of a list: a table with one row per key, each of which accumulates the items that have the
key. A row depends only on those items, so sums over the rows are sums over the items, and the rows do not
depend on the order of the items. Nothing here refers to a particular program. -/

namespace Grouping

open Keyed

variable {α κ T : Type} [DecidableEq κ]

/-- A table of rows by name. -/
abbrev Groups (κ T : Type) := Table (Prod.fst : κ × T → κ)

namespace Groups

variable {groups other : Groups κ T} {key : α → Option κ} {total : List α → T} {items : List α}

/-- The accumulated value of a row. -/
def value (k : κ) (groups : Groups κ T) : Option T := (groups.find? k).map Prod.snd

/-- Replace a row, or add it. -/
def set (k : κ) (value : T) (groups : Groups κ T) : Groups κ T :=
  if h : k ∈ groups.entries.map Prod.fst then groups.put (k, value)
  else ⟨groups.entries ++ [(k, value)], by
    rw [List.map_append]
    exact groups.nodup.append (List.nodup_singleton _) (by simpa using h)⟩

theorem value_eq_some_iff {k : κ} {value : T} : groups.value k = some value ↔ (k, value) ∈ groups.entries := by
  rw [Groups.value, Option.map_eq_some_iff]
  constructor
  · rintro ⟨⟨name, _⟩, hfind, rfl⟩
    obtain ⟨hmem, rfl⟩ := Table.find?_eq_some_iff.mp hfind
    exact hmem
  · intro hmem
    exact ⟨(k, value), Table.find?_eq_some_iff.mpr ⟨hmem, rfl⟩, rfl⟩

theorem value_set (k j : κ) (value : T) (groups : Groups κ T) :
    (groups.set k value).value j = if j = k then some value else groups.value j := by
  unfold set
  split
  · rename_i hmem
    obtain ⟨entry, hentry, rfl⟩ := List.mem_map.mp hmem
    rw [Groups.value, Groups.value, Table.find?_put]
    by_cases hj : j = entry.1
    · rw [if_pos hj, if_pos hj, hj, Table.find?_key hentry]
      rfl
    · rw [if_neg hj, if_neg hj]
  · rename_i hmem
    simp only [Groups.value, Table.find?, List.find?_append]
    by_cases hj : j = k
    · have hnone : groups.entries.find? (fun entry => decide (entry.1 = j)) = none := by
        rw [List.find?_eq_none]
        rintro entry hentry hkey
        rw [decide_eq_true_eq, hj] at hkey
        exact hmem (List.mem_map.mpr ⟨entry, hentry, hkey⟩)
      rw [hnone, if_pos hj]
      simp [hj]
    · have hne : k ≠ j := Ne.symm hj
      simp [hj, hne]

/-- The rows are those of the keys of the items, with the total of the items of each key. -/
def GroupedBy (key : α → Option κ) (total : List α → T) (items : List α) (groups : Groups κ T) : Prop :=
  ∀ k, groups.value k =
    if (items.filter fun item => key item = some k) = [] then none
    else some (total (items.filter fun item => key item = some k))

theorem groupedBy_nil : GroupedBy key total [] (Table.empty : Groups κ T) := by
  intro k
  rw [List.filter_nil, if_pos rfl]
  rfl

/-- An item without a key belongs to no row. -/
theorem GroupedBy.skip (h : GroupedBy key total items groups) {item : α} (hkey : key item = none) :
    GroupedBy key total (items ++ [item]) groups := by
  intro k
  have hfilter : ((items ++ [item]).filter fun item => key item = some k) =
      items.filter fun item => key item = some k := by
    simp [List.filter_append, hkey]
  rw [hfilter]
  exact h k

/-- An item with a key is added to its row. -/
theorem GroupedBy.add (h : GroupedBy key total items groups) {item : α} {name : κ} (hkey : key item = some name)
    {value : T} (hvalue : value = total ((items.filter fun item => key item = some name) ++ [item])) :
    GroupedBy key total (items ++ [item]) (groups.set name value) := by
  intro k
  rw [value_set]
  by_cases hk : k = name
  · have hfilter : ((items ++ [item]).filter fun item => key item = some k) =
        (items.filter fun item => key item = some k) ++ [item] := by
      simp [List.filter_append, hkey, hk]
    rw [if_pos hk, hfilter, if_neg (by simp), hvalue, hk]
  · have hfilter : ((items ++ [item]).filter fun item => key item = some k) =
        items.filter fun item => key item = some k := by
      simp [List.filter_append, hkey, Ne.symm hk]
    rw [if_neg hk, hfilter]
    exact h k

/-- What a row holds before the next item is added. -/
theorem GroupedBy.getD (h : GroupedBy key total items groups) {zero : T} (hzero : total [] = zero) (name : κ) :
    (groups.value name).getD zero = total (items.filter fun item => key item = some name) := by
  rw [h name]
  by_cases hempty : (items.filter fun item => key item = some name) = []
  · rw [if_pos hempty, hempty, hzero]
    rfl
  · rw [if_neg hempty]
    rfl

theorem GroupedBy.mem_iff (h : GroupedBy key total items groups) {name : κ} {value : T} :
    (name, value) ∈ groups.entries ↔ (∃ item ∈ items, key item = some name) ∧
      value = total (items.filter fun item => key item = some name) := by
  rw [← value_eq_some_iff, h name]
  by_cases hempty : (items.filter fun item => key item = some name) = []
  · rw [if_pos hempty]
    rw [List.filter_eq_nil_iff] at hempty
    constructor
    · intro hnone
      cases hnone
    · rintro ⟨⟨item, hmem, hkey⟩, _⟩
      exact absurd (decide_eq_true hkey) (hempty item hmem)
  · rw [if_neg hempty, Option.some.injEq]
    obtain ⟨item, hitem⟩ := List.exists_mem_of_ne_nil _ hempty
    obtain ⟨hmem, hkey⟩ := List.mem_filter.mp hitem
    constructor
    · intro hvalue
      exact ⟨⟨item, hmem, of_decide_eq_true hkey⟩, hvalue.symm⟩
    · rintro ⟨_, hvalue⟩
      exact hvalue.symm

/-- A sum over the rows is a sum over the items that have a key. -/
theorem GroupedBy.sum (h : GroupedBy key total items groups) {M : Type} [AddCommMonoid M] (measure : T → M)
    (weight : α → M) (hmeasure : ∀ rows : List α, rows.Sublist items → measure (total rows) = (rows.map weight).sum) :
    (groups.entries.map fun row => measure row.2).sum =
      ((items.filter fun item => (key item).isSome).map weight).sum := by
  have hrows : groups.entries.map (fun row => measure row.2) =
      (groups.entries.map Prod.fst).map fun k => ((items.filter fun item => key item = some k).map weight).sum := by
    rw [List.map_map]
    apply List.map_congr_left
    rintro ⟨name, value⟩ hmem
    obtain ⟨_, rfl⟩ := h.mem_iff.mp hmem
    exact hmeasure _ List.filter_sublist
  rw [hrows]
  apply Counting.sum_weights weight key items groups.nodup
  intro item hmem k hkey
  exact List.mem_map.mpr ⟨(k, _), h.mem_iff.mpr ⟨⟨item, hmem, hkey⟩, rfl⟩, rfl⟩

/-- Whatever of the rows does not depend on the order of their items, does not depend on the order of all items. -/
theorem GroupedBy.perm {items' : List α} (h : GroupedBy key total items groups)
    (h' : GroupedBy key total items' other) (hperm : items.Perm items') {U : Type} (f : T → U)
    (htotal : ∀ rows rows' : List α, rows.Perm rows' → f (total rows) = f (total rows')) :
    (groups.entries.map fun row => (row.1, f row.2)).Perm (other.entries.map fun row => (row.1, f row.2)) := by
  have hnames : ∀ table : Groups κ T, (table.entries.map fun row => (row.1, f row.2)).Nodup := by
    intro table
    apply List.Nodup.of_map Prod.fst
    rw [List.map_map]
    exact table.nodup
  refine (List.perm_ext_iff_of_nodup (hnames groups) (hnames other)).mpr ?_
  have hrows : ∀ {table : Groups κ T} {items : List α}, GroupedBy key total items table → ∀ name value,
      (name, value) ∈ table.entries.map (fun row => (row.1, f row.2)) ↔ (∃ item ∈ items, key item = some name) ∧
        value = f (total (items.filter fun item => key item = some name)) := by
    intro table items h name value
    rw [List.mem_map]
    constructor
    · rintro ⟨⟨_, row⟩, hmem, heq⟩
      obtain ⟨rfl, rfl⟩ := Prod.mk.inj heq
      obtain ⟨hitem, rfl⟩ := h.mem_iff.mp hmem
      exact ⟨hitem, rfl⟩
    · rintro ⟨hitem, rfl⟩
      exact ⟨(name, _), h.mem_iff.mpr ⟨hitem, rfl⟩, rfl⟩
  rintro ⟨name, value⟩
  rw [hrows h, hrows h', htotal _ _ (hperm.filter fun item => key item = some name)]
  apply and_congr_left
  intro _
  constructor
  · rintro ⟨item, hmem, hkey⟩
    exact ⟨item, hperm.mem_iff.mp hmem, hkey⟩
  · rintro ⟨item, hmem, hkey⟩
    exact ⟨item, hperm.mem_iff.mpr hmem, hkey⟩

theorem GroupedBy.value_perm {items' : List α} (h : GroupedBy key total items groups)
    (h' : GroupedBy key total items' other) (hperm : items.Perm items')
    (htotal : ∀ rows rows' : List α, rows.Perm rows' → total rows = total rows') (k : κ) :
    groups.value k = other.value k := by
  have hfilter := hperm.filter fun item => key item = some k
  rw [h k, h' k, htotal _ _ hfilter]
  simp only [← List.length_eq_zero_iff, hfilter.length_eq]

end Groups

end Grouping
