import Mathlib.Data.List.Nodup

/-! Finite tables whose entries carry their own key, with at most one entry per key. They stand for hash
maps: the order of the entries is there to compute with, and no lookup depends on it. Nothing here refers
to a particular program. -/

namespace Keyed

variable {K V : Type}

/-- A table of entries with pairwise distinct keys. -/
structure Table (key : V → K) where
  entries : List V
  nodup : (entries.map key).Nodup

namespace Table

variable {key : V → K}

theorem ext {table other : Table key} (h : table.entries = other.entries) : table = other := by
  cases table
  cases other
  simp only at h
  subst h
  rfl

def empty : Table key := ⟨[], List.nodup_nil⟩

/-- Two entries of a table with one key are the same entry. -/
theorem eq_of_key (table : Table key) {first second : V} (hfirst : first ∈ table.entries)
    (hsecond : second ∈ table.entries) (hkey : key first = key second) : first = second :=
  List.inj_on_of_nodup_map table.nodup hfirst hsecond hkey

/-- Apply a function that keeps keys to every entry. -/
def mapEntries {W : Type} {key' : W → K} (f : V → W) (hf : ∀ entry, key' (f entry) = key entry)
    (table : Table key) : Table key' where
  entries := table.entries.map f
  nodup := by
    have hkeys : (table.entries.map f).map key' = table.entries.map key := by
      rw [List.map_map]
      exact List.map_congr_left (fun entry _ => hf entry)
    rw [hkeys]
    exact table.nodup

/-- Keep the entries that pass a test. -/
def filter (test : V → Bool) (table : Table key) : Table key where
  entries := table.entries.filter test
  nodup := (table.nodup).sublist (List.Sublist.map key List.filter_sublist)

/-- Join the entries of two tables without a common key. -/
def union (table other : Table key)
    (h : ∀ entry ∈ table.entries, ∀ entry' ∈ other.entries, key entry ≠ key entry') : Table key where
  entries := table.entries ++ other.entries
  nodup := by
    rw [List.map_append, List.nodup_append]
    refine ⟨table.nodup, other.nodup, ?_⟩
    intro first hfirst second hsecond
    obtain ⟨entry, hentry, rfl⟩ := List.mem_map.mp hfirst
    obtain ⟨entry', hentry', rfl⟩ := List.mem_map.mp hsecond
    exact h entry hentry entry' hentry'

variable [DecidableEq K]

def find? (k : K) (table : Table key) : Option V := table.entries.find? fun entry => decide (key entry = k)

theorem find?_eq_some_iff {table : Table key} {k : K} {entry : V} :
    table.find? k = some entry ↔ entry ∈ table.entries ∧ key entry = k := by
  constructor
  · intro h
    exact ⟨List.mem_of_find?_eq_some h, by simpa using List.find?_some h⟩
  · rintro ⟨hmem, rfl⟩
    cases hfind : table.find? (key entry) with
    | none =>
        have := List.find?_eq_none.mp hfind entry hmem
        simp at this
    | some other =>
        have hother : key other = key entry := by simpa using List.find?_some hfind
        rw [table.eq_of_key (List.mem_of_find?_eq_some hfind) hmem hother]

theorem find?_eq_none_iff {table : Table key} {k : K} :
    table.find? k = none ↔ ∀ entry ∈ table.entries, key entry ≠ k := by
  simp [find?, List.find?_eq_none]

theorem find?_key {table : Table key} {entry : V} (hmem : entry ∈ table.entries) :
    table.find? (key entry) = some entry := find?_eq_some_iff.mpr ⟨hmem, rfl⟩

theorem key_of_find? {table : Table key} {k : K} {entry : V} (h : table.find? k = some entry) :
    key entry = k := (find?_eq_some_iff.mp h).2

theorem mem_of_find? {table : Table key} {k : K} {entry : V} (h : table.find? k = some entry) :
    entry ∈ table.entries := (find?_eq_some_iff.mp h).1

theorem find?_mapEntries {W : Type} {key' : W → K} (f : V → W) (hf : ∀ entry, key' (f entry) = key entry)
    (table : Table key) (k : K) : (table.mapEntries f hf).find? k = (table.find? k).map f := by
  simp only [find?, mapEntries, List.find?_map]
  congr 1
  apply congrArg (fun test => table.entries.find? test)
  funext entry
  simp [hf]

theorem find?_filter (test : V → Bool) (table : Table key) (k : K) :
    (table.filter test).find? k = (table.find? k).filter test := by
  cases hfind : table.find? k with
  | none =>
      rw [find?_eq_none_iff] at hfind
      rw [Option.filter_none, find?_eq_none_iff]
      intro entry hmem
      exact hfind entry (List.mem_of_mem_filter hmem)
  | some entry =>
      obtain ⟨hmem, hkey⟩ := find?_eq_some_iff.mp hfind
      by_cases htest : test entry = true
      · rw [Option.filter_some_pos htest, find?_eq_some_iff]
        exact ⟨List.mem_filter.mpr ⟨hmem, htest⟩, hkey⟩
      · rw [Option.filter_some_neg (by simpa using htest), find?_eq_none_iff]
        intro other hother hkey'
        obtain ⟨hmem', htest'⟩ := List.mem_filter.mp hother
        rw [table.eq_of_key hmem' hmem (hkey'.trans hkey.symm)] at htest'
        exact htest htest'

theorem find?_union (table other : Table key)
    (h : ∀ entry ∈ table.entries, ∀ entry' ∈ other.entries, key entry ≠ key entry') (k : K) :
    (table.union other h).find? k = (table.find? k).or (other.find? k) := by
  simp only [find?, union, List.find?_append]

/-- Replace the entry that has the key of the given one, if there is any. -/
def put (entry : V) (table : Table key) : Table key :=
  table.mapEntries (fun old => if key old = key entry then entry else old) (fun old => by split <;> simp [*])

/-- Apply a function to the entry of one key. -/
def update (k : K) (f : V → V) (table : Table key) : Table key :=
  match table.find? k with
  | none => table
  | some entry => table.put (f entry)

theorem find?_put (entry : V) (table : Table key) (k : K) :
    (table.put entry).find? k =
      if k = key entry then (table.find? k).map (fun _ => entry) else table.find? k := by
  rw [put, find?_mapEntries]
  cases hfind : table.find? k with
  | none => simp
  | some old =>
      rw [← key_of_find? hfind]
      split <;> simp [*]

theorem find?_update {k : K} {f : V → V} {table : Table key}
    (hf : ∀ entry, table.find? k = some entry → key (f entry) = k) (j : K) :
    (table.update k f).find? j = if j = k then (table.find? k).map f else table.find? j := by
  unfold update
  cases hfind : table.find? k with
  | none =>
      by_cases hjk : j = k
      · simp [hjk, hfind]
      · simp [hjk]
  | some entry =>
      simp only
      rw [find?_put, hf entry hfind]
      by_cases hjk : j = k
      · simp [hjk, hfind]
      · simp [hjk]

/-- Add one entry at the end; the key of an entry that is already there is refused. -/
def push (entry : V) (table : Table key) : Except K (Table key) :=
  if h : key entry ∈ table.entries.map key then .error (key entry)
  else .ok ⟨table.entries ++ [entry], by
    rw [List.map_append]
    exact table.nodup.append (List.nodup_singleton _) (by simpa using h)⟩

/-- Collect entries from the left, up to the first repeated key. -/
def collect (entries : List V) : Except K (Table key) := entries.foldlM (fun table entry => table.push entry) empty

theorem foldlM_push_ok {entries : List V} {start table : Table key}
    (h : entries.foldlM (fun table entry => table.push entry) start = Except.ok table) :
    table.entries = start.entries ++ entries := by
  induction entries generalizing start with
  | nil =>
      cases h
      simp
  | cons entry rest ih =>
      rw [List.foldlM_cons] at h
      by_cases hkey : key entry ∈ start.entries.map key
      · rw [push, dif_pos hkey] at h
        cases h
      · rw [push, dif_neg hkey] at h
        rw [ih h]
        simp

theorem collect_ok {entries : List V} {table : Table key} (h : collect entries = .ok table) :
    table.entries = entries := by
  simpa [empty] using foldlM_push_ok h

theorem foldlM_push_of_nodup {entries : List V} (start : Table key)
    (h : ((start.entries ++ entries).map key).Nodup) :
    entries.foldlM (fun table entry => table.push entry) start = Except.ok ⟨start.entries ++ entries, h⟩ := by
  induction entries generalizing start with
  | nil =>
      simp only [List.append_nil, List.foldlM_nil]
      rfl
  | cons entry rest ih =>
      have hkey : key entry ∉ start.entries.map key := by
        rw [List.map_append, List.map_cons] at h
        intro hmem
        exact (List.nodup_append.mp h).2.2 _ hmem _ (List.mem_cons_self) rfl
      rw [List.foldlM_cons, push, dif_neg hkey]
      have hrest := ih ⟨start.entries ++ [entry], by
        rw [List.map_append]
        exact start.nodup.append (List.nodup_singleton _) (by simpa using hkey)⟩ (by simpa using h)
      simp only [List.append_assoc, List.singleton_append] at hrest
      exact hrest

/-- Collecting succeeds exactly on entries with distinct keys, and keeps them in order. -/
theorem collect_of_nodup {entries : List V} (h : (entries.map key).Nodup) :
    collect entries = .ok (⟨entries, h⟩ : Table key) := by
  have hall := foldlM_push_of_nodup empty (by simpa [empty] using h : ((empty.entries ++ entries).map key).Nodup)
  simpa [collect, empty] using hall

end Table

end Keyed
