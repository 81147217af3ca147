import Mathlib.Data.List.Basic

/-! Sequences cut at a delimiter: the pieces that a delimiter ends, and what follows the last of them. What
follows is the part that an incremental reader has to carry over. Nothing here refers to a particular
program. -/

namespace Delimited

variable {α : Type}

/-- The pieces that a delimiter ends, and the rest behind the last delimiter. -/
structure Splits (delimiter : α) (content : List α) (pieces : List (List α)) (rest : List α) : Prop where
  content_eq : content = (pieces.map (· ++ [delimiter])).flatten ++ rest
  pieces_free : ∀ piece ∈ pieces, delimiter ∉ piece
  rest_free : delimiter ∉ rest

variable [DecidableEq α]

def split (delimiter : α) : List α → List (List α) × List α
  | [] => ([], [])
  | symbol :: content =>
      if symbol = delimiter then ([] :: (split delimiter content).1, (split delimiter content).2)
      else
        match split delimiter content with
        | ([], rest) => ([], symbol :: rest)
        | (piece :: pieces, rest) => ((symbol :: piece) :: pieces, rest)

variable (delimiter : α)

theorem split_cons_delimiter (content : List α) :
    split delimiter (delimiter :: content) = ([] :: (split delimiter content).1, (split delimiter content).2) := by
  simp [split]

/-- The rest behind the last delimiter is carried over to whatever is appended. -/
theorem split_append (first second : List α) :
    split delimiter (first ++ second) =
      ((split delimiter first).1 ++ (split delimiter ((split delimiter first).2 ++ second)).1,
        (split delimiter ((split delimiter first).2 ++ second)).2) := by
  induction first with
  | nil => rfl
  | cons symbol first ih =>
      rw [List.cons_append]
      by_cases hsymbol : symbol = delimiter
      · rw [hsymbol, split_cons_delimiter, split_cons_delimiter, ih]
        rfl
      · simp only [split, hsymbol, if_false]
        rw [ih]
        cases hfirst : split delimiter first with
        | mk pieces rest =>
            cases pieces with
            | nil => simp [split, hsymbol]
            | cons piece pieces => rfl

theorem split_splits (content : List α) :
    Splits delimiter content (split delimiter content).1 (split delimiter content).2 := by
  induction content with
  | nil => exact ⟨rfl, fun _ h => absurd h List.not_mem_nil, List.not_mem_nil⟩
  | cons symbol content ih =>
      obtain ⟨hcontent, hpieces, hrest⟩ := ih
      by_cases hsymbol : symbol = delimiter
      · rw [hsymbol, split_cons_delimiter]
        refine ⟨?_, ?_, hrest⟩
        · simp only [List.map_cons, List.flatten_cons, List.nil_append, List.cons_append]
          rw [← hcontent]
        · intro piece hmem
          rcases List.mem_cons.mp hmem with rfl | hmem
          · exact List.not_mem_nil
          · exact hpieces piece hmem
      · have hne : delimiter ≠ symbol := Ne.symm hsymbol
        simp only [split, hsymbol, if_false]
        cases hsplit : split delimiter content with
        | mk pieces rest =>
            rw [hsplit] at hcontent hpieces hrest
            cases pieces with
            | nil =>
                refine ⟨?_, fun _ h => absurd h List.not_mem_nil, ?_⟩
                · rw [hcontent]
                  rfl
                · rw [List.mem_cons, not_or]
                  exact ⟨hne, hrest⟩
            | cons piece pieces =>
                refine ⟨?_, ?_, hrest⟩
                · rw [hcontent]
                  rfl
                · intro other hmem
                  rcases List.mem_cons.mp hmem with rfl | hmem
                  · rw [List.mem_cons, not_or]
                    exact ⟨hne, hpieces piece List.mem_cons_self⟩
                  · exact hpieces other (List.mem_cons_of_mem _ hmem)

theorem split_free {rest : List α} (h : delimiter ∉ rest) : split delimiter rest = ([], rest) := by
  induction rest with
  | nil => rfl
  | cons symbol rest ih =>
      rw [List.mem_cons, not_or] at h
      simp [split, Ne.symm h.1, ih h.2]

theorem split_piece {piece : List α} (h : delimiter ∉ piece) (content : List α) :
    split delimiter (piece ++ delimiter :: content) =
      (piece :: (split delimiter content).1, (split delimiter content).2) := by
  induction piece with
  | nil => exact split_cons_delimiter delimiter content
  | cons symbol piece ih =>
      rw [List.mem_cons, not_or] at h
      simp [split, Ne.symm h.1, ih h.2]

variable {delimiter} in
/-- There is one way to cut a sequence. -/
theorem Splits.eq_split {content rest : List α} {pieces : List (List α)} (h : Splits delimiter content pieces rest) :
    split delimiter content = (pieces, rest) := by
  obtain ⟨rfl, hpieces, hrest⟩ := h
  induction pieces with
  | nil => exact split_free delimiter hrest
  | cons piece pieces ih =>
      simp only [List.map_cons, List.flatten_cons, List.append_assoc, List.cons_append, List.nil_append]
      rw [split_piece delimiter (hpieces piece List.mem_cons_self), ih fun other hmem =>
        hpieces other (List.mem_cons_of_mem _ hmem)]

/-- Every piece has its delimiter. -/
theorem length_pieces_le (content : List α) : (split delimiter content).1.length ≤ content.length := by
  have hpieces : ∀ pieces : List (List α), pieces.length ≤ ((pieces.map (· ++ [delimiter])).flatten).length := by
    intro pieces
    induction pieces with
    | nil => exact Nat.le_refl _
    | cons piece pieces ih =>
        simp only [List.map_cons, List.flatten_cons, List.length_append, List.length_cons, List.length_nil]
        omega
  have hlength := congrArg List.length (split_splits delimiter content).content_eq
  rw [List.length_append] at hlength
  have := hpieces (split delimiter content).1
  omega

end Delimited
