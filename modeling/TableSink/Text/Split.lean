/-!
# Cutting a text at a separator

`split sep` cuts at every separator and keeps empty pieces, so there is always one piece more than
there are separators. Pieces that hold no separator come back when they were joined.
-/

namespace TableSink.Text

/-- The pieces of a text between separators; the text without a separator is its only piece. -/
def split (sep : Char) : List Char → List (List Char)
  | [] => [[]]
  | c :: cs =>
    if c = sep then [] :: split sep cs
    else match split sep cs with
      | [] => [[c]]
      | piece :: pieces => (c :: piece) :: pieces

/-- The pieces in a row, one separator between neighbours. -/
def join (sep : Char) : List (List Char) → List Char
  | [] => []
  | [piece] => piece
  | piece :: next :: pieces => piece ++ sep :: join sep (next :: pieces)

/-- A text without the separator is one piece. -/
theorem split_eq_singleton {sep : Char} {cs : List Char} (h : sep ∉ cs) : split sep cs = [cs] := by
  induction cs with
  | nil => rfl
  | cons c cs ih =>
    simp only [List.mem_cons, not_or] at h
    simp [split, ih h.2, Ne.symm h.1]

/-- A piece, a separator and a rest are cut at that separator. -/
theorem split_append_cons {sep : Char} {piece : List Char} (h : sep ∉ piece) (rest : List Char) :
    split sep (piece ++ sep :: rest) = piece :: split sep rest := by
  induction piece with
  | nil => simp [split]
  | cons c cs ih =>
    simp only [List.mem_cons, not_or] at h
    simp [split, ih h.2, Ne.symm h.1]

/-- Pieces that hold no separator come back from the joined text. -/
theorem split_join {sep : Char} {pieces : List (List Char)} (hne : pieces ≠ [])
    (h : ∀ piece ∈ pieces, sep ∉ piece) : split sep (join sep pieces) = pieces := by
  induction pieces with
  | nil => exact absurd rfl hne
  | cons piece pieces ih =>
    cases pieces with
    | nil => simpa [join] using split_eq_singleton (h piece (by simp))
    | cons next rest =>
      rw [join, split_append_cons (h piece (by simp)),
        ih (by simp) fun p hp ↦ h p (List.mem_cons_of_mem _ hp)]

end TableSink.Text
