import TableSink.Proofs.Config.Grammar

/-!
# Texts that stand for themselves

Where a text is to be filled in and none of its dollars is meant to start a form, each of them is
written twice. A row of dollars is then read in pairs from its first one on, so no dollar is left
over that could start a form with what follows, and this is so at the end of the text as well: what
comes behind it is read as if it stood alone (`Template.reads_escape`). Hence the text comes out as
it was, in front of whatever the rest comes to (`interpolate_escape`).
-/

namespace TableSink

namespace Template

/-- A character that is to stand for itself. -/
def escapeChar (c : Char) : List Char := if c = '$' then ['$', '$'] else [c]

/-- The text with every dollar written twice. -/
def escape (text : String) : String := String.ofList (text.toList.flatMap escapeChar)

variable {lookup : String → Option String} {cs rest : List Char} {ps : List Piece}

/-- A character other than a dollar starts no form. -/
theorem ne_form_append {c : Char} (hc : c ≠ '$') (taken after : List Char) (p : Piece)
    (h : Form taken after p) : c :: rest ≠ taken ++ after := by
  obtain ⟨more, rfl, -⟩ := h.form?_eq
  intro heq
  rw [List.cons_append] at heq
  exact hc (List.cons.inj heq).1

/-- In front of any text, an escaped text is read as its characters. The induction starts from the
end of it, since what is read first is what was escaped first. -/
theorem reads_escape (cs : List Char) (h : Reads rest ps) :
    Reads (cs.flatMap escapeChar ++ rest) (cs.map .char ++ ps) := by
  induction cs with
  | nil => exact h
  | cons c cs ih =>
    rw [List.flatMap_cons, List.append_assoc, List.map_cons, List.cons_append]
    by_cases hc : c = '$'
    · subst hc
      exact .form .dollar ih
    · rw [escapeChar, if_neg hc]
      exact .copy (ne_form_append hc) ih

theorem pieces_escape_append (s u : String) :
    pieces (escape s ++ u) = s.toList.map .char ++ pieces u := by
  have hreads := reads_escape s.toList (reads_scan u.toList)
  rw [pieces, pieces, hreads.eq_scan, escape, String.toList_append, String.toList_ofList]

/-- Characters have no faults. -/
theorem faults_chars_append (cs : List Char) (ps : List Piece) :
    faults lookup (cs.map .char ++ ps) = faults lookup ps := by
  induction cs with
  | nil => rfl
  | cons c cs ih => rw [List.map_cons, List.cons_append, faults_cons_of_stands .char, ih]

/-- Characters are filled in with themselves. -/
theorem fill_chars_append (s : String) (ps : List Piece) :
    fill lookup (s.toList.map .char ++ ps) = s ++ fill lookup ps := by
  have hchars : ((s.toList.map Piece.char).map fun p ↦ (p.resolve lookup).toOption.getD "") =
      s.toList.map Char.toString := by
    rw [List.map_map]
    rfl
  have hjoin : String.join (s.toList.map Char.toString) = s := by
    have hone : ∀ c : Char, c.toString.toList = [c] := String.toList_singleton
    rw [← String.toList_inj, String.toList_join, List.flatMap_map]
    simp only [hone, List.flatMap_singleton']
  rw [fill, List.map_append, String.join_append, hchars, hjoin, fill]

end Template

/-- A text with all its dollars written twice is filled in with itself, whatever variables there
are. In front of another text it makes no difference to that text: the result has the first text in
front, and the faults are those of the other one. -/
theorem interpolate_escape (lookup : String → Option String) (s u : String) :
    interpolate lookup (Template.escape s) = .ok s ∧
      interpolate lookup (Template.escape s ++ u) =
        (interpolate lookup u).map fun t ↦ s ++ t := by
  have happend : ∀ u, interpolate lookup (Template.escape s ++ u) =
      (interpolate lookup u).map fun t ↦ s ++ t := by
    intro u
    simp only [interpolate, Template.pieces_escape_append, Template.faults_chars_append,
      Template.fill_chars_append]
    cases Template.faults lookup (Template.pieces u) with
    | nil => rfl
    | cons fault faults => rfl
  -- With nothing behind it, the text is all that there is.
  have hempty : interpolate lookup "" = .ok "" := rfl
  have halone := happend ""
  rw [hempty, String.append_empty] at halone
  exact ⟨halone.trans (congrArg Except.ok String.append_empty), happend u⟩

example : interpolate (fun _ ↦ none) (Template.escape "$$A" ++ "$A") = .error [.unset "A"] := by
  decide +kernel

end TableSink
