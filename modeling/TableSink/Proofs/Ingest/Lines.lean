import Mathlib.Data.List.Forall2
import TableSink.Ingest

/-!
# The lines of an input

What the lines of some bytes are is said here by how the bytes are put together from them
(`Text.Lines`), and what a line holds by the text that it is (`Line.Reads`). So an input is listed
without a word on how it is taken apart. Every input has one listing, and it is what a sink is fed
with (`Line.listing_iff`).
-/

namespace TableSink

/-! ## Lines of bytes -/

namespace Text

/-- The bytes are made of these lines. A line feed ends a line, and so do a carriage return and a
line feed together; the last line may do without. -/
inductive Lines : List UInt8 → List (List UInt8) → Prop
  | nil : Lines [] []
  | last {line : List UInt8} (hne : line ≠ []) (hfree : lineFeed ∉ line) : Lines line [line]
  | fed {line bytes : List UInt8} {lines : List (List UInt8)} (hfree : lineFeed ∉ line)
    (hplain : line.getLast? ≠ some carriageReturn) (h : Lines bytes lines) :
    Lines (line ++ lineFeed :: bytes) (line :: lines)
  | returned {line bytes : List UInt8} {lines : List (List UInt8)} (hfree : lineFeed ∉ line)
    (h : Lines bytes lines) : Lines (line ++ carriageReturn :: lineFeed :: bytes) (line :: lines)

/-- A line feed ends the line that was begun. -/
theorem linesFrom_append {begun line : List UInt8} (h : lineFeed ∉ line) (rest : List UInt8) :
    linesFrom begun (line ++ lineFeed :: rest) =
      dropReturn (begun.reverse ++ line) :: linesFrom [] rest := by
  induction line generalizing begun with
  | nil => rw [List.nil_append, linesFrom, if_pos rfl, List.append_nil]
  | cons b line ih =>
    simp only [List.mem_cons, not_or] at h
    obtain ⟨hb, hline⟩ := h
    rw [List.cons_append, linesFrom, if_neg (Ne.symm hb), ih hline, List.reverse_cons,
      List.append_assoc, List.singleton_append]

/-- Without a line feed, all is one line. -/
theorem linesFrom_of_notMem {begun line : List UInt8} (h : lineFeed ∉ line) :
    linesFrom begun line = if begun.reverse ++ line = [] then [] else [begun.reverse ++ line] := by
  induction line generalizing begun with
  | nil => simp [linesFrom]
  | cons b line ih =>
    simp only [List.mem_cons, not_or] at h
    obtain ⟨hb, hline⟩ := h
    rw [linesFrom, if_neg (Ne.symm hb), ih hline, List.reverse_cons, List.append_assoc,
      List.singleton_append]

/-- A line that does not end in a carriage return is left as it is. -/
theorem dropReturn_of_ne {line : List UInt8} (h : line.getLast? ≠ some carriageReturn) :
    dropReturn line = line :=
  if_neg h

theorem dropReturn_concat (line : List UInt8) : dropReturn (line ++ [carriageReturn]) = line := by
  rw [dropReturn, if_pos List.getLast?_concat, List.dropLast_concat]

/-- What is found are lines. -/
theorem lines_linesFrom {begun : List UInt8} (h : lineFeed ∉ begun) (bytes : List UInt8) :
    Lines (begun.reverse ++ bytes) (linesFrom begun bytes) := by
  induction bytes generalizing begun with
  | nil =>
    rw [linesFrom, List.append_nil]
    split_ifs with hbegun
    · rw [hbegun]
      exact .nil
    · exact .last (mt List.reverse_eq_nil_iff.mp hbegun) (mt List.mem_reverse.mp h)
  | cons b bytes ih =>
    rw [linesFrom]
    split_ifs with hb
    · subst hb
      have hfree : lineFeed ∉ begun.reverse := mt List.mem_reverse.mp h
      have hrest : Lines bytes (linesFrom [] bytes) := ih List.not_mem_nil
      by_cases hlast : begun.reverse.getLast? = some carriageReturn
      · obtain ⟨line, hline⟩ := List.getLast?_eq_some_iff.mp hlast
        rw [hline] at hfree ⊢
        rw [dropReturn_concat, List.append_assoc, List.singleton_append]
        exact .returned (fun hmem ↦ hfree (List.mem_append_left _ hmem)) hrest
      · rw [dropReturn_of_ne hlast]
        exact .fed hfree hlast hrest
    · have hbegun : lineFeed ∉ b :: begun := by simp [Ne.symm hb, h]
      have hnext := ih hbegun
      rwa [List.reverse_cons, List.append_assoc, List.singleton_append] at hnext

/-- Bytes are made of the lines that are found in them, and of no others. -/
theorem lines_iff {bytes : List UInt8} {lines : List (List UInt8)} :
    Lines bytes lines ↔ linesFrom [] bytes = lines := by
  constructor
  · intro h
    induction h with
    | nil => rfl
    | last hne hfree =>
      rw [linesFrom_of_notMem hfree, List.reverse_nil, List.nil_append, if_neg hne]
    | fed hfree hplain _ ih =>
      rw [linesFrom_append hfree, List.reverse_nil, List.nil_append, dropReturn_of_ne hplain, ih]
    | @returned line bytes lines hfree _ ih =>
      have hline : lineFeed ∉ line ++ [carriageReturn] := by
        simpa [lineFeed, carriageReturn] using hfree
      rw [← List.singleton_append, ← List.append_assoc, linesFrom_append hline, List.reverse_nil,
        List.nil_append, dropReturn_concat, ih]
  · rintro rfl
    exact lines_linesFrom List.not_mem_nil bytes

@[simp] theorem fromUTF8?_toUTF8 (s : String) : String.fromUTF8? s.toUTF8 = some s := by
  have hvalid : s.toUTF8.IsValidUTF8 := s.isValidUTF8
  rw [String.fromUTF8?, dif_pos hvalid]
  rfl

theorem toUTF8_of_fromUTF8? {bytes : ByteArray} {text : String}
    (h : String.fromUTF8? bytes = some text) : text.toUTF8 = bytes := by
  unfold String.fromUTF8? at h
  split at h
  · rw [← Option.some.inj h]
    rfl
  · cases h

end Text

/-! ## What a line holds -/

namespace Line

/-- The record of a line. -/
def record? : Line → Option Json
  | .record value => some value
  | .blank | .garbled | .malformed _ => none

/-- The lines of an input. -/
def ofInput (bytes : ByteArray) : List Line := (Text.byteLines bytes).map ofBytes

/-- What some bytes are as a line. -/
inductive Reads (bytes : ByteArray) : Line → Prop
  | blank {text : String} (htext : text.toUTF8 = bytes)
    (h : ∀ c ∈ text.toList, Text.isBlank c) : Reads bytes .blank
  | record {text : String} {value : Json} (htext : text.toUTF8 = bytes)
    (hshows : ∃ c ∈ text.toList, ¬ Text.isBlank c) (h : Json.parse text = .ok value) :
    Reads bytes (.record value)
  | malformed {text : String} {fault : Json.Fault} (htext : text.toUTF8 = bytes)
    (hshows : ∃ c ∈ text.toList, ¬ Text.isBlank c) (h : Json.parse text = .error fault) :
    Reads bytes (.malformed fault)
  | garbled (h : ∀ text : String, text.toUTF8 ≠ bytes) : Reads bytes .garbled

theorem reads_ofBytes (bytes : ByteArray) : Reads bytes (ofBytes bytes) := by
  unfold ofBytes
  split
  · next hnone =>
    refine .garbled fun text htext ↦ ?_
    rw [← htext, Text.fromUTF8?_toUTF8] at hnone
    cases hnone
  · next text hsome =>
    have htext := Text.toUTF8_of_fromUTF8? hsome
    split_ifs with hblank
    · exact .blank htext (List.all_eq_true.mp hblank)
    · have hshows := List.all_eq_false.mp (Bool.eq_false_iff.mpr hblank)
      split
      · next value hvalue => exact .record htext hshows hvalue
      · next fault hfault => exact .malformed htext hshows hfault

theorem Reads.ofBytes_eq {bytes : ByteArray} {line : Line} (h : Reads bytes line) :
    ofBytes bytes = line := by
  cases h with
  | @blank text htext h =>
    have hblank : Text.allBlank text = true := List.all_eq_true.mpr h
    rw [← htext, ofBytes]
    simp only [Text.fromUTF8?_toUTF8, hblank, if_true]
  | @record text value htext hshows h | @malformed text fault htext hshows h =>
    have hblank : Text.allBlank text = false := List.all_eq_false.mpr hshows
    rw [← htext, ofBytes]
    simp only [Text.fromUTF8?_toUTF8, hblank, h]
    rfl
  | garbled h =>
    rw [ofBytes]
    cases hsome : String.fromUTF8? bytes with
    | none => rfl
    | some text => exact absurd (Text.toUTF8_of_fromUTF8? hsome) (h text)

/-- Bytes are one line, and no other. -/
theorem reads_iff {bytes : ByteArray} {line : Line} : Reads bytes line ↔ ofBytes bytes = line := by
  constructor
  · exact Reads.ofBytes_eq
  · rintro rfl
    exact reads_ofBytes bytes

/-- The bytes of an input are made of lines, and these are what they hold. -/
def Listing (bytes : ByteArray) (lines : List Line) : Prop :=
  ∃ pieces, Text.Lines bytes.data.toList pieces ∧
    List.Forall₂ (fun piece line ↦ Reads ⟨piece.toArray⟩ line) pieces lines

/-- Every input has one listing. -/
theorem listing_iff {bytes : ByteArray} {lines : List Line} :
    Listing bytes lines ↔ ofInput bytes = lines := by
  have hreads : ∀ pieces : List (List UInt8),
      List.Forall₂ (fun piece line ↦ Reads ⟨piece.toArray⟩ line) pieces lines ↔
        pieces.map (fun piece ↦ ofBytes ⟨piece.toArray⟩) = lines := by
    intro pieces
    simp only [reads_iff]
    rw [← List.forall₂_eq_eq_eq, List.forall₂_map_left_iff]
  simp only [Listing, Text.lines_iff, hreads, ofInput, Text.byteLines, List.map_map]
  constructor
  · rintro ⟨_, rfl, h⟩
    exact h
  · intro h
    exact ⟨_, rfl, h⟩

end Line

end TableSink
