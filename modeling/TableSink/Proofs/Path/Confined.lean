import TableSink.File.Open
import TableSink.File.Pending
import TableSink.Proofs.Path.Slot
import TableSink.Storage.FileTree

/-!
# Allocated paths stay below the table

Whatever text a staging directory, the parts of a file name, a column or a value are made of, the
paths of a file are *confined*: they have plain segments, none of which a directory tree takes for
anything but a name, and what was written reads back as the same path
(`Allocator.allocate_confined`). So a token leads to the object that was staged, and a file system
that follows a path from the root of the table never leaves it.

All of this holds of `ObjectPath.Written` paths, and only there is a character looked at.
-/

namespace TableSink

/-! ## Following a path -/

/-- Steps that are names lead downwards. -/
theorem FileTree.eq_of_follow {t : FileTree} {steps place place' : List String}
    (hsteps : ∀ step ∈ steps, step ≠ "." ∧ step ≠ "..")
    (h : t.follow steps place = .ok place') : place' = place ++ steps := by
  induction steps generalizing place with
  | nil => simpa [follow] using (Except.ok.inj h).symm
  | cons step steps ih =>
    obtain ⟨⟨hdot, hdots⟩, hsteps⟩ := List.forall_mem_cons.mp hsteps
    rw [follow] at h
    cases hfind : t.find place with
    | error fault => simp [hfind, bind, Except.bind] at h
    | ok node =>
    cases node with
    | file data => simp [hfind, bind, Except.bind, throw, throwThe, MonadExceptOf.throw] at h
    | directory entries =>
      simp only [hfind, bind, Except.bind, if_neg hdot, if_neg hdots] at h
      cases hstep : t.find (place ++ [step]) with
      | error fault => simp [hstep] at h
      | ok node =>
        simp only [hstep] at h
        rw [ih hsteps h, List.append_assoc, List.singleton_append]

namespace ObjectPath

/-- A path that lies below the table and reads back as it was written. -/
structure Confined (p : ObjectPath) : Prop where
  /-- It is not that of the table itself. -/
  segments_ne_nil : p.segments ≠ []
  /-- Its segments are names, not steps to the same directory or to the one around it. -/
  named : ∀ s ∈ p.segments, s ≠ "" ∧ s ≠ "." ∧ s ≠ ".."
  /-- They hold printable ASCII characters, and no separator or mark of an unfinished file. -/
  plain : ∀ s ∈ p.segments, ∀ c ∈ s.toList,
    c.toNat < 0x80 ∧ isControl c = false ∧ c ≠ '/' ∧ c ≠ '#'
  /-- The written form leads back to the path. -/
  read : parse? p.text = .ok p
  /-- A file system that follows the written form from some place ends below this place. -/
  below : ∀ (t : FileTree) (base place : List String),
    t.follow (FileTree.steps p.text) base = .ok place → place = base ++ p.segments

variable {p : ObjectPath}

theorem segment_ne_empty {name : String} (h : name ≠ "") : segment name ≠ "" := by
  intro he
  apply encodeSegment_ne_nil (toList_ne_nil h)
  simpa [segment] using congrArg String.toList he

theorem segment_ne_dots (name : String) : segment name ≠ "." ∧ segment name ≠ ".." := by
  obtain ⟨hdot, hdots⟩ := encodeSegment_ne_dots name.toList
  constructor
  · intro he
    exact hdot (by simpa [segment] using congrArg String.toList he)
  · intro he
    exact hdots (by simpa [segment] using congrArg String.toList he)

/-- A character that needs no escape is printable and has no meaning of its own. -/
theorem of_isPlain {c : Char} (h : isPlain c = true) :
    c.toNat < 0x80 ∧ isControl c = false ∧ c ≠ '/' ∧ c ≠ '#' := by
  have hne : ∀ d, isPlain d = false → c ≠ d := by
    rintro d hd rfl
    simp [hd] at h
  simp only [isPlain, Bool.and_eq_true, decide_eq_true_eq, Bool.not_eq_true'] at h
  obtain ⟨⟨hlt, hcontrol⟩, -⟩ := h
  exact ⟨by omega, hcontrol, hne '/' (by decide), hne '#' (by decide)⟩

theorem segment_chars {name : String} {c : Char} (h : c ∈ (segment name).toList) :
    c.toNat < 0x80 ∧ isControl c = false ∧ c ≠ '/' ∧ c ≠ '#' := by
  rw [segment, String.toList_ofList] at h
  rcases encodeSegment_chars h with rfl | hplain
  · decide
  · exact of_isPlain hplain

/-- The steps of a written path are its segments. -/
theorem Written.steps_text (h : p.Written) (hne : p.segments ≠ []) :
    FileTree.steps p.text = p.segments := by
  have hslash : ∀ piece ∈ p.segments.map String.toList, '/' ∉ piece := by
    intro piece hpiece
    obtain ⟨s, hs, rfl⟩ := List.mem_map.mp hpiece
    obtain ⟨name, -, rfl⟩ := h s hs
    rw [segment, String.toList_ofList]
    exact slash_notMem_encodeSegment _
  have hempty : ∀ s ∈ p.segments, s ≠ "" := by
    intro s hs
    obtain ⟨name, hname, rfl⟩ := h s hs
    exact segment_ne_empty hname
  have hparts : (Text.split '/' p.text.toList).map String.ofList = p.segments := by
    rw [text, String.toList_ofList, Text.split_join (by simpa using hne) hslash, List.map_map]
    simp
  have hlast : p.segments.getLast? ≠ some "" := by
    intro hlast
    exact hempty "" (List.mem_of_getLast? hlast) rfl
  have hnamed : p.segments.filter (· ≠ "") = p.segments :=
    List.filter_eq_self.mpr fun s hs ↦ by simpa using hempty s hs
  simp only [FileTree.steps, hparts, if_neg hlast, hnamed]

theorem Written.confined (h : p.Written) (hne : p.segments ≠ []) : p.Confined where
  segments_ne_nil := hne
  named s hs := by
    obtain ⟨name, hname, rfl⟩ := h s hs
    exact ⟨segment_ne_empty hname, segment_ne_dots name⟩
  plain s hs c hc := by
    obtain ⟨name, -, rfl⟩ := h s hs
    exact segment_chars hc
  read := h.parse?_text
  below t base place hfollow := by
    rw [h.steps_text hne] at hfollow
    refine FileTree.eq_of_follow ?_ hfollow
    intro s hs
    obtain ⟨name, -, rfl⟩ := h s hs
    exact segment_ne_dots name

/-- Confined paths are read as tokens read them. -/
theorem Confined.readPath (h : p.Confined) : TableSink.readPath p.text = .ok p := by
  rw [TableSink.readPath, h.read]
  rfl

end ObjectPath

namespace Allocator

/-- Whatever texts a staging directory, a naming, a run and a partition are made of, and however
many files there are: both places of the next file are confined. A token of either kind of a file
that is closed there leads back to these places. -/
theorem allocate_confined (stagingDir : String) (attempt : Attempt) (naming : FileNaming)
    (run : String) (counts : List (String × Nat)) (spec : PartitionSpec) :
    let file := ({ new stagingDir attempt naming run with counts }.allocate spec).1
    file.staging.Confined ∧ file.target.Confined ∧
    ∀ f : OpenFile, f.slot = file →
      (∀ kind, readPath (f.token kind).staging = .ok file.staging ∧
        readPath (f.token kind).discard.staging = .ok file.staging) ∧
      ∃ t, f.token .commit = .pending t ∧ t.places = .ok (file.staging, file.target) := by
  intro file
  have hplace : InPlace { new stagingDir attempt naming run with counts } := ⟨stagingDir, rfl⟩
  have hstaging : file.staging.Confined := by
    apply (hplace.written_staging spec _).confined
    simp [segments_slot_staging]
  have htarget : file.target.Confined := by
    apply (written_target _ spec _).confined
    simp [segments_slot_target]
  refine ⟨hstaging, htarget, ?_⟩
  intro f hslot
  have htoken : f.token .commit =
      .pending ⟨f.slot.staging.text, f.slot.target.text, f.buffer.size, f.records⟩ := rfl
  refine ⟨?_, _, htoken, ?_⟩
  · intro kind
    have hread : readPath f.slot.staging.text = .ok file.staging := by
      rw [hslot]
      exact hstaging.readPath
    cases kind with
    | commit => exact ⟨hread, hread⟩
    | recovery => exact ⟨hread, hread⟩
  · simp only [PendingToken.places, hslot, hstaging.readPath, htarget.readPath]
    rfl

example : (({ new "../%" ⟨1, 2⟩ ⟨"..", "/.."⟩ "r" with counts := [] }.allocate
    [("..", "/#")]).1.staging.text) = "%2E%2E/%25/task-1-2/..=%252F%2523/..-0" := by decide +kernel

end Allocator

end TableSink
