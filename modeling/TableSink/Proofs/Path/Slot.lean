import Mathlib.Data.List.Basic
import Mathlib.Data.List.Nodup
import Std.Data.String.ToNat
import TableSink.Proofs.Path.Escape
import TableSink.RunName
import TableSink.Staging
import TableSink.Committable

/-!
# The places of files

What `Allocator.slot` hands out, seen from the outside. Every path is *written*, segment by segment,
so a token leads back to it (`readPath_text`). The two places of a file tell its partition and its
number (`Allocator.slot_staging_inj`, `Allocator.slot_target_inj`), and no target lies in the
directory of any attempt, whatever the staging directory is called
(`Allocator.not_prefix_slot_target`): the last directory on the way to an attempt has two hyphens
and no equals sign, and no segment of a target is like that.
-/

namespace TableSink

namespace ObjectPath

/-! ## Written paths -/

/-- The escaped form of a name. -/
def segment (name : String) : String := String.ofList (encodeSegment name.toList)

/-- Every segment of the path is the escaped form of some name. -/
def Written (p : ObjectPath) : Prop := ∀ s ∈ p.segments, ∃ name, name ≠ "" ∧ s = segment name

theorem segments_child {name : String} (h : name ≠ "") (p : ObjectPath) :
    (p.child name).segments = p.segments ++ [segment name] := by
  simp [child, h, segment]

theorem Written.root : Written root := by simp [Written, ObjectPath.root]

theorem Written.child {p : ObjectPath} (hp : p.Written) {name : String} (h : name ≠ "") :
    (p.child name).Written := by
  intro s hs
  rw [segments_child h, List.mem_append, List.mem_singleton] at hs
  rcases hs with hs | rfl
  · exact hp s hs
  · exact ⟨name, h, rfl⟩

theorem Written.ofText (text : String) : (ofText text).Written := by
  intro s hs
  simp only [ObjectPath.ofText, List.mem_map, List.mem_filter, decide_eq_true_eq] at hs
  obtain ⟨cs, ⟨_, hcs⟩, rfl⟩ := hs
  refine ⟨String.ofList cs, fun h ↦ hcs ?_, by rw [segment, String.toList_ofList]⟩
  simpa using congrArg String.toList h

theorem toList_ne_nil {s : String} (h : s ≠ "") : s.toList ≠ [] := by
  simpa using h

/-- Joined pieces begin and end like the outermost pieces. -/
theorem join_ends {sep : Char} {pieces : List (List Char)} (hne : pieces ≠ [])
    (h : ∀ piece ∈ pieces, piece ≠ [] ∧ sep ∉ piece) :
    Text.join sep pieces ≠ [] ∧ (Text.join sep pieces).head? ≠ some sep ∧
      (Text.join sep pieces).getLast? ≠ some sep := by
  have hends : ∀ piece : List Char, sep ∉ piece →
      piece.head? ≠ some sep ∧ piece.getLast? ≠ some sep := fun piece hp ↦
    ⟨fun he ↦ hp (List.mem_of_mem_head? he), fun he ↦ hp (List.mem_of_mem_getLast? he)⟩
  induction pieces with
  | nil => exact absurd rfl hne
  | cons piece pieces ih =>
    obtain ⟨hpiece, hsep⟩ := h piece List.mem_cons_self
    cases pieces with
    | nil => exact ⟨hpiece, hends piece hsep⟩
    | cons next rest =>
      obtain ⟨hjoin, -, hlast⟩ := ih (by simp) fun p hp ↦ h p (List.mem_cons_of_mem _ hp)
      refine ⟨by simp [Text.join], ?_, ?_⟩
      · rw [Text.join, List.head?_append_of_ne_nil _ hpiece]
        exact (hends piece hsep).1
      · rw [Text.join, List.getLast?_append, List.getLast?_cons]
        simpa [List.getLast?_eq_some_getLast hjoin] using hlast

/-- A text without separators at its ends is cut as it stands. -/
theorem parse?_ofList {cs : List Char} (hne : cs ≠ []) (hhead : cs.head? ≠ some '/')
    (hlast : cs.getLast? ≠ some '/') :
    parse? (String.ofList cs) = mk <$> (Text.split '/' cs).mapM checkSegment := by
  unfold parse?
  rw [String.toList_ofList]
  split
  · exact absurd rfl hhead
  · simp only [if_neg hne, dropTrailingSeparator, if_neg hlast]

/-- The last piece stands at the end of the joined text. -/
theorem suffix_join_append (sep : Char) (pieces : List (List Char)) (piece : List Char) :
    piece <:+ Text.join sep (pieces ++ [piece]) := by
  induction pieces with
  | nil => exact List.suffix_rfl
  | cons first rest ih =>
    cases hrest : rest ++ [piece] with
    | nil => simp at hrest
    | cons next more =>
      rw [List.cons_append, hrest, Text.join, ← hrest]
      exact ih.trans ((List.suffix_cons _ _).trans (List.suffix_append _ _))

/-- The written form of a written path leads back to it. -/
theorem Written.parse?_text {p : ObjectPath} (h : p.Written) : parse? p.text = .ok p := by
  obtain ⟨segments⟩ := p
  rcases eq_or_ne segments [] with rfl | hsegments
  · rfl
  have hpieces : ∀ piece ∈ segments.map String.toList, piece ≠ [] ∧ '/' ∉ piece := by
    intro piece hpiece
    obtain ⟨s, hs, rfl⟩ := List.mem_map.mp hpiece
    obtain ⟨name, hname, rfl⟩ := h s hs
    rw [segment, String.toList_ofList]
    exact ⟨encodeSegment_ne_nil (toList_ne_nil hname), slash_notMem_encodeSegment _⟩
  have hcheck : ∀ s ∈ segments, checkSegment s.toList = .ok s := by
    intro s hs
    obtain ⟨name, hname, rfl⟩ := h s hs
    rw [segment, String.toList_ofList]
    exact checkSegment_encodeSegment (toList_ne_nil hname)
  have hread : ∀ ss ⊆ segments, (ss.map String.toList).mapM checkSegment = .ok ss := by
    intro ss hss
    induction ss with
    | nil => rfl
    | cons s ss ih =>
      rw [List.map_cons, List.mapM_cons, hcheck s (hss List.mem_cons_self),
        ih fun t ht ↦ hss (List.mem_cons_of_mem _ ht)]
      rfl
  obtain ⟨hbody, hhead, hlast⟩ := join_ends (by simpa using hsegments) hpieces
  rw [text, parse?_ofList hbody hhead hlast,
    Text.split_join (by simpa using hsegments) fun p hp ↦ (hpieces p hp).2,
    hread segments fun _ ↦ id]
  rfl

/-- A token that holds the written form of a path leads back to the path. -/
theorem Written.readPath_text {p : ObjectPath} (h : p.Written) : readPath p.text = .ok p := by
  rw [readPath, h.parse?_text]
  rfl

/-- Written paths are told apart by their written forms. -/
theorem Written.text_inj {p q : ObjectPath} (hp : p.Written) (hq : q.Written)
    (h : p.text = q.text) : p = q := by
  have hread := hp.readPath_text
  rw [h, hq.readPath_text] at hread
  exact (Except.ok.inj hread).symm

/-! ## Telling segments apart -/

/-- The name is none of the two with a meaning of their own. -/
def Undotted (name : String) : Prop := name.toList ≠ ['.'] ∧ name.toList ≠ ['.', '.']

theorem undotted_of_mem {c : Char} (hc : c ≠ '.') {name : String} (h : c ∈ name.toList) :
    Undotted name := by
  constructor <;> intro he <;> simp [he, hc] at h

theorem segment_inj {a b : String} (ha : Undotted a) (hb : Undotted b)
    (h : segment a = segment b) : a = b := by
  have h := String.ofList_injective h
  rw [encodeSegment_eq_flatMap ha, encodeSegment_eq_flatMap hb] at h
  exact String.toList_inj.mp (flatMap_segmentChar_injective h)

/-- Escaping neither adds nor takes away a plain character that is no hexadecimal digit. -/
theorem count_segment {d : Char} (hd : isPlain d = true) (hx : d ∉ Text.upperHexDigits)
    {name : String} (h : Undotted name) :
    (segment name).toList.count d = name.toList.count d := by
  have hone : ∀ c, (segmentChar c).count d = if c = d then 1 else 0 := by
    intro c
    unfold segmentChar
    split
    · simp [List.count_cons]
    · next hc =>
      rw [if_neg (by rintro rfl; exact hc hd), List.count_eq_zero]
      intro hmem
      rcases Text.percentChar_chars hmem with rfl | hmem
      · simp [isPlain_percent] at hd
      · exact hx hmem
  rw [segment, String.toList_ofList, encodeSegment_eq_flatMap h]
  induction name.toList with
  | nil => rfl
  | cons c cs ih => rw [List.flatMap_cons, List.count_append, hone, ih, List.count_cons]; grind

end ObjectPath

/-! ## Names -/

theorem segments_nest (spec : PartitionSpec) (base : ObjectPath) :
    (spec.nest base).segments =
      base.segments ++ spec.map fun entry ↦ ObjectPath.segment (PartitionSpec.directory entry) := by
  induction spec generalizing base with
  | nil => simp [PartitionSpec.nest]
  | cons entry rest ih =>
    rw [PartitionSpec.nest, List.foldl_cons, ← PartitionSpec.nest, ih,
      ObjectPath.segments_child (PartitionSpec.directory_ne_empty entry), List.map_cons]
    simp

theorem written_nest {base : ObjectPath} (h : base.Written) (spec : PartitionSpec) :
    (spec.nest base).Written := by
  induction spec generalizing base with
  | nil => exact h
  | cons entry rest ih => exact ih (h.child (PartitionSpec.directory_ne_empty entry))

theorem count_digits {c : Char} (hc : c.isDigit = false) (n : Nat) :
    (Nat.toDigits 10 n).count c = 0 := by
  rw [List.count_eq_zero]
  intro h
  simp [Nat.isDigit_of_mem_toDigits (by decide) (by decide) h] at hc

theorem Attempt.toList_name (a : Attempt) : a.name.toList = "task-".toList ++
    ((toString a.worker.toNat).toList ++ '-' :: (toString a.generation.toNat).toList) := by
  simp [Attempt.name, String.toList_append]

theorem Attempt.undotted_name (a : Attempt) : ObjectPath.Undotted a.name :=
  ObjectPath.undotted_of_mem (c := '-') (by decide) (by simp [toList_name])

theorem Attempt.name_ne_empty (a : Attempt) : a.name ≠ "" := fun h ↦ by
  simpa [h] using a.toList_name

theorem PartitionSpec.undotted_directory (entry : String × String) :
    ObjectPath.Undotted (directory entry) :=
  ObjectPath.undotted_of_mem (by decide) (equals_mem_directory entry)

namespace Allocator

variable {a : Allocator}

theorem toList_stagingName (a : Allocator) (sequence : Nat) : (a.stagingName sequence).toList =
    a.naming.stem.toList ++ '-' :: (toString sequence).toList := by
  simp [stagingName, String.toList_append]

/-- What the name of a published file holds in front of its number. -/
def targetStem (a : Allocator) : List Char :=
  a.naming.stem.toList ++ '-' :: a.run.toList ++ '-' :: (toString a.attempt.worker.toNat).toList ++
    '-' :: (toString a.attempt.generation.toNat).toList ++ ['-']

theorem toList_targetName (a : Allocator) (sequence : Nat) : (a.targetName sequence).toList =
    a.targetStem ++ (toString sequence).toList ++ a.naming.suffix.toList := by
  simp [targetName, targetStem, String.toList_append]

theorem undotted_stagingName (a : Allocator) (sequence : Nat) :
    ObjectPath.Undotted (a.stagingName sequence) :=
  ObjectPath.undotted_of_mem (c := '-') (by decide) (by simp [toList_stagingName])

theorem undotted_targetName (a : Allocator) (sequence : Nat) :
    ObjectPath.Undotted (a.targetName sequence) :=
  ObjectPath.undotted_of_mem (c := '-') (by decide) (by simp [toList_targetName, targetStem])

theorem stagingName_ne_empty (a : Allocator) (sequence : Nat) : a.stagingName sequence ≠ "" :=
  fun h ↦ by simpa [h] using a.toList_stagingName sequence

theorem targetName_ne_empty (a : Allocator) (sequence : Nat) : a.targetName sequence ≠ "" :=
  fun h ↦ by simpa [h, targetStem] using a.toList_targetName sequence

theorem toString_inj {m n : Nat} (h : (toString m).toList = (toString n).toList) : m = n := by
  rw [Nat.toString_eq_repr, Nat.toString_eq_repr] at h
  exact Nat.repr_injective (String.toList_inj.mp h)

theorem stagingName_inj {i j : Nat} (h : a.stagingName i = a.stagingName j) : i = j := by
  have h := congrArg String.toList h
  rw [toList_stagingName, toList_stagingName] at h
  exact toString_inj (List.cons.inj (List.append_cancel_left h)).2

theorem targetName_inj {i j : Nat} (h : a.targetName i = a.targetName j) : i = j := by
  have h := congrArg String.toList h
  rw [toList_targetName, toList_targetName] at h
  exact toString_inj (List.append_cancel_left (List.append_cancel_right h))

/-! ## Numbers -/

theorem count_bump (a : Allocator) (bucket other : String) :
    (a.bump bucket).count other = if other = bucket then a.count bucket + 1 else a.count other := by
  by_cases h : other = bucket
  · simp [h, bump, count]
  · have hlookup : ∀ counts : List (String × Nat),
        (counts.filter (·.1 ≠ bucket)).lookup other = counts.lookup other := by
      intro counts
      induction counts with
      | nil => rfl
      | cons c counts ih =>
        obtain ⟨name, n⟩ := c
        by_cases hname : name = bucket
        · have hother : (other == name) = false := by simpa [hname] using h
          rw [List.filter_cons_of_neg (by simp [hname]), ih, List.lookup_cons, hother]
        · rw [List.filter_cons_of_pos (by simp [hname]), List.lookup_cons, List.lookup_cons, ih]
    have hne : (other == bucket) = false := by simpa using h
    rw [if_neg h, count, count, bump, List.lookup_cons, hne, hlookup]

/-- One more file adds one to the number of files of its partition, if anything. -/
theorem count_bump_bounds (a : Allocator) (bucket other : String) :
    a.count other ≤ (a.bump bucket).count other ∧
      (a.bump bucket).count other ≤ a.count other + 1 := by
  rw [count_bump]
  split
  · next h => subst h; omega
  · omega

/-- An allocator after it was asked for these files. -/
def after (a : Allocator) (history : List PartitionSpec) : Allocator :=
  history.foldl (fun a spec ↦ (a.allocate spec).2) a

theorem after_concat (a : Allocator) (history : List PartitionSpec) (spec : PartitionSpec) :
    a.after (history ++ [spec]) = (a.after history).bump spec.bucket := by
  rw [after, List.foldl_append]
  rfl

/-- Places do not depend on what was asked for before, but for their numbers. -/
@[simp] theorem slot_after (a : Allocator) (history : List PartitionSpec) :
    (a.after history).slot = a.slot := by
  induction history generalizing a with
  | nil => rfl
  | cons spec history ih => exact ih _

/-- The next number of a partition is the number of files that were asked for. -/
theorem count_after (a : Allocator) (history : List PartitionSpec) (spec : PartitionSpec) :
    (a.after history).count spec.bucket = a.count spec.bucket + history.count spec := by
  induction history generalizing a with
  | nil => rfl
  | cons first history ih =>
    rw [after, List.foldl_cons, ← after, ih, allocate, count_bump]
    by_cases h : spec = first
    · subst h
      rw [if_pos rfl, List.count_cons_self]
      omega
    · rw [if_neg (PartitionSpec.bucket_injective.ne h), List.count_cons_of_ne (Ne.symm h)]

/-! ## Places -/

/-- The directory of the attempt is one below some staging directory. -/
def InPlace (a : Allocator) : Prop :=
  ∃ stagingDir, a.taskDir = (ObjectPath.ofText stagingDir).child a.attempt.name

theorem inPlace_new (stagingDir : String) (attempt : Attempt) (naming : FileNaming) (run : String) :
    (Allocator.new stagingDir attempt naming run).InPlace :=
  ⟨stagingDir, rfl⟩

theorem InPlace.written (h : a.InPlace) : a.taskDir.Written := by
  obtain ⟨stagingDir, h⟩ := h
  rw [h]
  exact (ObjectPath.Written.ofText stagingDir).child a.attempt.name_ne_empty

@[simp] theorem bucket_slot (a : Allocator) (spec : PartitionSpec) (i : Nat) :
    (a.slot spec i).bucket = spec.bucket := rfl

@[simp] theorem sequence_slot (a : Allocator) (spec : PartitionSpec) (i : Nat) :
    (a.slot spec i).sequence = i := rfl

theorem segments_slot_staging (a : Allocator) (spec : PartitionSpec) (i : Nat) :
    (a.slot spec i).staging.segments = a.taskDir.segments ++
      (spec.map fun entry ↦ ObjectPath.segment (PartitionSpec.directory entry)) ++
      [ObjectPath.segment (a.stagingName i)] := by
  simp only [slot, ObjectPath.segments_child (a.stagingName_ne_empty i), segments_nest]

theorem segments_slot_target (a : Allocator) (spec : PartitionSpec) (i : Nat) :
    (a.slot spec i).target.segments =
      (spec.map fun entry ↦ ObjectPath.segment (PartitionSpec.directory entry)) ++
      [ObjectPath.segment (a.targetName i)] := by
  simp [slot, ObjectPath.segments_child (a.targetName_ne_empty i), segments_nest, ObjectPath.root]

theorem InPlace.written_staging (h : a.InPlace) (spec : PartitionSpec) (i : Nat) :
    (a.slot spec i).staging.Written :=
  (written_nest h.written spec).child (a.stagingName_ne_empty i)

theorem written_target (a : Allocator) (spec : PartitionSpec) (i : Nat) :
    (a.slot spec i).target.Written :=
  (written_nest .root spec).child (a.targetName_ne_empty i)

theorem directories_injective : Function.Injective fun spec : PartitionSpec ↦
    spec.map fun entry ↦ ObjectPath.segment (PartitionSpec.directory entry) :=
  List.map_injective_iff.mpr fun entry entry' h ↦ PartitionSpec.directory_injective
    (ObjectPath.segment_inj (PartitionSpec.undotted_directory entry)
      (PartitionSpec.undotted_directory entry') h)

/-- The staging place of a file tells its partition and its number. -/
theorem slot_staging_inj {spec spec' : PartitionSpec} {i j : Nat}
    (h : (a.slot spec i).staging = (a.slot spec' j).staging) : spec = spec' ∧ i = j := by
  have h := congrArg ObjectPath.segments h
  rw [segments_slot_staging, segments_slot_staging] at h
  obtain ⟨hdirs, hname⟩ := List.append_inj' h (by simp only [List.length_singleton])
  refine ⟨directories_injective (List.append_cancel_left hdirs), stagingName_inj (a := a) ?_⟩
  exact ObjectPath.segment_inj (undotted_stagingName a i) (undotted_stagingName a j)
    (List.cons.inj hname).1

/-- The target of a file tells its partition and its number. -/
theorem slot_target_inj {spec spec' : PartitionSpec} {i j : Nat}
    (h : (a.slot spec i).target = (a.slot spec' j).target) : spec = spec' ∧ i = j := by
  have h := congrArg ObjectPath.segments h
  rw [segments_slot_target, segments_slot_target] at h
  obtain ⟨hdirs, hname⟩ := List.append_inj' h (by simp only [List.length_singleton])
  refine ⟨directories_injective hdirs, targetName_inj (a := a) ?_⟩
  exact ObjectPath.segment_inj (undotted_targetName a i) (undotted_targetName a j)
    (List.cons.inj hname).1

/-- The staging places of different files are written differently. -/
theorem InPlace.nodup_staging (h : a.InPlace) {keys : List (PartitionSpec × Nat)}
    (hkeys : keys.Nodup) : (keys.map fun k ↦ (a.slot k.1 k.2).staging.text).Nodup := by
  refine hkeys.map ?_
  intro k k' he
  obtain ⟨hspec, hi⟩ :=
    slot_staging_inj ((h.written_staging k.1 k.2).text_inj (h.written_staging k'.1 k'.2) he)
  exact Prod.ext hspec hi

/-- The targets of different files are written differently. -/
theorem nodup_target (a : Allocator) {keys : List (PartitionSpec × Nat)} (hkeys : keys.Nodup) :
    (keys.map fun k ↦ (a.slot k.1 k.2).target.text).Nodup := by
  refine hkeys.map ?_
  intro k k' he
  obtain ⟨hspec, hi⟩ :=
    slot_target_inj ((a.written_target k.1 k.2).text_inj (a.written_target k'.1 k'.2) he)
  exact Prod.ext hspec hi

/-- Segments of targets have an equals sign, as directories do, or at least four hyphens, as names
of files do. -/
theorem segment_of_target {spec : PartitionSpec} {i : Nat} {s : String}
    (h : s ∈ (a.slot spec i).target.segments) :
    1 ≤ s.toList.count '=' ∨ 4 ≤ s.toList.count '-' := by
  rw [segments_slot_target, List.mem_append, List.mem_singleton] at h
  rcases h with h | rfl
  · obtain ⟨entry, -, rfl⟩ := List.mem_map.mp h
    rw [ObjectPath.count_segment (by decide) (by decide) (PartitionSpec.undotted_directory entry)]
    exact .inl (List.count_pos_iff.mpr (PartitionSpec.equals_mem_directory entry))
  · refine .inr ?_
    rw [ObjectPath.count_segment (by decide) (by decide) (undotted_targetName a i),
      toList_targetName]
    simp only [targetStem, List.append_assoc, List.cons_append, List.count_append,
      List.count_cons_self]
    omega

/-- No target lies in the directory of an attempt, of whatever staging directory. -/
theorem not_prefix_slot_target (stagingDir : String) (attempt : Attempt) (a : Allocator)
    (spec : PartitionSpec) (i : Nat) :
    ¬ ((ObjectPath.ofText stagingDir).child attempt.name).segments <+:
      (a.slot spec i).target.segments := by
  intro h
  have hmem : ObjectPath.segment attempt.name ∈ (a.slot spec i).target.segments :=
    h.subset (by simp [ObjectPath.segments_child attempt.name_ne_empty])
  have hequals : (ObjectPath.segment attempt.name).toList.count '=' = 0 := by
    rw [ObjectPath.count_segment (by decide) (by decide) attempt.undotted_name,
      attempt.toList_name]
    simp [List.count_append, count_digits (c := '=') (by decide)]
  have hhyphens : (ObjectPath.segment attempt.name).toList.count '-' = 2 := by
    rw [ObjectPath.count_segment (by decide) (by decide) attempt.undotted_name,
      attempt.toList_name]
    simp [List.count_append, count_digits (c := '-') (by decide)]
  have := segment_of_target hmem
  omega

theorem InPlace.target_not_isBelow (h : a.InPlace) (b : Allocator) (spec : PartitionSpec)
    (i : Nat) : (b.slot spec i).target.isBelow a.taskDir = false := by
  obtain ⟨stagingDir, h⟩ := h
  have := not_prefix_slot_target stagingDir a.attempt b spec i
  rw [← h, ← List.isPrefixOf_iff_prefix] at this
  simp [ObjectPath.isBelow, this]

theorem staging_isBelow (a : Allocator) (spec : PartitionSpec) (i : Nat) :
    (a.slot spec i).staging.isBelow a.taskDir = true := by
  have hprefix : a.taskDir.segments <+: (a.slot spec i).staging.segments := by
    rw [segments_slot_staging, List.append_assoc]
    exact List.prefix_append _ _
  rw [ObjectPath.isBelow, List.isPrefixOf_iff_prefix.mpr hprefix, segments_slot_staging]
  simp

/-- Nothing waits at a target. -/
theorem InPlace.staging_ne_target (h : a.InPlace) (b : Allocator) (spec spec' : PartitionSpec)
    (i j : Nat) : (a.slot spec i).staging ≠ (b.slot spec' j).target := by
  intro he
  have := h.target_not_isBelow b spec' j
  rw [← he, a.staging_isBelow] at this
  contradiction

/-! ## Names of runs -/

/-- Plain characters stand in a segment as they are. -/
theorem encodeSegment_infix {before run after : List Char} (hrun : ∀ c ∈ run, ObjectPath.isPlain c)
    (h : before ++ run ++ after ≠ ['.'] ∧ before ++ run ++ after ≠ ['.', '.']) :
    run <:+: ObjectPath.encodeSegment (before ++ run ++ after) := by
  have hself : run.flatMap ObjectPath.segmentChar = run := by
    clear h
    induction run with
    | nil => rfl
    | cons c run ih =>
      rw [List.flatMap_cons, ih fun d hd ↦ hrun d (List.mem_cons_of_mem _ hd),
        ObjectPath.segmentChar, if_pos (hrun c List.mem_cons_self), List.singleton_append]
  rw [ObjectPath.encodeSegment_eq_flatMap h, List.flatMap_append, List.flatMap_append, hself]
  exact List.infix_append _ _ _

/-- Every target shows the run that the file belongs to. -/
theorem run_infix_target (hrun : ∀ c ∈ a.run.toList, ObjectPath.isPlain c) (spec : PartitionSpec)
    (i : Nat) : a.run.toList <:+: (a.slot spec i).target.text.toList := by
  have hsegment : a.run.toList <:+: (ObjectPath.segment (a.targetName i)).toList := by
    have hsplit : (a.targetName i).toList = (a.naming.stem.toList ++ ['-']) ++ a.run.toList ++
        ('-' :: (toString a.attempt.worker.toNat).toList ++
          '-' :: (toString a.attempt.generation.toNat).toList ++
          '-' :: (toString i).toList ++ a.naming.suffix.toList) := by
      rw [toList_targetName]
      simp [targetStem]
    have hundotted := undotted_targetName a i
    rw [ObjectPath.Undotted, hsplit] at hundotted
    rw [ObjectPath.segment, String.toList_ofList, hsplit]
    exact encodeSegment_infix hrun hundotted
  refine hsegment.trans ?_
  rw [ObjectPath.text, String.toList_ofList, segments_slot_target, List.map_append]
  exact (ObjectPath.suffix_join_append '/' _ _).isInfix

end Allocator

theorem RunName.isPlain_of_mem_hexDigits {count n : Nat} {c : Char} (h : c ∈ hexDigits count n) :
    ObjectPath.isPlain c = true := by
  obtain ⟨i, -, rfl⟩ := List.mem_map.mp h
  have hall : ∀ n < 16, ObjectPath.isPlain (Nat.digitChar n) = true := by decide
  exact hall _ (Nat.mod_lt _ (by decide))

/-- The name of a run holds plain characters only. -/
theorem RunName.isPlain_of_mem {milliseconds random : Nat} {c : Char}
    (h : c ∈ (ofParts milliseconds random).toList) : ObjectPath.isPlain c = true := by
  simp only [ofParts, String.toList_intercalate, List.map_cons, List.map_nil, String.toList_ofList,
    List.intercalate_cons_cons, List.intercalate_singleton, List.mem_append] at h
  have hhyphen : c ∈ "-".toList → ObjectPath.isPlain c = true := List.all_eq_true.mp (by decide) c
  have hseven : c = '7' → ObjectPath.isPlain c = true := by rintro rfl; decide
  have hhex := fun count n ↦ @isPlain_of_mem_hexDigits count n c
  grind

end TableSink
