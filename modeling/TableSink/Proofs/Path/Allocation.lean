import Mathlib.Logic.Function.Basic
import TableSink.Proofs.Path.Slot
import TableSink.Proofs.Storage.Mishap

/-!
# Allocators side by side

Several attempts write to one table, each with an allocator of its own. Their staging places are
told apart by the directories of the attempts, which lie next to each other and have different names
(`Allocator.eq_of_staging_eq`). Their targets share one tree, but names of published files show the
attempt (`Allocator.eq_of_target_eq`).

Numbers tell the files of one allocator apart (`Allocator.nodup_handOut`). So no path is handed out
twice, whatever calls are made on which allocators in which order.
-/

namespace TableSink

/-- The text in front of the first separator, and the one behind it. -/
theorem Text.append_cons_inj {sep : Char} {piece piece' rest rest' : List Char}
    (hpiece : sep ∉ piece) (hpiece' : sep ∉ piece')
    (h : piece ++ sep :: rest = piece' ++ sep :: rest') : piece = piece' ∧ rest = rest' := by
  have hsplit := congrArg (split sep) h
  rw [split_append_cons hpiece, split_append_cons hpiece'] at hsplit
  obtain rfl := (List.cons.inj hsplit).1
  exact ⟨rfl, (List.cons.inj (List.append_cancel_left h)).2⟩

theorem hyphen_notMem_digits (n : Nat) : '-' ∉ (toString n).toList := by
  have hcount := count_digits (c := '-') (by decide) n
  simpa [List.count_eq_zero] using hcount

/-! ## Attempts -/

namespace Attempt

variable {attempt attempt' : Attempt}

theorem ext_toNat (hworker : attempt.worker.toNat = attempt'.worker.toNat)
    (hgeneration : attempt.generation.toNat = attempt'.generation.toNat) : attempt = attempt' := by
  cases attempt
  cases attempt'
  exact congrArg₂ mk (UInt32.toNat_inj.mp hworker) (UInt64.toNat_inj.mp hgeneration)

/-- The name of an attempt tells worker and generation. -/
theorem name_injective : Function.Injective name := by
  intro attempt attempt' h
  have h := congrArg String.toList h
  rw [toList_name, toList_name] at h
  obtain ⟨hworker, hgeneration⟩ := Text.append_cons_inj (hyphen_notMem_digits _)
    (hyphen_notMem_digits _) (List.append_cancel_left h)
  exact ext_toNat (Allocator.toString_inj hworker) (Allocator.toString_inj hgeneration)

/-- The directory of an attempt below a staging directory. -/
def dir (stagingDir : String) (attempt : Attempt) : ObjectPath :=
  (ObjectPath.ofText stagingDir).child attempt.name

theorem segments_dir (stagingDir : String) (attempt : Attempt) :
    (attempt.dir stagingDir).segments =
      (ObjectPath.ofText stagingDir).segments ++ [ObjectPath.segment attempt.name] :=
  ObjectPath.segments_child attempt.name_ne_empty _

/-- What lies in the directories of two attempts lies in one. -/
theorem eq_of_prefix {stagingDir : String} {segments : List String}
    (h : (attempt.dir stagingDir).segments <+: segments)
    (h' : (attempt'.dir stagingDir).segments <+: segments) : attempt = attempt' := by
  have hlength : (attempt.dir stagingDir).segments.length =
      (attempt'.dir stagingDir).segments.length := by
    simp [segments_dir]
  have hdir := (List.prefix_of_prefix_length_le h h' (Nat.le_of_eq hlength)).eq_of_length hlength
  rw [segments_dir, segments_dir] at hdir
  have hname := (List.cons.inj (List.append_cancel_left hdir)).1
  exact name_injective
    (ObjectPath.segment_inj attempt.undotted_name attempt'.undotted_name hname)

end Attempt

namespace Allocator

variable {stagingDir : String} {a b : Allocator} {spec spec' : PartitionSpec} {i j : Nat}

theorem prefix_staging (a : Allocator) (spec : PartitionSpec) (i : Nat) :
    a.taskDir.segments <+: (a.slot spec i).staging.segments := by
  rw [segments_slot_staging, List.append_assoc]
  exact List.prefix_append _ _

/-- What waits for one attempt does not lie in the directory of another one. -/
theorem not_prefix_staging (ha : a.taskDir = a.attempt.dir stagingDir) {other : Attempt}
    (hother : other ≠ a.attempt) (spec : PartitionSpec) (i : Nat) :
    ¬ (other.dir stagingDir).segments <+: (a.slot spec i).staging.segments := by
  intro h
  have hown := a.prefix_staging spec i
  rw [ha] at hown
  exact hother (Attempt.eq_of_prefix h hown)

/-- A staging place tells the attempt, the partition and the number. -/
theorem eq_of_staging_eq (ha : a.taskDir = a.attempt.dir stagingDir)
    (hb : b.taskDir = b.attempt.dir stagingDir) (hnaming : a.naming = b.naming)
    (h : (a.slot spec i).staging = (b.slot spec' j).staging) :
    a.attempt = b.attempt ∧ spec = spec' ∧ i = j := by
  have hattempt : a.attempt = b.attempt := by
    by_contra hne
    have hprefix := a.prefix_staging spec i
    rw [ha, h] at hprefix
    exact b.not_prefix_staging hb hne spec' j hprefix
  have hslot : (b.slot spec' j).staging = (a.slot spec' j).staging := by
    simp only [slot, stagingName, ha, hb, hattempt, hnaming]
  exact ⟨hattempt, slot_staging_inj (h.trans hslot)⟩

/-- The name of a published file tells the attempt and the number. -/
theorem eq_of_targetName_eq (hnaming : a.naming = b.naming)
    (hrun : a.run.toList.length = b.run.toList.length) (h : a.targetName i = b.targetName j) :
    a.attempt = b.attempt ∧ i = j := by
  have h := congrArg String.toList h
  rw [toList_targetName, toList_targetName, hnaming] at h
  have h := List.append_cancel_right h
  simp only [targetStem, hnaming, List.append_assoc, List.cons_append, List.append_cancel_left_eq,
    List.cons.injEq, true_and] at h
  obtain ⟨-, h⟩ := List.append_inj h hrun
  obtain ⟨hworker, h⟩ := Text.append_cons_inj (hyphen_notMem_digits _) (hyphen_notMem_digits _)
    (List.cons.inj h).2
  obtain ⟨hgeneration, h⟩ := Text.append_cons_inj (hyphen_notMem_digits _)
    (hyphen_notMem_digits _) h
  exact ⟨Attempt.ext_toNat (toString_inj hworker) (toString_inj hgeneration), toString_inj h⟩

/-- A target tells the attempt, the partition and the number. -/
theorem eq_of_target_eq (hnaming : a.naming = b.naming)
    (hrun : a.run.toList.length = b.run.toList.length)
    (h : (a.slot spec i).target = (b.slot spec' j).target) :
    a.attempt = b.attempt ∧ spec = spec' ∧ i = j := by
  have h := congrArg ObjectPath.segments h
  rw [segments_slot_target, segments_slot_target] at h
  obtain ⟨hdirs, hname⟩ := List.append_inj' h (by simp only [List.length_singleton])
  have hname := ObjectPath.segment_inj (undotted_targetName a i) (undotted_targetName b j)
    (List.cons.inj hname).1
  obtain ⟨hattempt, hnumber⟩ := eq_of_targetName_eq hnaming hrun hname
  exact ⟨hattempt, directories_injective hdirs, hnumber⟩

end Allocator

/-- Names of runs are of one length. -/
theorem RunName.length_ofParts (milliseconds random : Nat) :
    (ofParts milliseconds random).toList.length = 36 := by
  simp [ofParts, hexDigits]

/-! ## Calls on several allocators -/

namespace Allocator

variable {ι : Type} [DecidableEq ι] {allocators : ι → Allocator} {calls : List (ι × PartitionSpec)}
variable {k : ι} {file : Slot}

/-- The places that are handed out when allocators are asked for files of partitions, one call after
the other, each with who was asked. -/
def handOut (allocators : ι → Allocator) : List (ι × PartitionSpec) → List (ι × Slot)
  | [] => []
  | (k, spec) :: calls =>
    let (file, after) := (allocators k).allocate spec
    (k, file) :: handOut (Function.update allocators k after) calls

/-- The places of an allocator stay the same when it is asked; only its numbers go on. -/
theorem mem_handOut (h : (k, file) ∈ handOut allocators calls) :
    ∃ spec n, file = (allocators k).slot spec n ∧ (allocators k).count spec.bucket ≤ n ∧
      n < (allocators k).count spec.bucket + calls.length := by
  induction calls generalizing allocators with
  | nil => cases h
  | cons call calls ih =>
    obtain ⟨asked, spec⟩ := call
    rcases List.mem_cons.mp h with h | h
    · obtain ⟨rfl, rfl⟩ := Prod.mk.inj h
      exact ⟨spec, _, rfl, Nat.le_refl _, by simp⟩
    · obtain ⟨spec', n, rfl, hle, hlt⟩ := ih h
      by_cases hk : k = asked
      · subst hk
        have hbounds := (allocators k).count_bump_bounds spec.bucket spec'.bucket
        simp only [Function.update_self] at hle hlt ⊢
        exact ⟨spec', n, rfl, by omega, by rw [List.length_cons]; omega⟩
      · simp only [Function.update_of_ne hk] at hle hlt ⊢
        exact ⟨spec', n, rfl, hle, by rw [List.length_cons]; omega⟩

/-- No allocator gives two files of a partition the same number. -/
theorem nodup_handOut (allocators : ι → Allocator) (calls : List (ι × PartitionSpec)) :
    (handOut allocators calls).Pairwise fun x y ↦
      ¬ (x.1 = y.1 ∧ x.2.bucket = y.2.bucket ∧ x.2.sequence = y.2.sequence) := by
  induction calls generalizing allocators with
  | nil => exact .nil
  | cons call calls ih =>
    obtain ⟨asked, spec⟩ := call
    refine List.pairwise_cons.mpr ⟨?_, ih _⟩
    rintro ⟨k, file⟩ hfile ⟨rfl, hbucket, hsequence⟩
    obtain ⟨spec', n, rfl, hle, -⟩ := mem_handOut hfile
    simp only [Function.update_self, count_bump] at hle
    have hbucket : spec.bucket = spec'.bucket := hbucket
    have hsequence : (allocators asked).count spec.bucket = n := hsequence
    rw [if_pos hbucket.symm] at hle
    omega

/-- Texts of places differ if the places tell the allocator, the partition and the number. -/
theorem nodup_texts {place : Slot → ObjectPath} (calls : List (ι × PartitionSpec))
    (hwritten : ∀ k spec i, (place ((allocators k).slot spec i)).Written)
    (htells : ∀ {k k' spec spec' i j}, place ((allocators k).slot spec i) =
      place ((allocators k').slot spec' j) → k = k' ∧ spec = spec' ∧ i = j) :
    ((handOut allocators calls).map fun x ↦ (place x.2).text).Nodup := by
  refine List.pairwise_map.mpr ((nodup_handOut allocators calls).imp_of_mem ?_)
  rintro ⟨k, file⟩ ⟨k', file'⟩ hx hy hne he
  obtain ⟨spec, i, rfl, -⟩ := mem_handOut hx
  obtain ⟨spec', j, rfl, -⟩ := mem_handOut hy
  obtain ⟨rfl, rfl, rfl⟩ := htells ((hwritten k spec i).text_inj (hwritten k' spec' j) he)
  exact hne ⟨rfl, rfl, rfl⟩

/-! ## Listings -/

/-- What an allocator lists lies in the directory of its attempt, if the store lists nothing else
than what lies below. -/
theorem isBelow_of_listStaged {σ : Type} {replies : Replying σ} {a : Allocator}
    (hlist : ∀ dir st paths st', replies (.list dir) st (.ok paths) st' →
      ∀ p ∈ paths, p.isBelow dir = true)
    {st st' : σ} {paths : List ObjectPath} (h : a.listStaged.Ends replies st (.ok paths) st') :
    ∀ p ∈ paths, p.isBelow a.taskDir = true := by
  obtain ⟨reply, st₁, hreply, h⟩ := Task.ends_ask_bind.mp h
  obtain ⟨hpaths, -⟩ := Task.ends_done.mp h
  cases reply with
  | error fault => cases hpaths
  | ok listed =>
    obtain rfl := Except.ok.inj hpaths
    intro p hp
    exact hlist _ _ _ _ hreply p (List.mem_mergeSort.mp hp)

theorem prefix_of_isBelow {p dir : ObjectPath} (h : p.isBelow dir = true) :
    dir.segments <+: p.segments := by
  rw [ObjectPath.isBelow, Bool.and_eq_true, List.isPrefixOf_iff_prefix] at h
  exact h.1

/-! ## No path twice -/

/-- Whatever files are asked for on the allocators of different attempts, no number runs out and no
path is handed out twice, be it for staging or as a target. Staging places lie in the directory of
their own attempt only, and targets lie in no directory of an attempt, so nobody lists a file that
is published or belongs to another attempt. -/
theorem collision_free (stagingDir : String) (naming : FileNaming) (attempt : ι → Attempt)
    (milliseconds random : ι → Nat) (calls : List (ι × PartitionSpec))
    (hattempt : Function.Injective attempt) (hcalls : calls.length < UInt64.size) :
    let allocators (k : ι) := Allocator.new stagingDir (attempt k) naming
      (RunName.ofParts (milliseconds k) (random k))
    let files := handOut allocators calls
    (∀ x ∈ files, x.2.sequence < UInt64.size) ∧
    ((files.map fun x ↦ x.2.staging.text) ++ files.map fun x ↦ x.2.target.text).Nodup ∧
    (∀ x ∈ files, ∀ other ≠ attempt x.1,
      ¬ (other.dir stagingDir).segments <+: x.2.staging.segments) ∧
    (∀ x ∈ files, ∀ other : Attempt,
      ¬ (other.dir stagingDir).segments <+: x.2.target.segments) ∧
    ∀ {σ : Type} (replies : Replying σ),
      (∀ dir st paths st', replies (.list dir) st (.ok paths) st' →
        ∀ p ∈ paths, p.isBelow dir = true) →
      ∀ k st paths st', (allocators k).listStaged.Ends replies st (.ok paths) st' →
        ∀ p ∈ paths, ∀ x ∈ files, p ≠ x.2.target ∧ (p = x.2.staging → x.1 = k) := by
  intro allocators files
  have hdir : ∀ k, (allocators k).taskDir = (attempt k).dir stagingDir := fun k ↦ rfl
  have hnaming : ∀ k k', (allocators k).naming = (allocators k').naming :=
    have h : ∀ k, (allocators k).naming = naming := fun k ↦ rfl
    fun k k' ↦ (h k).trans (h k').symm
  have hrun : ∀ k k', (allocators k).run.toList.length = (allocators k').run.toList.length :=
    have h : ∀ k, (allocators k).run.toList.length = 36 := fun k ↦ RunName.length_ofParts _ _
    fun k k' ↦ (h k).trans (h k').symm
  have hplace : ∀ k, (allocators k).InPlace := fun k ↦ inPlace_new _ _ _ _
  have hfile : ∀ x ∈ files, ∃ spec n, x.2 = (allocators x.1).slot spec n ∧ n < calls.length := by
    intro x hx
    obtain ⟨spec, n, hslot, -, hlt⟩ := mem_handOut hx
    exact ⟨spec, n, hslot, by simpa [allocators, new, count] using hlt⟩
  have hstaging : ∀ x ∈ files, ∀ other ≠ attempt x.1,
      ¬ (other.dir stagingDir).segments <+: x.2.staging.segments := by
    intro x hx other hother
    obtain ⟨spec, n, hslot, -⟩ := hfile x hx
    rw [hslot]
    exact not_prefix_staging (hdir x.1) hother spec n
  have htarget : ∀ x ∈ files, ∀ other : Attempt,
      ¬ (other.dir stagingDir).segments <+: x.2.target.segments := by
    intro x hx other
    obtain ⟨spec, n, hslot, -⟩ := hfile x hx
    rw [hslot]
    exact not_prefix_slot_target stagingDir other _ spec n
  refine ⟨?_, List.nodup_append.mpr ⟨?_, ?_, ?_⟩, hstaging, htarget, ?_⟩
  · intro x hx
    obtain ⟨spec, n, hslot, hlt⟩ := hfile x hx
    rw [hslot, sequence_slot]
    exact Nat.lt_trans hlt hcalls
  · exact nodup_texts calls (fun k ↦ (hplace k).written_staging) fun h ↦
      (eq_of_staging_eq (hdir _) (hdir _) (hnaming _ _) h).imp_left (@hattempt _ _)
  · exact nodup_texts calls (fun k ↦ written_target _) fun h ↦
      (eq_of_target_eq (hnaming _ _) (hrun _ _) h).imp_left (@hattempt _ _)
  · intro text htext text' htext' he
    obtain ⟨x, hx, rfl⟩ := List.mem_map.mp htext
    obtain ⟨y, hy, rfl⟩ := List.mem_map.mp htext'
    obtain ⟨spec, n, hslot, -⟩ := hfile x hx
    obtain ⟨spec', m, hslot', -⟩ := hfile y hy
    rw [hslot, hslot'] at he
    exact (hplace x.1).staging_ne_target _ spec spec' n m
      (((hplace x.1).written_staging spec n).text_inj (written_target _ spec' m) he)
  · intro σ replies hlist k st paths st' h p hp x hx
    have hbelow := prefix_of_isBelow (isBelow_of_listStaged hlist h p hp)
    refine ⟨?_, ?_⟩
    · rintro rfl
      exact htarget x hx _ hbelow
    · rintro rfl
      by_contra hne
      exact hstaging x hx (attempt k) (fun heq ↦ hne (hattempt heq).symm) hbelow

/-- Two attempts whose numbers are written with the same digits, below a staging directory that is
the table itself, with partitions that look like names of attempts and files. -/
theorem collision_free_same_digits :
    let attempt (k : Bool) : Attempt := if k then ⟨1, 23⟩ else ⟨12, 3⟩
    let calls : List (Bool × PartitionSpec) := [(true, [("task-12-3", "part-0")]), (false, []),
      (false, [("p", "a/q=b")]), (true, [("p", "a"), ("q", "b")]), (false, [])]
    let allocators (k : Bool) := Allocator.new "" (attempt k) {} (RunName.ofParts 0 0)
    let files := handOut allocators calls
    Function.Injective attempt ∧ calls.length < UInt64.size ∧
      ((files.map fun x ↦ x.2.staging.text) ++ files.map fun x ↦ x.2.target.text).Nodup ∧
      ∀ s paths s', (allocators true).listStaged.Ends (MemoryStore.Replies Mishap.none) s
        (.ok paths) s' →
        ∀ p ∈ paths, ∀ x ∈ files, p ≠ x.2.target ∧ (p = x.2.staging → x.1 = true) := by
  intro attempt calls allocators files
  have hattempt : ∀ k k', attempt k = attempt k' → k = k' := by decide
  obtain ⟨-, hnodup, -, -, hlisted⟩ :=
    collision_free "" {} attempt (fun _ ↦ 0) (fun _ ↦ 0) calls (fun k k' ↦ hattempt k k')
      (by decide)
  refine ⟨fun k k' ↦ hattempt k k', by decide, hnodup, ?_⟩
  intro s paths s' h p hp x hx
  refine hlisted (MemoryStore.Replies Mishap.none) ?_ true s paths s' h p hp x hx
  intro dir st listed st' hreply q hq
  obtain ⟨-, hreply | ⟨fault, hreply, -⟩⟩ := hreply.list
  · obtain rfl := Except.ok.inj hreply
    exact (List.mem_filter.mp hq).2
  · cases hreply

end Allocator

end TableSink
