import TableSink.Proofs.Writer.Calls
import TableSink.Proofs.Writer.Order

/-!
# The open files of many partitions

A writer with a file for every partition finds a file by its bucket. `ManyFiles.Holds` says which
files it has open, by their records: they are of different partitions, so at most one of them is
found, and no two of them wait at the same place. Writing keeps it (`ManyFiles.Holds.write`), and so
does everything else that may happen to a writer (`Writer.Reached.holds`).

Hence closing can be told file by file: each of them is tried once, and what becomes of one of them
makes no difference to the others.
-/

namespace TableSink

variable {σ ρ : Type} {layout : Layout ρ} {files : List (Filed ρ)} {spec : PartitionSpec}
variable {record projected : ρ}

namespace ManyFiles

/-- The writer has these files open, which are of different partitions. -/
structure Holds (layout : Layout ρ) (w : ManyFiles) (files : List (Filed ρ)) : Prop where
  opened : w.opened = files.map (Filed.openFile layout w.allocator)
  distinct : (files.map Filed.spec).Nodup

namespace Holds

variable {w : ManyFiles}

/-- Files are found by their partition. -/
theorem file?_eq (h : w.Holds layout files) (spec : PartitionSpec) : w.file? spec.bucket =
    (files.find? (·.spec = spec)).map (Filed.openFile layout w.allocator) := by
  rw [file?, h.opened, List.find?_map]
  congr 2
  funext f
  exact decide_eq_decide.mpr PartitionSpec.bucket_injective.eq_iff

/-- No two open files wait at the same place. -/
theorem nodup_staging (h : w.Holds layout files) :
    (w.opened.map fun f ↦ f.slot.staging).Nodup := by
  rw [h.opened, List.map_map]
  refine (List.Nodup.of_map _ h.distinct).map_on fun f hf g hg hstaging ↦ ?_
  exact List.inj_on_of_nodup_map h.distinct hf hg (Allocator.slot_staging_inj hstaging).1

/-- A record for an open file. -/
theorem keep (h : w.Holds layout files) {f : Filed ρ} (hf : f ∈ files) (record : ρ) :
    (w.keep ((f.add record).openFile layout w.allocator)).Holds layout
      (files.map fun g ↦ if g.spec = f.spec then g.add record else g) := by
  constructor
  · rw [ManyFiles.keep, h.opened, List.map_map, List.map_map]
    refine List.map_congr_left fun g hg ↦ ?_
    have hbucket : ((g.openFile layout w.allocator).slot.bucket =
        ((f.add record).openFile layout w.allocator).slot.bucket) = (g.spec = f.spec) :=
      propext PartitionSpec.bucket_injective.eq_iff
    simp only [Function.comp_apply, hbucket]
    -- Only one open file belongs to the partition.
    by_cases hspec : g.spec = f.spec
    · rw [List.inj_on_of_nodup_map h.distinct hg hf hspec, if_pos rfl, if_pos rfl]
    · rw [if_neg hspec, if_neg hspec]
  · simpa [Function.comp_def, Filed.spec_addTo] using h.distinct

/-- The file of a partition is given up. -/
theorem drop (h : w.Holds layout files) (spec : PartitionSpec) :
    (w.drop spec.bucket).Holds layout (files.filter (·.spec ≠ spec)) := by
  constructor
  · have hbucket : (fun g : OpenFile ↦ decide (g.slot.bucket ≠ spec.bucket)) ∘
        Filed.openFile layout w.allocator = fun g ↦ decide (g.spec ≠ spec) := by
      funext g
      exact decide_eq_decide.mpr (not_congr PartitionSpec.bucket_injective.eq_iff)
    rw [ManyFiles.drop, h.opened, List.filter_map, hbucket]
  · exact h.distinct.sublist (List.filter_sublist.map _)

/-- A file of a partition that has none. -/
theorem concat (h : w.Holds layout files) (hnone : ∀ f ∈ files, f.spec ≠ spec) (record : ρ) :
    ManyFiles.Holds layout
      { w with
        allocator := w.allocator.bump spec.bucket
        opened := w.opened ++ [Filed.openFile layout w.allocator
          ⟨spec, w.allocator.count spec.bucket, [record]⟩] }
      (files ++ [⟨spec, w.allocator.count spec.bucket, [record]⟩]) := by
  constructor
  · rw [List.map_append, h.opened]
    rfl
  · exact Filed.nodup_map_concat h.distinct hnone

end Holds

/-- Everything that a write may do to the open files. -/
inductive Wrote (layout : Layout ρ) (a : Allocator) (files : List (Filed ρ)) (record : ρ) :
    List (Filed ρ) → Allocator → Except WriteError Unit → Prop
  /-- The record has no place. -/
  | rejected {e : ComputationError} (h : layout.place none record = .error e) :
    Wrote layout a files record files a (.error (.computation e))
  /-- The record goes to the open file of its partition. -/
  | added {spec : PartitionSpec} {projected : ρ}
    (hplace : layout.place none record = .ok (spec, projected))
    (hencode : (layout.encoder projected (layout.lines (Filed.held files spec))).2 = .ok ())
    (hopen : ∃ f ∈ files, f.spec = spec) :
    Wrote layout a files record (files.map fun f ↦ if f.spec = spec then f.add record else f) a
      (.ok ())
  /-- The record goes to a new file. -/
  | started {spec : PartitionSpec} {projected : ρ}
    (hplace : layout.place none record = .ok (spec, projected))
    (hencode : (layout.encoder projected (layout.lines (Filed.held files spec))).2 = .ok ())
    (hnone : ∀ f ∈ files, f.spec ≠ spec) :
    Wrote layout a files record (files ++ [⟨spec, a.count spec.bucket, [record]⟩])
      (a.bump spec.bucket) (.ok ())
  /-- The open file of the partition is given up. -/
  | spoiled {spec : PartitionSpec} {projected : ρ} {path : ObjectPath} {fault : Json.Fault}
    (hplace : layout.place none record = .ok (spec, projected))
    (hencode : (layout.encoder projected (layout.lines (Filed.held files spec))).2 = .error fault)
    (hopen : ∃ f ∈ files, f.spec = spec) :
    Wrote layout a files record (files.filter (·.spec ≠ spec)) a (.error (.encode path fault))
  /-- A new file is given up at once. -/
  | wasted {spec : PartitionSpec} {projected : ρ} {path : ObjectPath} {fault : Json.Fault}
    (hplace : layout.place none record = .ok (spec, projected))
    (hencode : (layout.encoder projected (layout.lines (Filed.held files spec))).2 = .error fault)
    (hnone : ∀ f ∈ files, f.spec ≠ spec) :
    Wrote layout a files record files (a.bump spec.bucket) (.error (.encode path fault))

/-- A write does one of the things that `Wrote` lists, and nothing else. -/
theorem Holds.write {w w' : ManyFiles} (h : w.Holds layout files) {replies : Replying σ} {s s' : σ}
    {result : Except WriteError Unit}
    (hw : (w.write layout record).Ends replies s (w', result) s') :
    s' = s ∧ w'.closed = w.closed ∧ ∃ files', w'.Holds layout files' ∧
      Wrote layout w.allocator files record files' w'.allocator result := by
  cases hplace : layout.place none record with
  | error e =>
    rw [write_of_rejected hplace] at hw
    obtain ⟨rfl, rfl, rfl⟩ := Task.ends_done_pair.mp hw
    exact ⟨rfl, rfl, files, h, .rejected hplace⟩
  | ok placed =>
  obtain ⟨spec, projected⟩ := placed
  have hproject := Layout.project_of_place hplace
  have hfile := h.file?_eq spec
  cases hfind : files.find? (·.spec = spec) with
  | some f =>
    have hf : f ∈ files := List.mem_of_find?_eq_some hfind
    obtain rfl : f.spec = spec := by simpa using List.find?_some hfind
    rw [hfind, Option.map_some] at hfile
    have hheld := Filed.held_of_mem h.distinct hf
    cases hencode : (layout.encoder projected (f.bytes layout)).2 with
    | ok _ =>
      rw [write_of_open hplace hfile hencode, f.append_openFile layout _ hproject hencode] at hw
      obtain ⟨rfl, rfl, rfl⟩ := Task.ends_done_pair.mp (Task.ends_emit.mp hw)
      exact ⟨rfl, rfl, _, h.keep hf record, .added hplace (hheld ▸ hencode) ⟨f, hf, rfl⟩⟩
    | error fault =>
      rw [write_of_open_error hplace hfile hencode] at hw
      obtain ⟨rfl, rfl, rfl⟩ := Task.ends_done_pair.mp (Task.ends_emit.mp hw)
      exact ⟨rfl, rfl, _, h.drop f.spec, .spoiled hplace (hheld ▸ hencode) ⟨f, hf, rfl⟩⟩
  | none =>
    have hnone : ∀ f ∈ files, f.spec ≠ spec := by simpa using hfind
    rw [hfind, Option.map_none] at hfile
    have hheld := Filed.held_of_forall_ne hnone
    cases hencode : (layout.encoder projected .empty).2 with
    | ok _ =>
      rw [write_of_new hplace hfile hencode,
        Filed.append_new layout w.allocator spec _ hproject hencode] at hw
      simp only [Task.ends_emit, Task.ends_done_pair] at hw
      obtain ⟨rfl, rfl, rfl⟩ := hw
      exact ⟨rfl, rfl, _, h.concat hnone record, .started hplace (hheld ▸ hencode) hnone⟩
    | error fault =>
      rw [write_of_new_error hplace hfile hencode] at hw
      simp only [Task.ends_emit, Task.ends_done_pair] at hw
      obtain ⟨rfl, rfl, rfl⟩ := hw
      exact ⟨rfl, rfl, files, ⟨h.opened, h.distinct⟩, .wasted hplace (hheld ▸ hencode) hnone⟩

end ManyFiles

namespace Writer

/-- What may have become of a writer: records were written to it, it was closed, to be published or
not, and committables were fetched, in any order, whatever a store replied. -/
inductive Reached (layout : Layout ρ) (replies : Replying σ) (w₀ : Writer) : Writer → Prop
  | start : Reached layout replies w₀ w₀
  | write {w w' : Writer} {s s' : σ} {result : Except WriteError Unit}
    (h : Reached layout replies w₀ w) (record : ρ)
    (hw : (w.write layout record).Ends replies s (w', result) s') : Reached layout replies w₀ w'
  | close {w w' : Writer} {s s' : σ} {result : Except WriteError Unit}
    (h : Reached layout replies w₀ w) (kind : CloseKind)
    (hw : (w.close kind).Ends replies s (w', result) s') : Reached layout replies w₀ w'
  | drain {w : Writer} (h : Reached layout replies w₀ w) : Reached layout replies w₀ w.drain

variable {replies : Replying σ} {w : Writer} {a : Allocator} {fixed : PartitionSpec}

/-- The open files of a writer with many of them are always of different partitions. -/
theorem Reached.holds (h : Reached layout replies (new .dynamic a fixed) w) :
    ∃ m files, w = .dynamic m ∧ m.Holds layout files := by
  induction h with
  | start => exact ⟨_, [], rfl, rfl, List.nodup_nil⟩
  | write h record hw ih =>
    obtain ⟨m, files, rfl, hm⟩ := ih
    obtain ⟨m', rfl, hwrite⟩ := (Task.ends_wrap Writer.dynamic).mp hw
    obtain ⟨-, -, files', hm', -⟩ := hm.write hwrite
    exact ⟨m', files', rfl, hm'⟩
  | close h kind hw ih =>
    obtain ⟨m, files, rfl, hm⟩ := ih
    obtain ⟨m', rfl, hclose⟩ := (Task.ends_wrap Writer.dynamic).mp hw
    obtain ⟨cs, error, -, -, rfl⟩ := ManyFiles.hands_close hclose
    exact ⟨_, [], rfl, rfl, List.nodup_nil⟩
  | drain h ih =>
    obtain ⟨m, files, rfl, hm⟩ := ih
    exact ⟨_, files, rfl, hm.opened, hm.distinct⟩

/-- Closing a writer for publishing or for removal tries every open file once, in the order in which
they were opened, whatever became of those before. Afterwards none is open. There is a committable
of the right kind for every file that was put, behind those that were not fetched yet, and the bytes
of these files are staged; nothing else has changed. There is an error only if some file could not
be put, and then it is that of the first one. -/
theorem Reached.close_each (h : Reached layout replies (new .dynamic a fixed) w)
    {answer : (r : Request) → σ → r.Reply × σ} {get? : σ → ObjectPath → Option ByteArray}
    (hput : PutsWhole answer get?) (kind : CloseKind) (s : σ) :
    let after := (w.close kind).run answer s
    ∃ tries : List Try, tries.map Prod.fst = w.opened ∧
      (w.close kind).exchanges answer s = tries.map Try.exchange ∧
      after.value.1.opened = [] ∧
      after.value.1.closed = w.closed ++ tries.filterMap (Try.committable? kind) ∧
      (∀ c ∈ tries.filterMap (Try.committable? kind), c.token.isPending = true ↔ kind = .commit) ∧
      after.value.2 = closeResult (tries.findSome? Try.error?) ∧
      (after.value.2 = .ok () ↔ ∀ t ∈ tries, t.2 = .ok ()) ∧
      (∀ t ∈ tries, t.2 = .ok () → get? after.state t.1.slot.staging = some t.1.buffer) ∧
      ∀ q, (∀ t ∈ tries, t.2 = .ok () → q ≠ t.1.slot.staging) →
        get? after.state q = get? s q := by
  obtain ⟨m, files, rfl, hm⟩ := h.holds
  intro after
  obtain ⟨tries, hopened, htries, hexchanges, hvalue⟩ := run_close_dynamic answer kind m s
  have hdistinct : (tries.map fun t ↦ t.1.slot.staging).Nodup := by
    have hnodup := hm.nodup_staging
    rwa [← hopened, List.map_map] at hnodup
  have hresult : after.value.2 = closeResult (tries.findSome? Try.error?) :=
    congrArg Prod.snd hvalue
  refine ⟨tries, hopened, hexchanges, ?_, ?_, fun c hc ↦ ?_, hresult, ?_,
    fun t ht hok ↦ htries.staged hput hdistinct ht hok, fun q hq ↦ htries.get?_eq hput hq⟩
  · exact congrArg (fun v ↦ v.1.opened) hvalue
  · exact congrArg (fun v ↦ v.1.closed) hvalue
  · obtain ⟨t, -, ht⟩ := List.mem_filterMap.mp hc
    exact Try.isPending_of_committable? ht
  · rw [hresult, ← Try.findSome?_error?_eq_none]
    cases tries.findSome? Try.error? with
    | none => simp [closeResult]
    | some e => simp [closeResult]

/-- Three files are open, one committable was not fetched, and the file in the middle cannot be
put. -/
theorem Reached.close_each_refused_put :
    let layout : Layout String := ⟨⟨fun r ↦ .ok [("p", r)], .ok⟩, fun r _ ↦ (r.toUTF8, .ok ())⟩
    let a := Allocator.new "_staging" ⟨0, 0⟩ {} "r"
    let replies : Replying MemoryStore := fun r s reply s' ↦ (reply, s') = MemoryStore.answer r s
    ∃ w, Reached layout replies (new .dynamic a []) w ∧
      w.closed.map (fun c ↦ (c.bucket, c.token.isPending)) = [("p=z", true)] ∧
      ∃ refuses : Request → Bool,
        let answer := MemoryStore.refusing refuses
        let after := (w.close .recovery).run answer .empty
        after.value.1.closed.map (fun c ↦ (c.bucket, c.token.isPending)) =
          [("p=z", true), ("p=a", false), ("p=c", false)] ∧
        after.value.2 = .error (.stage (a.slot [("p", "b")] 0).staging (.request .failed)) ∧
        ∃ tries : List Try, tries.map (fun t ↦ t.1.slot.bucket) = ["p=a", "p=b", "p=c"] ∧
          (w.close .recovery).exchanges answer .empty = tries.map Try.exchange ∧
          ∀ t ∈ tries, t.2 = .ok () →
            after.state.get? t.1.slot.staging = some t.1.buffer := by
  intro layout a replies
  let refuses : Request → Bool := fun r ↦ match r with
    | .put path _ => path = (a.slot [("p", "b")] 0).staging
    | _ => false
  have hanswer : ∀ r s, replies r s (MemoryStore.answer r s).1 (MemoryStore.answer r s).2 :=
    fun _ _ ↦ rfl
  have hstart : Reached layout replies (new .dynamic a []) (new .dynamic a []) := .start
  have hz := hstart.write "z" (Task.ends_run _ hanswer _ (.empty : MemoryStore))
  have hclosed := hz.close .commit (Task.ends_run _ hanswer _ (.empty : MemoryStore))
  have ha := hclosed.write "a" (Task.ends_run _ hanswer _ (.empty : MemoryStore))
  have hb := ha.write "b" (Task.ends_run _ hanswer _ (.empty : MemoryStore))
  have hc := hb.write "c" (Task.ends_run _ hanswer _ (.empty : MemoryStore))
  obtain ⟨tries, hopened, hexchanges, -, -, -, -, -, hstaged, -⟩ :=
    Reached.close_each hc (MemoryStore.putsWhole_refusing refuses) .recovery .empty
  refine ⟨_, hc, ?_, refuses, ?_, ?_, tries, ?_, hexchanges, hstaged⟩
  · decide +kernel
  · decide +kernel
  · decide +kernel
  · have hbuckets := congrArg (List.map fun f ↦ f.slot.bucket) hopened
    rw [List.map_map] at hbuckets
    exact hbuckets.trans (by decide +kernel)

end Writer

end TableSink
