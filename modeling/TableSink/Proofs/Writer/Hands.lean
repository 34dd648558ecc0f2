import TableSink.Proofs.Writer.Calls

/-!
# What a writer has in hand

The files and committables that a writer has in hand, whatever a store is like and whatever it
replies. Closing goes through the open files (`Writer.hands_close`). A write may close them first,
if they are of another partition, and then puts the record into one of them or into a new one
(`Writer.hands_write`). Nothing else is asked of a store.
-/

namespace TableSink

variable {σ ρ : Type} {replies : Replying σ} {s s' : σ}

/-- The partition of all records, where there is just one. -/
def Writer.fixed : Writer → Option PartitionSpec
  | .single spec _ => some spec
  | .grouped _ | .dynamic _ => none

@[simp] theorem Writer.allocator_drain (w : Writer) : w.drain.allocator = w.allocator := by
  cases w <;> rfl

@[simp] theorem Writer.opened_drain (w : Writer) : w.drain.opened = w.opened := by
  cases w <;> rfl

@[simp] theorem Writer.closed_drain (w : Writer) : w.drain.closed = [] := by
  cases w <;> rfl

/-- Open files are closed one after the other; what could be closed gives a committable. -/
inductive Closing (replies : Replying σ) (kind : CloseKind) :
    List OpenFile → σ → List Committable → Option WriteError → σ → Prop
  | nil {s : σ} : Closing replies kind [] s [] none s
  | done {f : OpenFile} {fs : List OpenFile} {s s₁ s' : σ} {c : Committable}
    {cs : List Committable} {error : Option WriteError}
    (h : (f.close kind).Ends replies s (.ok c) s₁)
    (hrest : Closing replies kind fs s₁ cs error s') :
    Closing replies kind (f :: fs) s (c :: cs) error s'
  | lost {f : OpenFile} {fs : List OpenFile} {s s₁ s' : σ} {e : WriteError}
    {cs : List Committable} {error : Option WriteError}
    (h : (f.close kind).Ends replies s (.error e) s₁)
    (hrest : Closing replies kind fs s₁ cs error s') :
    Closing replies kind (f :: fs) s cs (some e) s'

/-- Why a file cannot be closed: it could not be staged. -/
theorem OpenFile.stage_of_close {f : OpenFile} {kind : CloseKind} {e : WriteError}
    (h : (f.close kind).Ends replies s (.error e) s') :
    ∃ cause, e = .stage f.slot.staging cause := by
  obtain ⟨reply, s₁, -, h⟩ := Task.ends_ask_bind.mp h
  cases reply with
  | ok _ => cases (Task.ends_report_done.mp h).1
  | error fault => exact ⟨_, Except.error.inj (Task.ends_done.mp h).1⟩

/-- The error of closing names one of the files. -/
theorem Closing.stage_of_error {kind : CloseKind} {fs : List OpenFile} {cs : List Committable}
    {error : Option WriteError} (h : Closing replies kind fs s cs error s') {e : WriteError}
    (he : error = some e) : ∃ f ∈ fs, ∃ cause, e = .stage f.slot.staging cause := by
  induction h with
  | nil => cases he
  | done _ _ ih =>
    obtain ⟨f, hf, cause, rfl⟩ := ih he
    exact ⟨f, List.mem_cons_of_mem _ hf, cause, rfl⟩
  | lost hclose _ _ =>
    obtain rfl := Option.some.inj he
    obtain ⟨cause, rfl⟩ := OpenFile.stage_of_close hclose
    exact ⟨_, List.mem_cons_self, cause, rfl⟩

theorem ManyFiles.hands_closeEach {kind : CloseKind} {fs : List OpenFile} {cs : List Committable}
    {error : Option WriteError} (h : (closeEach kind fs).Ends replies s (cs, error) s') :
    Closing replies kind fs s cs error s' := by
  induction fs generalizing s cs error with
  | nil =>
    obtain ⟨rfl, rfl, rfl⟩ := Task.ends_done_pair.mp h
    exact .nil
  | cons f fs ih =>
    simp only [closeEach, Task.ends_bind] at h
    obtain ⟨result, s₁, hclose, ⟨rest, error₁⟩, s₂, hrest, h⟩ := h
    cases result with
    | ok c =>
      obtain ⟨rfl, rfl, rfl⟩ := Task.ends_done_pair.mp h
      exact .done hclose (ih hrest)
    | error e =>
      obtain ⟨rfl, rfl, rfl⟩ := Task.ends_done_pair.mp h
      exact .lost hclose (ih hrest)

theorem OneFile.hands_close {kind : CloseKind} {w w' : OneFile} {result : Except WriteError Unit}
    (h : (w.close kind).Ends replies s (w', result) s') :
    ∃ cs error, Closing replies kind w.current.toList s cs error s' ∧ result = closeResult error ∧
      w' = { w with current := none, closed := w.closed ++ cs } := by
  obtain ⟨allocator, current, closed⟩ := w
  cases current with
  | none =>
    obtain ⟨rfl, rfl, rfl⟩ := Task.ends_done_pair.mp h
    exact ⟨[], none, .nil, rfl, by simp⟩
  | some f =>
    simp only [close, Task.ends_bind] at h
    obtain ⟨result, s₁, hclose, h⟩ := h
    cases result with
    | ok c =>
      obtain ⟨rfl, rfl, rfl⟩ := Task.ends_done_pair.mp h
      exact ⟨[c], none, .done hclose .nil, rfl, rfl⟩
    | error e =>
      obtain ⟨rfl, rfl, rfl⟩ := Task.ends_done_pair.mp h
      exact ⟨[], some e, .lost hclose .nil, rfl, by simp⟩

theorem ManyFiles.hands_close {kind : CloseKind} {w w' : ManyFiles}
    {result : Except WriteError Unit} (h : (w.close kind).Ends replies s (w', result) s') :
    ∃ cs error, Closing replies kind w.opened s cs error s' ∧ result = closeResult error ∧
      w' = { w with opened := [], closed := w.closed ++ cs } := by
  simp only [close, Task.ends_bind] at h
  obtain ⟨⟨cs, error⟩, s₁, heach, h⟩ := h
  simp only [reportOpen, Task.ends_report, Task.pure_eq, Task.ends_done_pair] at h
  obtain ⟨_, _, rfl, rfl, rfl, rfl⟩ := h
  exact ⟨cs, error, hands_closeEach heach, rfl, rfl⟩

/-- Closing a writer closes its open files, and leaves none of them open. -/
theorem Writer.hands_close {kind : CloseKind} {w w' : Writer} {result : Except WriteError Unit}
    (h : (w.close kind).Ends replies s (w', result) s') :
    ∃ cs error, Closing replies kind w.opened s cs error s' ∧ result = closeResult error ∧
      w'.opened = [] ∧ w'.closed = w.closed ++ cs ∧ w'.allocator = w.allocator ∧
      w'.strategy = w.strategy ∧ w'.fixed = w.fixed := by
  cases w with
  | single spec files =>
    obtain ⟨files', rfl, hclose⟩ := (Task.ends_wrap (Writer.single spec)).mp h
    obtain ⟨cs, error, hclosing, rfl, rfl⟩ := OneFile.hands_close hclose
    exact ⟨cs, error, hclosing, rfl, rfl, rfl, rfl, rfl, rfl⟩
  | grouped files =>
    obtain ⟨files', rfl, hclose⟩ := (Task.ends_wrap Writer.grouped).mp h
    obtain ⟨cs, error, hclosing, rfl, rfl⟩ := OneFile.hands_close hclose
    exact ⟨cs, error, hclosing, rfl, rfl, rfl, rfl, rfl, rfl⟩
  | dynamic files =>
    obtain ⟨files', rfl, hclose⟩ := (Task.ends_wrap Writer.dynamic).mp h
    obtain ⟨cs, error, hclosing, rfl, rfl⟩ := ManyFiles.hands_close hclose
    exact ⟨cs, error, hclosing, rfl, rfl, rfl, rfl, rfl, rfl⟩

/-- A writer that cannot be closed could not stage one of its open files. -/
theorem Writer.stage_of_close {kind : CloseKind} {w w' : Writer} {e : WriteError}
    (h : (w.close kind).Ends replies s (w', .error e) s') :
    ∃ f ∈ w.opened, ∃ cause, e = .stage f.slot.staging cause := by
  obtain ⟨cs, error, hclosing, hresult, -⟩ := hands_close h
  cases error with
  | none => cases hresult
  | some e' =>
    obtain rfl := Except.error.inj hresult
    exact hclosing.stage_of_error rfl

/-! ## Writing -/

/-- A projected record is put into an open file, or into a new one with the next place. A file whose
encoding failed is no longer there. -/
inductive Placed (encoder : Encoder ρ Json.Fault) (spec : PartitionSpec) (projected : ρ)
    (a : Allocator) (opened : List OpenFile) :
    Allocator → List OpenFile → Except WriteError Unit → Prop
  | added {f : OpenFile} {opened' : List OpenFile} (hf : f ∈ opened)
    (hok : (encoder projected f.buffer).2 = .ok ())
    (h : ∀ g ∈ opened', g ∈ opened ∨ g = (f.append (encoder projected f.buffer)).1) :
    Placed encoder spec projected a opened a opened' (.ok ())
  | started {opened' : List OpenFile} (hok : (encoder projected .empty).2 = .ok ())
    (h : ∀ g ∈ opened', g ∈ opened ∨ g = (OpenFile.append
      { slot := a.slot spec (a.count spec.bucket) } (encoder projected .empty)).1) :
    Placed encoder spec projected a opened (a.bump spec.bucket) opened' (.ok ())
  | spoiled {opened' : List OpenFile} {path : ObjectPath} {fault : Json.Fault}
    (h : opened' ⊆ opened) :
    Placed encoder spec projected a opened a opened' (.error (.encode path fault))
  | wasted {opened' : List OpenFile} {path : ObjectPath} {fault : Json.Fault}
    (h : opened' ⊆ opened) :
    Placed encoder spec projected a opened (a.bump spec.bucket) opened'
      (.error (.encode path fault))

section Placed

variable {encoder : Encoder ρ Json.Fault} {spec : PartitionSpec} {projected : ρ}
variable {a a' : Allocator} {opened opened' : List OpenFile} {result : Except WriteError Unit}

/-- Where a record is put, nothing but its encoding can go wrong. -/
theorem Placed.encode_of_error {e : WriteError}
    (h : Placed encoder spec projected a opened a' opened' (.error e)) :
    ∃ path fault, e = .encode path fault := by
  cases h with
  | spoiled _ => exact ⟨_, _, rfl⟩
  | wasted _ => exact ⟨_, _, rfl⟩

/-- What is open after a record was put was open before, or has the next place of its partition. -/
theorem Placed.slot_of_mem (h : Placed encoder spec projected a opened a' opened' result)
    {g : OpenFile} (hg : g ∈ opened') : (∃ f ∈ opened, g.slot = f.slot) ∨
      g.slot = a.slot spec (a.count spec.bucket) ∧ a' = a.bump spec.bucket := by
  cases h with
  | added hf _ hsub =>
    rcases hsub g hg with hg | rfl
    · exact .inl ⟨g, hg, rfl⟩
    · exact .inl ⟨_, hf, OpenFile.slot_append _ _⟩
  | started _ hsub =>
    rcases hsub g hg with hg | rfl
    · exact .inl ⟨g, hg, rfl⟩
    · exact .inr ⟨OpenFile.slot_append _ _, rfl⟩
  | spoiled hsub => exact .inl ⟨g, hsub hg, rfl⟩
  | wasted hsub => exact .inl ⟨g, hsub hg, rfl⟩

end Placed

/-- Everything that a write may do with what a writer has in hand, and with the store. -/
inductive Writer.Handled (replies : Replying σ) (layout : Layout ρ) (w : Writer) (s : σ)
    (record : ρ) (w' : Writer) (s' : σ) : Except WriteError Unit → Prop
  /-- The record has no place. -/
  | rejected {e : ComputationError} (hplace : layout.place w.fixed record = .error e)
    (hw : w' = w) (hs : s' = s) :
    Handled replies layout w s record w' s' (.error (.computation e))
  /-- The open files are of another partition, and cannot all be closed. -/
  | blocked {cs : List Committable} {spec : PartitionSpec} {projected : ρ} {e : WriteError}
    (hplace : layout.place w.fixed record = .ok (spec, projected))
    (hgrouped : w.strategy = .grouped) (hother : ∀ f ∈ w.opened, f.slot.bucket ≠ spec.bucket)
    (hclosing : Closing replies .commit w.opened s cs (some e) s') (hopened : w'.opened = [])
    (hclosed : w'.closed = w.closed ++ cs) (hallocator : w'.allocator = w.allocator) :
    Handled replies layout w s record w' s' (.error e)
  /-- The open files are of another partition, and are closed before the record is put. -/
  | turned {cs : List Committable} {spec : PartitionSpec} {projected : ρ}
    {result : Except WriteError Unit}
    (hplace : layout.place w.fixed record = .ok (spec, projected))
    (hclosing : Closing replies .commit w.opened s cs none s')
    (hplaced : Placed layout.encoder spec projected w.allocator [] w'.allocator w'.opened result)
    (hclosed : w'.closed = w.closed ++ cs) : Handled replies layout w s record w' s' result
  /-- The record is put. -/
  | put {spec : PartitionSpec} {projected : ρ} {result : Except WriteError Unit}
    (hplace : layout.place w.fixed record = .ok (spec, projected))
    (hsame : w.strategy = .grouped → ∀ f ∈ w.opened, f.slot.bucket = spec.bucket)
    (hplaced : Placed layout.encoder spec projected w.allocator w.opened w'.allocator w'.opened
      result)
    (hclosed : w'.closed = w.closed) (hs : s' = s) :
    Handled replies layout w s record w' s' result

/-- A record that was taken has a place. With the grouped strategy, all that is open after it is of
its partition. -/
theorem Writer.Handled.place_of_ok {layout : Layout ρ} {record : ρ} {w w' : Writer}
    (h : w.Handled replies layout s record w' s' (.ok ())) : ∃ spec projected,
      layout.place w.fixed record = .ok (spec, projected) ∧
        (w.strategy = .grouped → ∀ f ∈ w'.opened, f.slot.bucket = spec.bucket) := by
  have hbucket : ∀ {spec projected opened}, (∀ f ∈ opened, f.slot.bucket = spec.bucket) →
      Placed layout.encoder spec projected w.allocator opened w'.allocator w'.opened (.ok ()) →
      ∀ f ∈ w'.opened, f.slot.bucket = spec.bucket := by
    intro spec projected opened hopened hplaced f hf
    rcases hplaced.slot_of_mem hf with ⟨g, hg, hslot⟩ | ⟨hslot, -⟩
    · rw [hslot]
      exact hopened g hg
    · exact congrArg Slot.bucket hslot
  cases h with
  | turned hplace _ hplaced _ => exact ⟨_, _, hplace, fun _ ↦ hbucket (by simp) hplaced⟩
  | put hplace hsame hplaced _ _ =>
    exact ⟨_, _, hplace, fun hgrouped ↦ hbucket (hsame hgrouped) hplaced⟩

/-- Putting a record into a file asks nothing of a store. -/
theorem OneFile.hands_put {encoder : Encoder ρ Json.Fault} {spec : PartitionSpec} {projected : ρ}
    {w w' : OneFile} {result : Except WriteError Unit}
    (h : (w.put encoder spec projected).Ends replies s (w', result) s') : s' = s ∧
      w'.closed = w.closed ∧ Placed encoder spec projected w.allocator w.current.toList
        w'.allocator w'.current.toList result := by
  cases hcurrent : w.current with
  | none =>
    cases hencode : (encoder projected .empty).2 with
    | ok _ =>
      rw [put_of_new hcurrent hencode] at h
      simp only [Task.ends_emit, Task.ends_done_pair] at h
      obtain ⟨rfl, rfl, rfl⟩ := h
      exact ⟨rfl, rfl, .started hencode fun g hg ↦ .inr (by simpa using hg)⟩
    | error fault =>
      rw [put_of_new_error hcurrent hencode] at h
      simp only [Task.ends_emit, Task.ends_done_pair] at h
      obtain ⟨rfl, rfl, rfl⟩ := h
      exact ⟨rfl, rfl, .wasted (List.nil_subset _)⟩
  | some f =>
    cases hencode : (encoder projected f.buffer).2 with
    | ok _ =>
      rw [put_of_open hcurrent hencode] at h
      obtain ⟨rfl, rfl, rfl⟩ := Task.ends_done_pair.mp (Task.ends_emit.mp h)
      exact ⟨rfl, rfl, .added (f := f) (by simp) hencode fun g hg ↦ .inr (by simpa using hg)⟩
    | error fault =>
      rw [put_of_open_error hcurrent hencode] at h
      obtain ⟨rfl, rfl, rfl⟩ := Task.ends_done_pair.mp h
      exact ⟨rfl, rfl, .spoiled (List.nil_subset _)⟩

theorem ManyFiles.hands_put {layout : Layout ρ} {spec : PartitionSpec} {record projected : ρ}
    {w w' : ManyFiles} {result : Except WriteError Unit}
    (hplace : layout.place none record = .ok (spec, projected))
    (h : (w.write layout record).Ends replies s (w', result) s') : s' = s ∧
      w'.closed = w.closed ∧ Placed layout.encoder spec projected w.allocator w.opened
        w'.allocator w'.opened result := by
  cases hfile : w.file? spec.bucket with
  | none =>
    cases hencode : (layout.encoder projected .empty).2 with
    | ok _ =>
      rw [write_of_new hplace hfile hencode] at h
      simp only [Task.ends_emit, Task.ends_done_pair] at h
      obtain ⟨rfl, rfl, rfl⟩ := h
      exact ⟨rfl, rfl, .started hencode fun g hg ↦ by simpa using hg⟩
    | error fault =>
      rw [write_of_new_error hplace hfile hencode] at h
      simp only [Task.ends_emit, Task.ends_done_pair] at h
      obtain ⟨rfl, rfl, rfl⟩ := h
      exact ⟨rfl, rfl, .wasted (List.Subset.refl _)⟩
  | some f =>
    cases hencode : (layout.encoder projected f.buffer).2 with
    | ok _ =>
      rw [write_of_open hplace hfile hencode] at h
      obtain ⟨rfl, rfl, rfl⟩ := Task.ends_done_pair.mp (Task.ends_emit.mp h)
      refine ⟨rfl, rfl, .added (List.mem_of_find?_eq_some hfile) hencode fun g hg ↦ ?_⟩
      obtain ⟨g', hg', rfl⟩ := List.mem_map.mp hg
      split
      · exact .inr rfl
      · exact .inl hg'
    | error fault =>
      rw [write_of_open_error hplace hfile hencode] at h
      obtain ⟨rfl, rfl, rfl⟩ := Task.ends_done_pair.mp (Task.ends_emit.mp h)
      exact ⟨rfl, rfl, .spoiled List.filter_sublist.subset⟩

theorem OneFile.hands_writeFixed {layout : Layout ρ} {fixed : PartitionSpec} {record : ρ}
    {w w' : OneFile} {result : Except WriteError Unit}
    (h : (w.writeFixed layout fixed record).Ends replies s (w', result) s') :
    (Writer.single fixed w).Handled replies layout s record (.single fixed w') s' result := by
  cases hproject : layout.computer.project record with
  | error e =>
    rw [writeFixed_of_rejected hproject] at h
    obtain ⟨rfl, rfl, rfl⟩ := Task.ends_done_pair.mp h
    exact .rejected (Layout.place_some_of_project hproject) rfl rfl
  | ok projected =>
    rw [writeFixed_of_project hproject] at h
    obtain ⟨hs, hclosed, hplaced⟩ := hands_put h
    exact .put (Layout.place_some.mpr ⟨rfl, hproject⟩) nofun hplaced hclosed hs

theorem OneFile.hands_writeClustered {layout : Layout ρ} {record : ρ} {w w' : OneFile}
    {result : Except WriteError Unit}
    (h : (w.writeClustered layout record).Ends replies s (w', result) s') :
    (Writer.grouped w).Handled replies layout s record (.grouped w') s' result := by
  cases hplace : layout.place none record with
  | error e =>
    rw [writeClustered_of_rejected hplace] at h
    obtain ⟨rfl, rfl, rfl⟩ := Task.ends_done_pair.mp h
    exact .rejected hplace rfl rfl
  | ok placed =>
  obtain ⟨spec, projected⟩ := placed
  by_cases hsame : ∀ f ∈ w.current, f.slot.bucket = spec.bucket
  · rw [writeClustered_of_same hplace hsame] at h
    obtain ⟨hs, hclosed, hplaced⟩ := hands_put h
    refine .put hplace (fun _ f hf ↦ hsame f ?_) hplaced hclosed hs
    simpa [Writer.opened] using hf
  · push Not at hsame
    obtain ⟨f, hcurrent, hother⟩ := hsame
    rw [writeClustered_of_other hplace hcurrent hother, Task.ends_bind] at h
    obtain ⟨⟨w₁, closed⟩, s₁, hclose, h⟩ := h
    obtain ⟨cs, error, hclosing, rfl, rfl⟩ := hands_close hclose
    cases error with
    | none =>
      obtain ⟨rfl, hclosed, hplaced⟩ := hands_put h
      exact .turned hplace hclosing hplaced hclosed
    | some e =>
      obtain ⟨rfl, rfl, rfl⟩ := Task.ends_done_pair.mp h
      refine .blocked hplace rfl (fun g hg ↦ ?_) hclosing rfl rfl rfl
      rw [Writer.opened, Option.mem_def.mp hcurrent] at hg
      exact List.mem_singleton.mp hg ▸ hother

theorem ManyFiles.hands_write {layout : Layout ρ} {record : ρ} {w w' : ManyFiles}
    {result : Except WriteError Unit} (h : (w.write layout record).Ends replies s (w', result) s') :
    (Writer.dynamic w).Handled replies layout s record (.dynamic w') s' result := by
  cases hplace : layout.place none record with
  | error e =>
    rw [write_of_rejected hplace] at h
    obtain ⟨rfl, rfl, rfl⟩ := Task.ends_done_pair.mp h
    exact .rejected hplace rfl rfl
  | ok placed =>
    obtain ⟨hs, hclosed, hplaced⟩ := hands_put hplace h
    exact .put hplace nofun hplaced hclosed hs

/-- A write does one of the things that `Writer.Handled` lists. -/
theorem Writer.hands_write {layout : Layout ρ} {record : ρ} {w w' : Writer}
    {result : Except WriteError Unit} (h : (w.write layout record).Ends replies s (w', result) s') :
    w.Handled replies layout s record w' s' result := by
  cases w with
  | single spec files =>
    obtain ⟨files', rfl, hwrite⟩ := (Task.ends_wrap (Writer.single spec)).mp h
    exact OneFile.hands_writeFixed hwrite
  | grouped files =>
    obtain ⟨files', rfl, hwrite⟩ := (Task.ends_wrap Writer.grouped).mp h
    exact OneFile.hands_writeClustered hwrite
  | dynamic files =>
    obtain ⟨files', rfl, hwrite⟩ := (Task.ends_wrap Writer.dynamic).mp h
    exact ManyFiles.hands_write hwrite

/-- Only a record without a place is rejected. -/
theorem Writer.place_of_rejected {layout : Layout ρ} {record : ρ} {w w' : Writer}
    {e : ComputationError}
    (h : (w.write layout record).Ends replies s (w', .error (.computation e)) s') :
    layout.place w.fixed record = .error e := by
  cases hands_write h with
  | rejected hplace _ _ => exact hplace
  | blocked _ _ _ hclosing _ _ _ =>
    obtain ⟨f, -, cause, he⟩ := hclosing.stage_of_error rfl
    cases he
  | turned _ _ hplaced _ =>
    obtain ⟨path, fault, he⟩ := hplaced.encode_of_error
    cases he
  | put _ _ hplaced _ _ =>
    obtain ⟨path, fault, he⟩ := hplaced.encode_of_error
    cases he

end TableSink
