import Mathlib.Data.List.Nodup
import TableSink.Proofs.Writer.Registry

/-!
# What a writer ends with

`Writer.ends_close` and `Writer.ends_write` say once, for all strategies and for every way in which
puts may fail, what closing and writing do to the books. The strategies only differ in
`Books.turn`.
-/

namespace TableSink

variable {ρ : Type} {d : Desk ρ} {b : Books ρ} {a : Allocator} {s s' : MemoryStore}

open MemoryStore (Replies Updated)

/-! ## Closing -/

/-- What closing some files may end with: those that could be closed, those that could not, and
whether that was reported. -/
structure Books.Closes (d : Desk ρ) (b : Books ρ) (a : Allocator) (s' : MemoryStore)
    (done lost : List (Filed ρ)) (error : Option WriteError) : Prop where
  perm : (done ++ lost).Perm b.opened
  done_eq : lost = [] → done = b.opened
  holds : (b.close done lost).Holds d.layout d.mishaps a d.init s'
  error : error = none ∧ lost = [] ∨
    (∃ f ∈ lost, ∃ e, error = some (.stage (f.slot a).staging e)) ∧ ∃ m, d.mishaps m

namespace Books

theorem close_nil (hb : b.opened = []) : b.close [] [] = b := by
  obtain ⟨shown, kept, closed, opened, removed, dropped⟩ := b
  simp only [close, List.append_nil]
  rw [← hb]

theorem Closes.nil (h : b.Holds d.layout d.mishaps a d.init s) (hb : b.opened = []) :
    b.Closes d a s [] [] none where
  perm := by simp [hb]
  done_eq _ := hb.symm
  holds := by rwa [close_nil hb]
  error := .inl ⟨rfl, rfl⟩

/-- The first open file was closed, and then the others. -/
theorem Closes.cons_done {f : Filed ρ} {fs done lost : List (Filed ρ)} {error : Option WriteError}
    (hb : b.opened = f :: fs)
    (h : { b with opened := fs, closed := b.closed ++ [f] }.Closes d a s' done lost error) :
    b.Closes d a s' (f :: done) lost error where
  perm := by simpa [hb] using h.perm
  done_eq hlost := by simpa [hb] using h.done_eq hlost
  holds := by simpa [close] using h.holds
  error := h.error

/-- The first open file could not be closed, and then come the others. -/
theorem Closes.cons_lost {f : Filed ρ} {fs done lost : List (Filed ρ)} {error : Option WriteError}
    {e : StorageError} (hb : b.opened = f :: fs) (hm : ∃ m, d.mishaps m)
    (h : { b with opened := fs, dropped := b.dropped ++ [f] }.Closes d a s' done lost error) :
    b.Closes d a s' done (f :: lost) (some (.stage (f.slot a).staging e)) where
  perm := by
    rw [hb]
    exact List.perm_middle.trans (h.perm.cons f)
  done_eq hlost := absurd hlost (List.cons_ne_nil _ _)
  holds := by simpa [close] using h.holds
  error := .inr ⟨⟨f, List.mem_cons_self, e, rfl⟩, hm⟩

end Books

/-- Closing one file. -/
theorem Filed.ends_close {f : Filed ρ} {fs : List (Filed ρ)} {kind : CloseKind}
    {result : Except WriteError Committable} (hb : b.opened = f :: fs)
    (hholds : b.Holds d.layout d.mishaps a d.init s)
    (h : ((f.openFile d.layout a).close kind).Ends (Replies d.mishaps) s result s') :
    result = .ok (f.committable d.layout a kind) ∧
        { b with opened := fs, closed := b.closed ++ [f] }.Holds d.layout d.mishaps a d.init s' ∨
      (∃ e, result = .error (.stage (f.slot a).staging e)) ∧ (∃ m, d.mishaps m) ∧
        { b with opened := fs, dropped := b.dropped ++ [f] }.Holds
          d.layout d.mishaps a d.init s' := by
  rcases OpenFile.ends_close h with ⟨rfl, hs⟩ | ⟨⟨e, rfl⟩, ⟨rfl, hm⟩ | ⟨hs, hm⟩⟩
  · exact .inl ⟨rfl, hholds.stage hb hs⟩
  · exact .inr ⟨⟨e, rfl⟩, ⟨_, hm⟩, hholds.drop hb (.inl rfl)⟩
  · exact .inr ⟨⟨e, rfl⟩, ⟨_, hm⟩, hholds.drop hb (.inr ⟨hs, hm⟩)⟩

/-- Closing files does to the books what it does to each of them. -/
theorem Books.closes_of_closing {fs : List (Filed ρ)} {kind : CloseKind} {cs : List Committable}
    {error : Option WriteError} (hb : b.opened = fs)
    (hholds : b.Holds d.layout d.mishaps a d.init s)
    (h : Closing (Replies d.mishaps) kind (fs.map (Filed.openFile d.layout a)) s cs error s') :
    ∃ done lost, b.Closes d a s' done lost error ∧
      cs = done.map fun f ↦ f.committable d.layout a kind := by
  induction fs generalizing b s cs error with
  | nil =>
    cases h
    exact ⟨[], [], .nil hholds hb, rfl⟩
  | cons f fs ih =>
    cases h with
    | done hclose hrest =>
      rcases Filed.ends_close hb hholds hclose with ⟨hc, hstaged⟩ | ⟨⟨e, hc⟩, -⟩
      · obtain rfl := Except.ok.inj hc
        obtain ⟨done, lost, hcloses, rfl⟩ := ih rfl hstaged hrest
        exact ⟨f :: done, lost, hcloses.cons_done hb, rfl⟩
      · cases hc
    | lost hclose hrest =>
      rcases Filed.ends_close hb hholds hclose with ⟨hc, -⟩ | ⟨⟨e, hc⟩, hm, hdropped⟩
      · cases hc
      · obtain rfl := Except.error.inj hc
        obtain ⟨done, lost, hcloses, rfl⟩ := ih rfl hdropped hrest
        exact ⟨done, f :: lost, hcloses.cons_lost hb hm, rfl⟩

/-- The writer is at the desk. -/
structure Writer.At (d : Desk ρ) (w : Writer) : Prop where
  strategy : w.strategy = d.strategy
  fixed : w.fixed = d.fixed

theorem Writer.At.drain {w : Writer} (h : w.At d) : w.drain.At d := by
  cases w <;> exact ⟨h.strategy, h.fixed⟩

section At

variable {σ : Type} {replies : Replying σ} {st st' : σ} {w w' : Writer}
variable {result : Except WriteError Unit}

/-- Strategy and fixed partition stay, whatever a store is like. -/
theorem Writer.At.write {layout : Layout ρ} {record : ρ} (hat : w.At d)
    (h : (w.write layout record).Ends replies st (w', result) st') : w'.At d := by
  cases w with
  | single spec files =>
    obtain ⟨files', rfl, -⟩ := (Task.ends_wrap (Writer.single spec)).mp h
    exact ⟨hat.strategy, hat.fixed⟩
  | grouped files =>
    obtain ⟨files', rfl, -⟩ := (Task.ends_wrap Writer.grouped).mp h
    exact ⟨hat.strategy, hat.fixed⟩
  | dynamic files =>
    obtain ⟨files', rfl, -⟩ := (Task.ends_wrap Writer.dynamic).mp h
    exact ⟨hat.strategy, hat.fixed⟩

theorem Writer.At.close {kind : CloseKind} (hat : w.At d)
    (h : (w.close kind).Ends replies st (w', result) st') : w'.At d := by
  obtain ⟨cs, error, -, -, -, -, -, hstrategy, hfixed⟩ := hands_close h
  exact ⟨hstrategy.trans hat.strategy, hfixed.trans hat.fixed⟩

end At

/-- Closing a writer: every open file is closed or given up, and nothing else changes. -/
theorem Writer.ends_close {w w' : Writer} {kind : CloseKind} {result : Except WriteError Unit}
    (hat : w.At d) (hw : w.opened = b.opened.map (Filed.openFile d.layout w.allocator))
    (hholds : b.Holds d.layout d.mishaps w.allocator d.init s)
    (h : (w.close kind).Ends (Replies d.mishaps) s (w', result) s') :
    ∃ done lost error, b.Closes d w.allocator s' done lost error ∧ result = closeResult error ∧
      w'.At d ∧ w'.allocator = w.allocator ∧ w'.opened = [] ∧
      w'.closed = w.closed ++ done.map fun f ↦ f.committable d.layout w.allocator kind := by
  obtain ⟨cs, error, hclosing, hresult, hopened, hclosed, hallocator, hstrategy, hfixed⟩ :=
    Writer.hands_close h
  rw [hw] at hclosing
  obtain ⟨done, lost, hcloses, rfl⟩ := Books.closes_of_closing rfl hholds hclosing
  exact ⟨done, lost, error, hcloses, hresult, ⟨hstrategy.trans hat.strategy,
    hfixed.trans hat.fixed⟩, hallocator, hopened, hclosed⟩

/-! ## Writing -/

/-- What a record with a place may do to the books: it is added, or it spoils its file. -/
inductive Books.Put (d : Desk ρ) (b : Books ρ) (spec : PartitionSpec) (sequence : Nat)
    (record projected : ρ) : Books ρ → Except WriteError Unit → Prop
  | added
    (h : (d.layout.encoder projected (d.layout.lines (Filed.held b.opened spec))).2 = .ok ()) :
    Put d b spec sequence record projected (b.add spec sequence record) (.ok ())
  | spoiled {path : ObjectPath} {fault : Json.Fault}
    (h : (d.layout.encoder projected (d.layout.lines (Filed.held b.opened spec))).2 =
      .error fault) :
    Put d b spec sequence record projected (b.spoil spec sequence) (.error (.encode path fault))

variable {spec : PartitionSpec} {record projected : ρ}

theorem OneFile.ends_put {w w' : OneFile} {result : Except WriteError Unit}
    (htracks : b.Tracks d s w.allocator w.current.toList w.closed)
    (hspec : ∀ f ∈ b.opened, f.spec = spec)
    (hplace : d.layout.place d.fixed record = .ok (spec, projected))
    (h : (w.put d.layout.encoder spec projected).Ends (Replies d.mishaps) s (w', result) s') :
    s' = s ∧ ∃ b', b.Put d spec (w.allocator.count spec.bucket) record projected b' result ∧
      b'.Tracks d s w'.allocator w'.current.toList w'.closed := by
  have hproject := Layout.project_of_place hplace
  obtain ⟨allocator, current, closed⟩ := w
  cases current with
  | none =>
    have hopened : b.opened = [] := by simpa using htracks.opened.symm
    have hnone : ¬ ∃ f ∈ b.opened, f.spec = spec := by simp [hopened]
    have hheld : Filed.held b.opened spec = [] := by rw [hopened]; rfl
    cases hencode : (d.layout.encoder projected .empty).2 with
    | ok _ =>
      rw [put_of_new rfl hencode, Filed.append_new d.layout allocator spec _ hproject hencode] at h
      simp only [Task.ends_emit, Task.ends_done_pair] at h
      obtain ⟨rfl, rfl, rfl⟩ := h
      have hadd : (b.add spec (allocator.count spec.bucket) record).opened =
          [⟨spec, allocator.count spec.bucket, [record]⟩] := by
        simp [Books.add, hopened]
      have hadded := htracks.add_of_not_exists hplace hnone
      rw [hadd] at hadded
      exact ⟨rfl, _, .added (hheld ▸ hencode), hadded⟩
    | error fault =>
      rw [put_of_new_error rfl hencode] at h
      simp only [Task.ends_emit, Task.ends_done_pair] at h
      obtain ⟨rfl, rfl, rfl⟩ := h
      exact ⟨rfl, _, .spoiled (hheld ▸ hencode), htracks.spoil_of_not_exists hnone⟩
  | some g =>
    obtain ⟨f, hopened, rfl⟩ : ∃ f, b.opened = [f] ∧ f.openFile d.layout allocator = g := by
      obtain ⟨f, hf, hg⟩ := List.map_eq_singleton_iff.mp htracks.opened.symm
      exact ⟨f, hf, hg⟩
    obtain rfl := hspec f (by simp [hopened])
    have hmem : f ∈ b.opened := by simp [hopened]
    have hsome : ∃ g ∈ b.opened, g.spec = f.spec := ⟨f, hmem, rfl⟩
    have hheld := Filed.held_of_mem htracks.distinct hmem
    cases hencode : (d.layout.encoder projected (f.bytes d.layout)).2 with
    | ok _ =>
      rw [put_of_open rfl hencode, f.append_openFile d.layout allocator hproject hencode] at h
      obtain ⟨rfl, rfl, rfl⟩ := Task.ends_done_pair.mp (Task.ends_emit.mp h)
      have hadd : (b.add f.spec (allocator.count f.spec.bucket) record).opened =
          [f.add record] := by
        simp [Books.add, hopened]
      have hadded := htracks.add_of_exists hplace hsome (allocator.count f.spec.bucket)
      rw [hadd] at hadded
      exact ⟨rfl, _, .added (hheld ▸ hencode), hadded⟩
    | error fault =>
      rw [put_of_open_error rfl hencode] at h
      obtain ⟨rfl, rfl, rfl⟩ := Task.ends_done_pair.mp h
      have hspoil : (b.spoil f.spec (allocator.count f.spec.bucket)).opened = [] := by
        simp [Books.spoil, hopened]
      have hspoiled := htracks.spoil_of_exists hsome (allocator.count f.spec.bucket)
      rw [hspoil] at hspoiled
      exact ⟨rfl, _, .spoiled (hheld ▸ hencode), hspoiled⟩

theorem ManyFiles.ends_put {w w' : ManyFiles} {result : Except WriteError Unit}
    (hfixed : d.fixed = none) (htracks : b.Tracks d s w.allocator w.opened w.closed)
    (hplace : d.layout.place d.fixed record = .ok (spec, projected))
    (h : (w.write d.layout record).Ends (Replies d.mishaps) s (w', result) s') :
    s' = s ∧ ∃ b', b.Put d spec (w.allocator.count spec.bucket) record projected b' result ∧
      b'.Tracks d s w'.allocator w'.opened w'.closed := by
  have hholds : w.Holds d.layout b.opened := ⟨htracks.opened, htracks.distinct⟩
  obtain ⟨allocator, opened, closed⟩ := w'
  obtain ⟨rfl, rfl, files, hholds', hwrote⟩ := hholds.write h
  obtain rfl : opened = files.map (Filed.openFile d.layout allocator) := hholds'.opened
  have hsame : ∀ {placed : PartitionSpec × ρ}, d.layout.place none record = .ok placed →
      (spec, projected) = placed := fun h ↦ Except.ok.inj ((hfixed ▸ hplace).symm.trans h)
  cases hwrote with
  | rejected hrejected =>
    rw [hfixed, hrejected] at hplace
    cases hplace
  | added hplaced hencode hopen =>
    obtain ⟨rfl, rfl⟩ := Prod.mk.inj (hsame hplaced)
    have hadded := htracks.add_of_exists hplace hopen (w.allocator.count spec.bucket)
    refine ⟨rfl, _, .added hencode, ?_⟩
    rwa [Books.add, if_pos hopen] at hadded ⊢
  | started hplaced hencode hnone =>
    obtain ⟨rfl, rfl⟩ := Prod.mk.inj (hsame hplaced)
    have hnone : ¬ ∃ f ∈ b.opened, f.spec = spec := by simpa using hnone
    have hadded := htracks.add_of_not_exists hplace hnone
    refine ⟨rfl, _, .added hencode, ?_⟩
    rwa [Books.add, if_neg hnone] at hadded ⊢
  | spoiled hplaced hencode hopen =>
    obtain ⟨rfl, rfl⟩ := Prod.mk.inj (hsame hplaced)
    have hspoiled := htracks.spoil_of_exists hopen (w.allocator.count spec.bucket)
    refine ⟨rfl, _, .spoiled hencode, ?_⟩
    rwa [Books.spoil, if_pos hopen] at hspoiled ⊢
  | wasted hplaced hencode hnone =>
    obtain ⟨rfl, rfl⟩ := Prod.mk.inj (hsame hplaced)
    have hspoiled := htracks.spoil_of_not_exists (by simpa using hnone)
    rw [htracks.opened] at hspoiled
    exact ⟨rfl, _, .spoiled hencode, hspoiled⟩

/-- Everything that a write may do to the books. -/
inductive Books.Wrote (d : Desk ρ) (b : Books ρ) (a : Allocator) (record : ρ) :
    Books ρ → Except WriteError Unit → Prop
  /-- The record has no place. -/
  | rejected {e : ComputationError} (h : d.layout.place d.fixed record = .error e) :
    Wrote d b a record b (.error (.computation e))
  /-- The open file belongs to another partition, and cannot be closed. -/
  | blocked {spec : PartitionSpec} {projected : ρ} {f : Filed ρ} {e : StorageError}
    (hplace : d.layout.place d.fixed record = .ok (spec, projected))
    (hstrategy : d.strategy = .grouped) (hopened : b.opened = [f]) (hturn : f.spec ≠ spec)
    (hm : ∃ m, d.mishaps m) :
    Wrote d b a record (b.close [] b.opened) (.error (.stage (f.slot a).staging e))
  /-- The record goes to the file of its partition. -/
  | put {spec : PartitionSpec} {projected : ρ} {b' : Books ρ} {result : Except WriteError Unit}
    (hplace : d.layout.place d.fixed record = .ok (spec, projected))
    (hput : (b.turn d.strategy spec).Put d spec (a.count spec.bucket) record projected b' result) :
    Wrote d b a record b' result

/-- No write touches what was published, kept or removed. -/
theorem Books.Wrote.unmoved {b' : Books ρ} {result : Except WriteError Unit}
    (h : b.Wrote d a record b' result) :
    b'.shown = b.shown ∧ b'.kept = b.kept ∧ b'.removed = b.removed := by
  cases h with
  | rejected _ => exact ⟨rfl, rfl, rfl⟩
  | blocked _ _ _ _ _ => exact ⟨rfl, rfl, rfl⟩
  | @put spec _ _ _ _ hput =>
    obtain ⟨hshown, hkept, hremoved⟩ := b.unmoved_turn d.strategy spec
    rw [← hshown, ← hkept, ← hremoved]
    cases hput with
    | added _ => exact unmoved_add _ _ _ _
    | spoiled _ => exact unmoved_spoil _ _ _

/-- A batch whose files are closed is still tracked. -/
theorem Books.Tracks.of_closes {opened : List OpenFile} {closed : List Committable}
    {done lost : List (Filed ρ)} {error : Option WriteError}
    (htracks : b.Tracks d s a opened closed) (h : b.Closes d a s' done lost error) :
    (b.close done lost).Tracks d s' a []
      (closed ++ done.map fun f ↦ f.committable d.layout a .commit) where
  holds := h.holds
  base := htracks.base
  opened := rfl
  closed := by rw [htracks.closed, close, List.map_append]
  proper f hf := by
    rw [close, List.append_nil, List.mem_append] at hf
    refine htracks.proper f (List.mem_append.mpr (hf.imp id fun hf ↦ ?_))
    exact h.perm.subset (List.mem_append_left _ hf)
  distinct := List.nodup_nil

theorem OneFile.ends_writeFixed {w w' : OneFile} {fixed : PartitionSpec}
    {result : Except WriteError Unit} (hfixed : d.fixed = some fixed)
    (hstrategy : d.strategy = .single)
    (htracks : b.Tracks d s w.allocator w.current.toList w.closed)
    (h : (w.writeFixed d.layout fixed record).Ends (Replies d.mishaps) s (w', result) s') :
    ∃ b', b.Wrote d w.allocator record b' result ∧
      b'.Tracks d s' w'.allocator w'.current.toList w'.closed ∧
      ∀ e, d.layout.place d.fixed record = .error e → w' = w ∧ s' = s := by
  cases hproject : d.layout.computer.project record with
  | error e =>
    have hplace : d.layout.place d.fixed record = .error e :=
      hfixed ▸ Layout.place_some_of_project hproject
    rw [writeFixed_of_rejected hproject] at h
    obtain ⟨rfl, rfl, rfl⟩ := Task.ends_done_pair.mp h
    exact ⟨b, .rejected hplace, htracks, fun _ _ ↦ ⟨rfl, rfl⟩⟩
  | ok projected =>
    have hplace : d.layout.place d.fixed record = .ok (fixed, projected) := by
      rw [hfixed]
      exact Layout.place_some.mpr ⟨rfl, hproject⟩
    have hspec : ∀ f ∈ b.opened, f.spec = fixed := by
      intro f hf
      obtain ⟨hne, hrecords⟩ := htracks.proper f (List.mem_append_right _ hf)
      obtain ⟨r, hr⟩ := List.exists_mem_of_ne_nil _ hne
      obtain ⟨p, hp⟩ := hrecords r hr
      rw [hfixed] at hp
      exact (Layout.place_some.mp hp).1
    have hturn : b.turn d.strategy fixed = b := if_neg (by simp [hstrategy])
    rw [writeFixed_of_project hproject] at h
    obtain ⟨rfl, b', hput, htracks'⟩ := OneFile.ends_put htracks hspec hplace h
    exact ⟨b', .put hplace (by rwa [hturn]), htracks', fun e he ↦ by simp [hplace] at he⟩

theorem OneFile.ends_writeClustered {w w' : OneFile} {result : Except WriteError Unit}
    (hfixed : d.fixed = none) (hstrategy : d.strategy = .grouped)
    (htracks : b.Tracks d s w.allocator w.current.toList w.closed)
    (h : (w.writeClustered d.layout record).Ends (Replies d.mishaps) s (w', result) s') :
    ∃ b', b.Wrote d w.allocator record b' result ∧
      b'.Tracks d s' w'.allocator w'.current.toList w'.closed ∧
      ∀ e, d.layout.place d.fixed record = .error e → w' = w ∧ s' = s := by
  cases hplaced : d.layout.place none record with
  | error e =>
    rw [writeClustered_of_rejected hplaced] at h
    obtain ⟨rfl, rfl, rfl⟩ := Task.ends_done_pair.mp h
    exact ⟨b, .rejected (hfixed ▸ hplaced), htracks, fun _ _ ↦ ⟨rfl, rfl⟩⟩
  | ok placed =>
    obtain ⟨spec, projected⟩ := placed
    obtain ⟨hpartition, hproject⟩ := Layout.place_none.mp hplaced
    have hplace : d.layout.place d.fixed record = .ok (spec, projected) := hfixed ▸ hplaced
    have hnot : ∀ e, d.layout.place d.fixed record = .error e → w' = w ∧ s' = s :=
      fun e he ↦ by simp [hplace] at he
    rw [writeClustered, hpartition, hproject] at h
    have hany : w.current.any (·.slot.bucket ≠ spec.bucket) = true ↔
        ∃ f ∈ b.opened, f.spec ≠ spec := by
      have hlist : w.current.any (·.slot.bucket ≠ spec.bucket) =
          w.current.toList.any (·.slot.bucket ≠ spec.bucket) := by cases w.current <;> simp
      have hbucket : ∀ f : Filed ρ, f.spec.bucket = spec.bucket ↔ f.spec = spec :=
        fun f ↦ PartitionSpec.bucket_injective.eq_iff
      rw [hlist, htracks.opened]
      simp [Filed.openFile, Filed.slot, Allocator.slot, hbucket]
    by_cases hturn : ∃ f ∈ b.opened, f.spec ≠ spec
    · have hturned : b.turn d.strategy spec = b.close b.opened [] := if_pos ⟨hstrategy, hturn⟩
      simp only [hany.mpr hturn, if_true, Task.ends_bind] at h
      obtain ⟨⟨w₁, closed⟩, s₁, hclose, h⟩ := h
      obtain ⟨cs, error, hclosing, rfl, rfl⟩ := OneFile.hands_close hclose
      rw [htracks.opened] at hclosing
      obtain ⟨done, lost, hcloses, rfl⟩ := Books.closes_of_closing rfl htracks.holds hclosing
      have htracks₁ := htracks.of_closes hcloses
      rcases hcloses.error with ⟨rfl, rfl⟩ | ⟨⟨f, hlost, e, rfl⟩, hm⟩
      · obtain rfl := hcloses.done_eq rfl
        obtain ⟨rfl, b', hput, htracks'⟩ := OneFile.ends_put htracks₁ (by simp [Books.close])
          hplace h
        exact ⟨b', .put hplace (by rwa [hturned]), htracks', hnot⟩
      · obtain ⟨rfl, rfl, rfl⟩ := Task.ends_done_pair.mp h
        -- There is one open file at most, and it was lost.
        have hdone : done = [] ∧ lost = [f] ∧ b.opened = [f] := by
          have hlength := congrArg List.length htracks.opened
          have hperm := hcloses.perm.length_eq
          have hone : w.current.toList.length ≤ 1 := by cases w.current <;> simp
          have hlost' := List.length_pos_of_mem hlost
          simp only [List.length_map, List.length_append] at hlength hperm
          obtain rfl := List.length_eq_zero_iff.mp (show done.length = 0 by omega)
          obtain ⟨g, rfl⟩ := List.length_eq_one_iff.mp (show lost.length = 1 by omega)
          obtain rfl := List.mem_singleton.mp hlost
          exact ⟨rfl, rfl, List.perm_singleton.mp hcloses.perm.symm⟩
        obtain ⟨rfl, rfl, hopened⟩ := hdone
        have hother : f.spec ≠ spec := by simpa [hopened] using hturn
        rw [← hopened] at htracks₁
        exact ⟨_, .blocked hplace hstrategy hopened hother hm, htracks₁, hnot⟩
    · have hturned : b.turn d.strategy spec = b := if_neg fun ht ↦ hturn ht.2
      have hspec : ∀ f ∈ b.opened, f.spec = spec := by simpa using hturn
      simp only [mt hany.mp hturn] at h
      obtain ⟨rfl, b', hput, htracks'⟩ := OneFile.ends_put htracks hspec hplace h
      exact ⟨b', .put hplace (by rwa [hturned]), htracks', hnot⟩

theorem ManyFiles.ends_write {w w' : ManyFiles} {result : Except WriteError Unit}
    (hfixed : d.fixed = none) (hstrategy : d.strategy = .dynamic)
    (htracks : b.Tracks d s w.allocator w.opened w.closed)
    (h : (w.write d.layout record).Ends (Replies d.mishaps) s (w', result) s') :
    ∃ b', b.Wrote d w.allocator record b' result ∧
      b'.Tracks d s' w'.allocator w'.opened w'.closed ∧
      ∀ e, d.layout.place d.fixed record = .error e → w' = w ∧ s' = s := by
  have hturned : ∀ spec, b.turn d.strategy spec = b := fun spec ↦ if_neg (by simp [hstrategy])
  cases hplaced : d.layout.place none record with
  | error e =>
    rw [write_of_rejected hplaced] at h
    obtain ⟨rfl, rfl, rfl⟩ := Task.ends_done_pair.mp h
    exact ⟨b, .rejected (hfixed ▸ hplaced), htracks, fun _ _ ↦ ⟨rfl, rfl⟩⟩
  | ok placed =>
    have hplace : d.layout.place d.fixed record = .ok placed := hfixed ▸ hplaced
    obtain ⟨rfl, b', hput, htracks'⟩ := ManyFiles.ends_put hfixed htracks hplace h
    exact ⟨b', .put hplace (by rwa [hturned]), htracks', fun e he ↦ by simp [hplace] at he⟩

/-- Writing a record does one of the things that `Books.Wrote` lists, and nothing at all if the
record is rejected. -/
theorem Writer.ends_write {w w' : Writer} {result : Except WriteError Unit} (hat : w.At d)
    (htracks : b.Tracks d s w.allocator w.opened w.closed)
    (h : (w.write d.layout record).Ends (Replies d.mishaps) s (w', result) s') :
    ∃ b', b.Wrote d w.allocator record b' result ∧
      b'.Tracks d s' w'.allocator w'.opened w'.closed ∧ w'.At d ∧
      ∀ e, d.layout.place d.fixed record = .error e → w' = w ∧ s' = s := by
  cases w with
  | single spec files =>
    obtain ⟨files', rfl, hwrite⟩ := (Task.ends_wrap (Writer.single spec)).mp h
    obtain ⟨b', hwrote, htracks', hnot⟩ :=
      OneFile.ends_writeFixed hat.fixed.symm hat.strategy.symm htracks hwrite
    refine ⟨b', hwrote, htracks', ⟨hat.strategy, hat.fixed⟩, fun e he ↦ ?_⟩
    obtain ⟨rfl, rfl⟩ := hnot e he
    exact ⟨rfl, rfl⟩
  | grouped files =>
    obtain ⟨files', rfl, hwrite⟩ := (Task.ends_wrap Writer.grouped).mp h
    obtain ⟨b', hwrote, htracks', hnot⟩ :=
      OneFile.ends_writeClustered hat.fixed.symm hat.strategy.symm htracks hwrite
    refine ⟨b', hwrote, htracks', ⟨hat.strategy, hat.fixed⟩, fun e he ↦ ?_⟩
    obtain ⟨rfl, rfl⟩ := hnot e he
    exact ⟨rfl, rfl⟩
  | dynamic files =>
    obtain ⟨files', rfl, hwrite⟩ := (Task.ends_wrap Writer.dynamic).mp h
    obtain ⟨b', hwrote, htracks', hnot⟩ :=
      ManyFiles.ends_write hat.fixed.symm hat.strategy.symm htracks hwrite
    refine ⟨b', hwrote, htracks', ⟨hat.strategy, hat.fixed⟩, fun e he ↦ ?_⟩
    obtain ⟨rfl, rfl⟩ := hnot e he
    exact ⟨rfl, rfl⟩

end TableSink
