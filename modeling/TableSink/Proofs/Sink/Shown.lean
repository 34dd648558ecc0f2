import TableSink.Proofs.Sink.Course
import TableSink.Proofs.Sink.Start

/-!
# What shows has records

A file is started for its first record and given up if that record cannot be written. So every file
that shows has records, and all of them belong there, whatever has become of it on its way
(`Sink.Shows`). An object that was not there before is such a file (`Sink.Course.exists_proper`).
-/

namespace TableSink

open MemoryStore (Replies)

/-! ## Records that were taken -/

namespace Journal

variable {P : Json → Prop} {j : Journal}

/-- All records of the open batch and of those that were closed in good order have a property. -/
def Has (P : Json → Prop) (j : Journal) : Prop :=
  (∀ r ∈ j.current.records, P r) ∧ ∀ t ∈ j.closed, ∀ r ∈ t.records, P r

theorem Has.boundary (h : j.Has P) (kept : List Committable) (result : Except SinkError Unit) :
    (j.boundary kept result).Has P := by
  have hnew : ∀ r ∈ (Batch.start j.current.last).records, P r := fun _ hr ↦ nomatch hr
  have hclose : j.close.Has P :=
    ⟨hnew, List.forall_mem_append.mpr ⟨h.2, List.forall_mem_singleton.mpr h.1⟩⟩
  cases result with
  | ok _ => exact hclose
  | error e =>
    cases e with
    | batchFailed _ _ => exact hclose
    | _ => exact ⟨hnew, h.2⟩

/-- Records come into a journal only when they are written. -/
theorem Has.after {config : Config} (h : j.Has P) (s s' : Sink) (result : Except SinkError Unit)
    (c : Sink.Call) (hc : ∀ record ∈ c.records, P record) :
    (j.after config s s' result c).Has P := by
  cases c with
  | checkpoint => exact Has.boundary (j := j.upTo s'.writer.allocator) h _ _
  | abort => exact ⟨nofun, h.2⟩
  | write record =>
    have htake : ((j.take config record).upTo s'.writer.allocator).Has P :=
      ⟨List.forall_mem_append.mpr ⟨h.1, hc⟩, h.2⟩
    simp only [Journal.after]
    split
    · obtain ⟨books, hmiss⟩ := j.miss_eq result
      rw [hmiss]
      exact h
    · split
      · exact htake.boundary _ _
      · exact htake

end Journal

theorem Sink.has_proceed {P : Json → Prop} {config : Config}
    (answer : (r : Request) → MemoryStore → r.Reply × MemoryStore) {cs : List Call}
    (hcs : ∀ c ∈ cs, ∀ record ∈ c.records, P record) {s : Sink} {store : MemoryStore} {j : Journal}
    {x : Sink × MemoryStore × Journal} (h : j.Has P)
    (hx : proceed config answer cs s store j = some x) : x.2.2.Has P := by
  induction cs generalizing s store j with
  | nil =>
    obtain rfl := Option.some.inj hx
    exact h
  | cons c cs ih =>
    obtain ⟨hc, hcs⟩ := List.forall_mem_cons.mp hcs
    rw [proceed] at hx
    split at hx
    · exact ih hcs (h.after _ _ _ c hc) hx
    · cases hx

/-! ## Files that show -/

namespace Sink

variable {d : Desk Json} {b : Books Json} {store store' : MemoryStore} {s s' : Sink}
variable {result : Except SinkError Unit}

/-- Files that show, or are to show, have records, all of which belong there. -/
structure Shows (d : Desk Json) (store : MemoryStore) (b : Books Json) (s : Sink) : Prop where
  keeps : s.Keeps d store b
  proper : ∀ f ∈ b.shown ++ b.kept, f.Proper d

/-- Files that are finished were kept or belong to the batch, and either way they have records. -/
theorem Shows.proper_of_perm (h : s.Shows d store b) {done failed fs : List (Filed Json)}
    (hperm : (done ++ failed).Perm (b.kept ++ fs)) (hfs : fs ⊆ b.batch) :
    ∀ f ∈ b.shown ++ done ++ failed, f.Proper d := by
  intro f hf
  rw [List.append_assoc] at hf
  rcases List.mem_append.mp hf with hf | hf
  · exact h.proper f (List.mem_append_left _ hf)
  · rcases List.mem_append.mp (hperm.mem_iff.mp hf) with hf | hf
    · exact h.proper f (List.mem_append_right _ hf)
    · exact h.keeps.tracks.proper f (hfs hf)

theorem Shows.checkpoint (h : s.Shows d store b)
    (hc : s.checkpoint.Ends (Replies d.mishaps) store (.ok (s', result)) store') :
    ∃ b', s'.Shows d store' b' := by
  obtain ⟨-, -, ⟨done, failed, hsettled, hkeeps⟩ | ⟨done, lost, -, -, -, hkeeps⟩⟩ :=
    ends_checkpoint h.keeps hc
  · exact ⟨_, hkeeps, h.proper_of_perm hsettled.perm (List.Subset.refl _)⟩
  · exact ⟨_, hkeeps, h.proper⟩

theorem Shows.abort (h : s.Shows d store b)
    (hc : s.abort.Ends (Replies d.mishaps) store (.ok (s', result)) store') :
    ∃ b', s'.Shows d store' b' := by
  obtain ⟨-, -, ⟨shown, kept, hretried, -, hkeeps⟩ | ⟨done, lost, -, -, -, hkeeps⟩⟩ :=
    ends_abort h.keeps hc
  · have hperm : (shown ++ kept).Perm (b.kept ++ []) := by
      rw [List.append_nil]
      exact hretried.perm
    exact ⟨_, hkeeps, h.proper_of_perm hperm (List.nil_subset _)⟩
  · exact ⟨_, hkeeps, h.proper⟩

theorem Shows.write {record : Json} (h : s.Shows d store b)
    (hc : (s.write record).Ends (Replies d.mishaps) store (.ok (s', result)) store') :
    ∃ b', s'.Shows d store' b' := by
  obtain ⟨b₁, written, hwrote, hend⟩ := ends_write h.keeps hc
  obtain ⟨hshown, hkept, -⟩ := hwrote.unmoved
  have hproper : ∀ f ∈ b₁.shown ++ b₁.kept, f.Proper d := by
    rw [hshown, hkept]
    exact h.proper
  obtain ⟨e, -, -, hkeeps, -⟩ | ⟨s₁, store₁, -, hkeeps, -, ⟨-, hcheckpoint⟩ | ⟨-, rfl, rfl, -⟩⟩ :=
    hend
  · exact ⟨b₁, hkeeps, hproper⟩
  · exact Shows.checkpoint ⟨hkeeps, hproper⟩ hcheckpoint
  · exact ⟨b₁, hkeeps, hproper⟩

theorem Shows.call (h : s.Shows d store b) (c : Call)
    (hc : (s.call c).Ends (Replies d.mishaps) store (.ok (s', result)) store') :
    ∃ b', s'.Shows d store' b' := by
  cases c with
  | checkpoint => exact h.checkpoint hc
  | abort => exact h.abort hc
  | write record => exact h.write hc

variable {config : Config} {run : String} {mishaps : Mishap → Prop} {init : MemoryStore}
variable {j : Journal}

theorem Course.shows (h : Course config run (Replies mishaps) init s store j) :
    ∃ b, s.Shows (config.desk run mishaps init) store b := by
  induction h with
  | start hstart =>
    obtain ⟨rfl, hresult | ⟨⟨e, he⟩, -⟩⟩ := ends_start hstart
    · obtain rfl := Except.ok.inj hresult
      exact ⟨{}, keeps_new _ _ _ _, by simp⟩
    · cases he
  | call _ c hc ih =>
    obtain ⟨b, hshows⟩ := ih
    exact hshows.call c hc

/-- What has changed outside of the directory of the attempt is a file with records. -/
theorem Course.exists_proper (h : Course config run (Replies mishaps) init s store j)
    {p : ObjectPath} (hp : p.isBelow (config.allocator run).taskDir = false)
    (hne : store.get? p ≠ init.get? p) :
    ∃ f : Filed Json, f.Proper (config.desk run mishaps init) ∧
      store.get? p = some (f.bytes (config.desk run mishaps init).layout) := by
  obtain ⟨b, hshows⟩ := h.shows
  have htracks := hshows.keeps.tracks
  obtain hsame | ⟨f, status, hf, rfl | rfl⟩ := htracks.frame_or_place p
  · exact absurd hsame hne
  · rw [Filed.slot, Config.desk, Allocator.staging_isBelow] at hp
    cases hp
  · have hstands := htracks.stands hf
    cases status with
    | shown => exact ⟨f, hshows.proper f (List.mem_append_left _ hf), hstands.1⟩
    | kept =>
      rcases hstands with ⟨-, hsame | ⟨-, hbytes⟩⟩ | ⟨-, -, hbytes⟩
      · exact absurd hsame hne
      · exact ⟨f, hshows.proper f (List.mem_append_right _ hf), hbytes⟩
      · exact ⟨f, hshows.proper f (List.mem_append_right _ hf), hbytes⟩
    | closed => exact absurd hstands.2 hne
    | opened => exact absurd hstands.2 hne
    | removed => exact absurd hstands.2 hne
    | dropped => exact absurd hstands.2 hne

end Sink

end TableSink
