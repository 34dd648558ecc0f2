import TableSink.Proofs.Commit.Finish
import TableSink.Proofs.Writer.Track

/-!
# What committing does to the books

A batch is gone through file by file. Of files that are kept, those that could be published are
shown afterwards and the others are still kept (`Books.ends_finishEach`); files that are given up
are removed, or left behind at their staging places (`Books.ends_discardEach`).
-/

namespace TableSink

variable {ρ : Type} {layout : Layout ρ} {mishaps : Mishap → Prop} {a : Allocator}
variable {init s s' : MemoryStore} {b : Books ρ}

open MemoryStore (Replies)

/-! ## Reports -/

namespace CommitReport

/-- One report on the results of two. -/
def join (r r' : CommitReport) : CommitReport :=
  ⟨r.committed + r'.committed, r.discarded + r'.discarded, r.failed ++ r'.failed⟩

theorem foldl_add (results : List (Except FailedCommit Finish)) (r : CommitReport) :
    results.foldl add r = r.join (ofResults results) := by
  induction results generalizing r with
  | nil => simp [ofResults, join]
  | cons result results ih =>
    rw [ofResults, List.foldl_cons, List.foldl_cons, ih, ih (add {} result)]
    rcases result with _ | ⟨_ | _⟩ <;> simp [add, join, Nat.add_assoc]

theorem ofResults_cons (result : Except FailedCommit Finish)
    (results : List (Except FailedCommit Finish)) :
    ofResults (result :: results) = (add {} result).join (ofResults results) := by
  rw [ofResults, List.foldl_cons, foldl_add]

end CommitReport

/-- A committable ends as its token does, and is part of the error. -/
theorem Committable.ends_finish {σ : Type} {replies : Replying σ} {store store' : σ}
    {c : Committable} {result : Except FailedCommit Finish} :
    c.finish.Ends replies store result store' ↔ ∃ finished,
      c.token.finish.Ends replies store finished store' ∧
        result = finished.mapError fun e ↦ ⟨c, e⟩ := by
  simp only [finish, Task.ends_bind]
  constructor
  · rintro ⟨finished, _, hfinish, h⟩
    obtain ⟨rfl, rfl⟩ := Task.ends_done.mp h
    exact ⟨finished, hfinish, rfl⟩
  · rintro ⟨finished, hfinish, rfl⟩
    exact ⟨finished, store', hfinish, .done⟩

/-- What cannot be finished is handed back as it was. -/
theorem Committable.committable_of_finish {σ : Type} {replies : Replying σ} {store store' : σ}
    {c : Committable} {f : FailedCommit}
    (h : c.finish.Ends replies store (.error f) store') : f.committable = c := by
  obtain ⟨finished, -, hf⟩ := ends_finish.mp h
  cases finished with
  | ok _ => cases hf
  | error e =>
    obtain rfl := Except.error.inj hf
    rfl

namespace CommitReport

/-- What could not be finished are some of the committables in their order. -/
theorem sublist_failed {σ : Type} {replies : Replying σ} {store store' : σ}
    {cs : List Committable} {results : List (Except FailedCommit Finish)}
    (h : (cs.mapM Committable.finish).Ends replies store results store') :
    ((ofResults results).failed.map FailedCommit.committable).Sublist cs := by
  induction cs generalizing store results with
  | nil =>
    obtain ⟨rfl, rfl⟩ := Task.ends_done.mp h
    exact .slnil
  | cons c cs ih =>
    obtain ⟨result, store₁, others, hfinish, hrest, rfl⟩ := Task.ends_mapM_cons.mp h
    have hsub := ih hrest
    rw [ofResults_cons]
    cases result with
    | ok finish => cases finish <;> exact hsub.cons c
    | error f =>
      obtain rfl := Committable.committable_of_finish hfinish
      exact hsub.cons_cons _

end CommitReport

/-! ## Counting attempts -/

/-- The committable with one more attempt counted. -/
def Committable.again (c : Committable) : Committable := { c with retries := c.retries + 1 }

/-- The committable with its counter at zero, as it was when its file was closed. -/
def Committable.fresh (c : Committable) : Committable := { c with retries := 0 }

namespace Committable

variable {c c' : Committable}

theorem toNat_retries_again (h : c.retries.toNat + 1 < UInt32.size) :
    c.again.retries.toNat = c.retries.toNat + 1 :=
  (UInt32.toNat_add ..).trans (Nat.mod_eq_of_lt h)

/-- One more attempt is counted as long as the number fits. -/
theorem retryLater_eq_ok :
    c.retryLater = .ok c' ↔ c.retries.toNat + 1 < UInt32.size ∧ c' = c.again := by
  by_cases h : c.retries.toNat + 1 < UInt32.size
  · rw [retryLater, if_pos h, Except.ok.injEq, eq_comm, and_iff_right h]
    rfl
  · rw [retryLater, if_neg h]
    exact iff_of_false nofun fun hok ↦ h hok.1

theorem retryLater_eq_error {panic : Panic} :
    c.retryLater = .error panic ↔ c.retries.toNat + 1 = UInt32.size := by
  unfold retryLater
  split
  · next h => exact iff_of_false nofun h.ne
  · next h =>
    exact iff_of_true (by cases panic; rfl) (le_antisymm c.retries.toNat_lt (Nat.le_of_not_lt h))

end Committable

namespace CommitReport

variable {report : CommitReport} {left : List Committable}

/-- What could not be finished is handed back if no counter is at its greatest number. -/
theorem intoRetries_eq_ok : report.intoRetries = .ok left ↔
    (∀ f ∈ report.failed, f.committable.retries.toNat + 1 < UInt32.size) ∧
      left = report.failed.map fun f ↦ f.committable.again := by
  unfold intoRetries
  induction report.failed generalizing left with
  | nil => simp [pure, Except.pure, eq_comm]
  | cons f fs ih =>
    rw [List.mapM_cons, List.forall_mem_cons, List.map_cons]
    cases hf : f.committable.retryLater with
    | error panic =>
      rw [Committable.retryLater_eq_error] at hf
      exact iff_of_false nofun fun h ↦ h.1.1.ne hf
    | ok c =>
      obtain ⟨hfits, rfl⟩ := Committable.retryLater_eq_ok.mp hf
      cases hfs : fs.mapM fun f ↦ f.committable.retryLater with
      | error panic =>
        refine iff_of_false nofun fun h ↦ ?_
        rw [ih.mpr ⟨h.1.2, rfl⟩] at hfs
        cases hfs
      | ok rest =>
        obtain ⟨hrest, rfl⟩ := ih.mp hfs
        exact ⟨fun h ↦ ⟨⟨hfits, hrest⟩, (Except.ok.inj h).symm⟩, fun h ↦ congrArg _ h.2.symm⟩

/-- Otherwise the program stops. -/
theorem intoRetries_eq_error {panic : Panic} : report.intoRetries = .error panic ↔
    ∃ f ∈ report.failed, f.committable.retries.toNat + 1 = UInt32.size := by
  cases h : report.intoRetries with
  | ok left =>
    have hfits := (intoRetries_eq_ok.mp h).1
    exact iff_of_false nofun fun ⟨f, hf, hgreatest⟩ ↦ (hfits f hf).ne hgreatest
  | error panic' =>
    refine iff_of_true (by cases panic; cases panic'; rfl) ?_
    by_contra hnone
    push Not at hnone
    have hok := intoRetries_eq_ok.mpr
      ⟨fun f hf ↦ lt_of_le_of_ne f.committable.retries.toNat_lt (hnone f hf), rfl⟩
    rw [h] at hok
    cases hok

/-- What comes back, without the counters, is what could not be finished. -/
theorem fresh_intoRetries (h : report.intoRetries = .ok left) :
    left.map Committable.fresh = report.failed.map fun f ↦ f.committable.fresh := by
  rw [(intoRetries_eq_ok.mp h).2, List.map_map]
  rfl

/-- Each committable that comes back was handed in, and counts one more attempt. -/
theorem exists_of_mem_intoRetries {σ : Type} {replies : Replying σ} {store store' : σ}
    {cs : List Committable} {results : List (Except FailedCommit Finish)}
    (hresults : (cs.mapM Committable.finish).Ends replies store results store')
    (h : (ofResults results).intoRetries = .ok left) {c : Committable} (hc : c ∈ left) :
    ∃ c₀ ∈ cs, c₀.retries.toNat + 1 < UInt32.size ∧ c = c₀.again := by
  obtain ⟨hfits, rfl⟩ := intoRetries_eq_ok.mp h
  obtain ⟨f, hf, rfl⟩ := List.mem_map.mp hc
  exact ⟨f.committable, (sublist_failed hresults).subset (List.mem_map_of_mem hf), hfits f hf, rfl⟩

end CommitReport

/-- The report on a batch is that on the results of its committables. -/
theorem phases_commitBatch {σ : Type} {replies : Replying σ} {store store' : σ}
    {cs : List Committable} {report : CommitReport} :
    (commitBatch cs).Ends replies store report store' ↔ ∃ results,
      (cs.mapM Committable.finish).Ends replies store results store' ∧
        report = .ofResults results := by
  simp only [commitBatch, Task.ends_bind, Task.ends_report, Task.pure_eq,
    Task.ends_done]
  constructor
  · rintro ⟨results, _, hresults, _, _, rfl, rfl, rfl⟩
    exact ⟨results, hresults, rfl⟩
  · rintro ⟨results, hresults, rfl⟩
    exact ⟨results, _, hresults, (), _, rfl, rfl, rfl⟩

/-- A file that was closed to be published can only be removed once its token is taken away. -/
theorem Filed.intoDiscard_committable (f : Filed ρ) (kind : CloseKind) :
    (f.committable layout a kind).intoDiscard = f.committable layout a .recovery := by
  cases kind <;> rfl

/-! ## Publishing -/

/-- What became of files that were to be published. -/
structure Books.Settles (layout : Layout ρ) (mishaps : Mishap → Prop) (a : Allocator)
    (files done failed : List (Filed ρ)) (report : CommitReport) : Prop where
  perm : (done ++ failed).Perm files
  done_eq : failed = [] → done = files
  committed : report.committed = done.length
  discarded : report.discarded = 0
  failures : report.failed.map (fun f ↦ f.committable.fresh) =
    failed.map fun f ↦ f.committable layout a .commit
  mishap : failed ≠ [] → ∃ m, mishaps m

/-- Nothing was handed back if no file has failed. -/
theorem Books.Settles.isSuccess_iff {files done failed : List (Filed ρ)} {report : CommitReport}
    (h : Settles layout mishaps a files done failed report) :
    report.isSuccess = true ↔ failed = [] := by
  have hlength := congrArg List.length h.failures
  simp only [List.length_map] at hlength
  rw [CommitReport.isSuccess, List.isEmpty_iff, ← List.length_eq_zero_iff, hlength,
    List.length_eq_zero_iff]

section

variable {files done failed : List (Filed ρ)} {results : List (Except FailedCommit Finish)}

/-- One more file, which is published. -/
theorem Books.Settles.cons_shown (f : Filed ρ)
    (h : Settles layout mishaps a files done failed (.ofResults results)) :
    Settles layout mishaps a (f :: files) (f :: done) failed
      (.ofResults (.ok .committed :: results)) where
  perm := h.perm.cons f
  done_eq hfailed := by rw [h.done_eq hfailed]
  committed := by
    simp [CommitReport.ofResults_cons, CommitReport.join, CommitReport.add, h.committed,
      Nat.add_comm]
  discarded := by
    simp [CommitReport.ofResults_cons, CommitReport.join, CommitReport.add, h.discarded]
  failures := by
    simpa [CommitReport.ofResults_cons, CommitReport.join, CommitReport.add] using h.failures
  mishap := h.mishap

/-- One more file, which is handed back. -/
theorem Books.Settles.cons_failed {f : Filed ρ} {c : Committable} (e : CommitFailure)
    (hc : c.fresh = f.committable layout a .commit) (hm : ∃ m, mishaps m)
    (h : Settles layout mishaps a files done failed (.ofResults results)) :
    Settles layout mishaps a (f :: files) done (f :: failed)
      (.ofResults (.error ⟨c, e⟩ :: results)) where
  perm := List.perm_middle.trans (h.perm.cons f)
  done_eq hfailed := absurd hfailed (List.cons_ne_nil _ _)
  committed := by
    simp [CommitReport.ofResults_cons, CommitReport.join, CommitReport.add, h.committed]
  discarded := by
    simp [CommitReport.ofResults_cons, CommitReport.join, CommitReport.add, h.discarded]
  failures := by
    simpa [CommitReport.ofResults_cons, CommitReport.join, CommitReport.add, hc] using h.failures
  mishap _ := hm

end

variable {now : Mishap → Prop} (hnow : ∀ m, now m → mishaps m)
include hnow

/-- A file that is kept is shown, or it is kept; it is only kept if something goes wrong now. -/
theorem Filed.ends_finish {before fs : List (Filed ρ)} {f : Filed ρ} {c : Committable}
    {result : Except FailedCommit Finish} (hb : b.kept = before ++ f :: fs)
    (hc : c.fresh = f.committable layout a .commit) (hholds : b.Holds layout mishaps a init s)
    (h : c.finish.Ends (Replies now) s result s') :
    result = .ok .committed ∧ { b with kept := before ++ fs, shown := b.shown ++ [f] }.Holds
        layout mishaps a init s' ∨
      (∃ e, result = .error ⟨c, e⟩) ∧ (∃ m, now m) ∧ b.Holds layout mishaps a init s' := by
  have hplaces := hholds.inPlace.places f.spec f.sequence (f.bytes layout).size f.records.length
  have htoken : c.token = .pending ⟨(f.slot a).staging.text, (f.slot a).target.text,
      (f.bytes layout).size, f.records.length⟩ := congrArg Committable.token hc
  have hkept := hholds.stands (f, .kept) (Books.mem_entries.mpr (by simp [Books.files, hb]))
  have hbytes : ∀ data, s.get? (f.slot a).staging = some data → data = f.bytes layout := by
    intro data hdata
    rcases hkept with ⟨hstaging, -⟩ | ⟨-, hstaging, -⟩
    · exact Option.some.inj (hdata.symm.trans hstaging)
    · simp [hstaging] at hdata
  obtain ⟨finished, hfinish, rfl⟩ := Committable.ends_finish.mp h
  rw [htoken] at hfinish
  rcases PendingToken.ends_finish hplaces hfinish with
    ⟨data, hdata, -, hdone⟩ | ⟨hsource, -, rfl, rfl⟩ | ⟨⟨e, rfl⟩, rfl, hm⟩
  · obtain rfl := hbytes data hdata
    rcases hdone with ⟨hmoved, rfl | ⟨⟨e, rfl⟩, hm⟩⟩ | ⟨⟨e, rfl⟩, ⟨rfl, hm⟩ | ⟨hcopied, hm⟩⟩
    · refine .inl ⟨rfl, hholds.publish hb (fun p hp hp' ↦ ?_) ?_ ?_⟩
      · exact (hmoved p).trans ((if_neg hp).trans (if_neg hp'))
      · exact (hmoved _).trans (if_pos rfl)
      · exact (hmoved _).trans ((if_neg (f.target_ne_staging hholds.inPlace)).trans (if_pos rfl))
    · exact .inr ⟨⟨_, rfl⟩, ⟨_, hm⟩, hholds.unheard hb (hnow _ hm) hmoved⟩
    · exact .inr ⟨⟨_, rfl⟩, ⟨_, hm⟩, hholds⟩
    · exact .inr ⟨⟨_, rfl⟩, ⟨_, hm⟩, hholds.halfway hb (hnow _ hm) hdata hcopied⟩
  · rcases hkept with ⟨hstaging, -⟩ | ⟨-, -, htarget⟩
    · exact absurd (hsource.symm.trans hstaging) (by simp)
    · exact .inl ⟨rfl, hholds.publish hb (fun _ _ _ ↦ rfl) hsource htarget⟩
  · refine .inr ⟨⟨_, rfl⟩, hm.resolve_right (not_not_intro ?_), hholds⟩
    rcases hkept with ⟨hstaging, -⟩ | ⟨-, hstaging, htarget⟩
    · exact (finishable_of_source hstaging).mpr rfl
    · exact (finishable_of_target hstaging htarget).mpr rfl

theorem Books.ends_finishEach {before fs : List (Filed ρ)} {cs : List Committable}
    {results : List (Except FailedCommit Finish)} (hb : b.kept = before ++ fs)
    (hcs : cs.map Committable.fresh = fs.map fun f ↦ f.committable layout a .commit)
    (hholds : b.Holds layout mishaps a init s)
    (h : (cs.mapM Committable.finish).Ends (Replies now) s results s') :
    ∃ done failed, Settles layout now a fs done failed (.ofResults results) ∧
      { b with kept := before ++ failed, shown := b.shown ++ done }.Holds
        layout mishaps a init s' := by
  induction fs generalizing b s before cs results with
  | nil =>
    obtain rfl := List.map_eq_nil_iff.mp hcs
    obtain ⟨rfl, rfl⟩ := Task.ends_done.mp h
    refine ⟨[], [], ⟨.nil, fun _ ↦ rfl, rfl, rfl, rfl, fun hne ↦ absurd rfl hne⟩, ?_⟩
    rw [← hb, List.append_nil]
    exact hholds
  | cons f fs ih =>
    obtain ⟨c, cs, rfl, hc, hcs⟩ := List.map_eq_cons_iff.mp hcs
    obtain ⟨result, s₁, results', hfinish, hrest, rfl⟩ := Task.ends_mapM_cons.mp h
    rcases Filed.ends_finish hnow hb hc hholds hfinish with ⟨rfl, hnext⟩ | ⟨⟨e, rfl⟩, hm, hnext⟩
    · obtain ⟨done, failed, hsettles, hholds'⟩ := ih rfl hcs hnext hrest
      exact ⟨f :: done, failed, hsettles.cons_shown f, by simpa using hholds'⟩
    · have hb' : b.kept = (before ++ [f]) ++ fs := by simp [hb]
      obtain ⟨done, failed, hsettles, hholds'⟩ := ih hb' hcs hnext hrest
      exact ⟨done, f :: failed, hsettles.cons_failed e hc hm, by simpa using hholds'⟩

omit hnow

/-! ## Removing -/

/-- A file that is given up is removed, or left behind. -/
theorem Filed.ends_discard {fs : List (Filed ρ)} {f : Filed ρ} {c : Committable}
    {result : Except FailedCommit Finish} (hb : b.closed = f :: fs)
    (hc : c = f.committable layout a .recovery) (hholds : b.Holds layout mishaps a init s)
    (h : c.finish.Ends (Replies mishaps) s result s') :
    (result = .ok .discarded ∨ ∃ e, result = .error ⟨c, e⟩) ∧
      { b with closed := fs, removed := b.removed ++ [f] }.Holds layout mishaps a init s' := by
  have hpath := (hholds.inPlace.written_staging f.spec f.sequence).readPath_text
  have htoken : c.token = .inProgress ⟨(f.slot a).staging.text, (f.bytes layout).size⟩ :=
    congrArg Committable.token hc
  obtain ⟨finished, hfinish, rfl⟩ := Committable.ends_finish.mp h
  rw [htoken] at hfinish
  rcases InProgressToken.ends_finish
    (t := ⟨(f.slot a).staging.text, (f.bytes layout).size⟩) hpath hfinish with
    ⟨hremoved, rfl | ⟨⟨e, rfl⟩, -⟩⟩ | ⟨⟨e, rfl⟩, rfl, hm⟩
  · exact ⟨.inl rfl, hholds.remove hb (.inl hremoved)⟩
  · exact ⟨.inr ⟨e, rfl⟩, hholds.remove hb (.inl hremoved)⟩
  · exact ⟨.inr ⟨e, rfl⟩, hholds.remove hb (.inr ⟨rfl, hm⟩)⟩

theorem Books.ends_discardEach {fs : List (Filed ρ)} {cs : List Committable}
    {results : List (Except FailedCommit Finish)} (hb : b.closed = fs)
    (hcs : cs = fs.map fun f ↦ f.committable layout a .recovery)
    (hholds : b.Holds layout mishaps a init s)
    (h : (cs.mapM Committable.finish).Ends (Replies mishaps) s results s') :
    (CommitReport.ofResults results).committed = 0 ∧
      { b with closed := [], removed := b.removed ++ fs }.Holds layout mishaps a init s' := by
  induction fs generalizing b s cs results with
  | nil =>
    subst hcs
    obtain ⟨rfl, rfl⟩ := Task.ends_done.mp h
    refine ⟨rfl, ?_⟩
    rw [List.append_nil, ← hb]
    exact hholds
  | cons f fs ih =>
    subst hcs
    obtain ⟨result, s₁, results', hfinish, hrest, rfl⟩ := Task.ends_mapM_cons.mp h
    obtain ⟨hresult, hnext⟩ := Filed.ends_discard hb rfl hholds hfinish
    obtain ⟨hcommitted, hholds'⟩ := ih rfl rfl hnext hrest
    refine ⟨?_, by simpa using hholds'⟩
    rcases hresult with rfl | ⟨e, rfl⟩
    · simpa [CommitReport.ofResults_cons, CommitReport.join, CommitReport.add] using hcommitted
    · simpa [CommitReport.ofResults_cons, CommitReport.join, CommitReport.add] using hcommitted

end TableSink
