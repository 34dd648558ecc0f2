import TableSink.Proofs.Commit.Settle
import TableSink.Proofs.Storage.Ways
import TableSink.Proofs.Storage.Window

/-!
# Commits that overlap

A batch need not be committed one file after the other: a few commits may be under way at a time,
with their requests in any order. Each of them only touches the places that its token names. Where
these differ from one committable to another, nothing depends on the order, so the report and the
store are those of `commitBatch`, and a commit that fails does no harm to the others. Work in which
batches are committed like that therefore refines the task in which one commit comes after the other
(`Ways.refines_commitBatch`).
-/

namespace TableSink

variable {s : MemoryStore} {batch : List Committable}

/-! ## Places -/

/-- The texts in a token that stand for paths. -/
def Token.paths : Token → List String
  | .pending t => [t.staging, t.target]
  | .inProgress t => [t.staging]

/-- The paths that a committable names, as far as they can be read. -/
def Committable.places (c : Committable) : List ObjectPath :=
  c.token.paths.filterMap fun path ↦ (readPath path).toOption

theorem Committable.mem_places {c : Committable} {path : String} {p : ObjectPath}
    (hpath : path ∈ c.token.paths) (hp : readPath path = .ok p) : p ∈ c.places :=
  List.mem_filterMap.mpr ⟨path, hpath, by rw [hp]; rfl⟩

theorem PendingToken.readPath_of_places {t : PendingToken} {source target : ObjectPath}
    (h : t.places = .ok (source, target)) :
    readPath t.staging = .ok source ∧ readPath t.target = .ok target := by
  unfold places at h
  cases hsource : readPath t.staging with
  | error e => simp [hsource, Except.mapError, bind, Except.bind] at h
  | ok p =>
  cases htarget : readPath t.target with
  | error e => simp [hsource, htarget, Except.mapError, bind, Except.bind] at h
  | ok q =>
    simp only [hsource, htarget] at h
    obtain ⟨rfl, rfl⟩ := Prod.mk.inj (Except.ok.inj h)
    exact ⟨rfl, rfl⟩

section Within

variable {mine : ObjectPath → Prop} {source target : ObjectPath}

theorem PendingToken.within_recover {t : PendingToken}
    (ht : ∀ p q, t.places = .ok (p, q) → mine p ∧ mine q) : t.recover.Within mine := by
  unfold recover
  split
  · exact Task.within_done
  · next hplaces =>
    obtain ⟨hsource, htarget⟩ := ht _ _ hplaces
    refine Task.Within.ask_bind hsource fun answer ↦ ?_
    cases answer with
    | ok actual => exact Task.within_done
    | error e =>
      dsimp only
      split
      · refine Task.Within.ask_bind htarget fun answer ↦ ?_
        cases answer <;> exact Task.within_done
      · exact Task.within_done

/-- What is found has the places that the token names, whatever a store is like. -/
theorem PendingToken.file_of_recover {σ : Type} {replies : Replying σ} {st st' : σ}
    {t : PendingToken} {file : PendingFile} (h : t.recover.Ends replies st (.ok file) st') :
    ∃ source target, t.places = .ok (source, target) ∧
      (file = .staged source target ∨ file = .published target) := by
  unfold recover at h
  split at h
  · cases (Task.ends_done.mp h).1
  · next source target hplaces =>
    refine ⟨source, target, hplaces, ?_⟩
    obtain ⟨reply, st₁, -, h⟩ := Task.ends_ask_bind.mp h
    cases reply with
    | ok actual =>
      have hfile := (Task.ends_done.mp h).1
      split at hfile
      · exact .inl (Except.ok.inj hfile)
      · cases hfile
    | error fault =>
      simp only [Except.mapError] at h
      split at h
      · obtain ⟨reply, st₂, -, h⟩ := Task.ends_ask_bind.mp h
        cases reply with
        | ok actual =>
          have hfile := (Task.ends_done.mp h).1
          split at hfile
          · exact .inr (Except.ok.inj hfile)
          · cases hfile
        | error fault => cases (Task.ends_done.mp h).1
      · cases (Task.ends_done.mp h).1

theorem PendingFile.within_commitRecovered (hsource : mine source) (htarget : mine target) :
    (staged source target).commitRecovered.Within mine := by
  refine Task.Within.ask_bind ⟨hsource, htarget⟩ fun answer ↦ ?_
  cases answer with
  | ok _ => exact Task.Within.report_bind Task.within_done
  | error e =>
    dsimp only
    split
    · refine (Task.within_objectExists htarget).bind fun found ↦ ?_
      rcases found with e | (_ | _)
      · exact Task.within_done
      · exact Task.within_done
      · exact Task.Within.report_bind Task.within_done
    · exact Task.within_done

theorem InProgressToken.within_cleanup {t : InProgressToken}
    (ht : ∀ p, readPath t.staging = .ok p → mine p) : t.cleanup.Within mine := by
  unfold cleanup
  split
  · exact Task.within_done
  · next path hpath =>
    refine (Task.within_objectExists (ht path hpath)).bind fun found ↦ ?_
    rcases found with e | (_ | _)
    · exact Task.within_done
    · exact Task.Within.report_bind Task.within_done
    · refine Task.Within.ask_bind (ht path hpath) fun answer ↦ ?_
      cases answer with
      | ok _ => exact Task.Within.report_bind Task.within_done
      | error e =>
        dsimp only
        split
        · exact Task.Within.report_bind Task.within_done
        · exact Task.within_done

theorem Token.within_finish {t : Token}
    (ht : ∀ path ∈ t.paths, ∀ p, readPath path = .ok p → mine p) : t.finish.Within mine := by
  cases t with
  | pending t =>
    have hplaces : ∀ p q, t.places = .ok (p, q) → mine p ∧ mine q := by
      intro p q h
      obtain ⟨hp, hq⟩ := t.readPath_of_places h
      exact ⟨ht _ (List.mem_cons_self ..) p hp, ht _ (by simp [paths]) q hq⟩
    refine (PendingToken.within_recover hplaces).bind_of_ends fun found hfound ↦ ?_
    cases found with
    | error e => exact Task.Within.report_bind Task.within_done
    | ok file =>
      obtain ⟨source, target, hfile, rfl | rfl⟩ := PendingToken.file_of_recover hfound
      · obtain ⟨hsource, htarget⟩ := hplaces source target hfile
        refine (PendingFile.within_commitRecovered hsource htarget).bind fun committed ↦ ?_
        cases committed with
        | error e => exact Task.Within.report_bind Task.within_done
        | ok _ => exact Task.within_done
      · exact Task.within_done
  | inProgress t =>
    have hstaging : ∀ p, readPath t.staging = .ok p → mine p := ht _ (List.mem_singleton_self _)
    refine (InProgressToken.within_cleanup hstaging).bind fun removed ↦ ?_
    cases removed with
    | error e => exact Task.Within.report_bind Task.within_done
    | ok _ => exact Task.within_done

/-- To finish a committable is to use the places that it names, and nothing else. -/
theorem Committable.within_finish (c : Committable) : c.finish.Within (· ∈ c.places) := by
  have htoken : c.token.finish.Within (· ∈ c.places) :=
    Token.within_finish fun path hpath p hp ↦ c.mem_places hpath hp
  exact htoken.bind fun finished ↦ Task.within_done

end Within

/-! ## Reports -/

namespace CommitReport

variable {results results' : List (Except FailedCommit Finish)}

/-- Every result counts once. -/
theorem total_ofResults (results : List (Except FailedCommit Finish)) :
    (ofResults results).committed + (ofResults results).discarded +
      (ofResults results).failed.length = results.length := by
  induction results with
  | nil => rfl
  | cons result results ih =>
    rw [ofResults_cons]
    rcases result with f | (_ | _) <;> simp only [add, join, List.length_append] <;> grind

/-- The order of the results only matters for the order of the failures. -/
theorem ofResults_perm (h : results.Perm results') :
    (ofResults results).committed = (ofResults results').committed ∧
      (ofResults results).discarded = (ofResults results').discarded ∧
      (ofResults results).failed.Perm (ofResults results').failed := by
  induction h with
  | nil => exact ⟨rfl, rfl, .refl _⟩
  | cons result _ ih =>
    obtain ⟨hcommitted, hdiscarded, hfailed⟩ := ih
    simp only [ofResults_cons, join]
    exact ⟨congrArg _ hcommitted, congrArg _ hdiscarded, hfailed.append_left _⟩
  | swap result result' results =>
    simp only [ofResults_cons, join, ← List.append_assoc]
    exact ⟨by omega, by omega, List.perm_append_comm.append_right _⟩
  | trans _ _ ih ih' =>
    exact ⟨ih.1.trans ih'.1, ih.2.1.trans ih'.2.1, ih.2.2.trans ih'.2.2⟩

/-- What is handed back are the committables that failed, as they were. -/
theorem failed_ofResults {outcome : Committable → Except FailedCommit Finish}
    (houtcome : ∀ c f, outcome c = .error f → f.committable = c) (batch : List Committable) :
    (ofResults (batch.map outcome)).failed.map FailedCommit.committable =
      batch.filter fun c ↦ !(outcome c).isOk := by
  induction batch with
  | nil => rfl
  | cons c batch ih =>
    rw [List.map_cons, ofResults_cons, join, List.map_append, ih]
    cases hc : outcome c with
    | ok done => cases done <;> simp [add, hc, Except.isOk, Except.toBool]
    | error f => simp [add, hc, Except.isOk, Except.toBool, houtcome c f hc]

end CommitReport

/-! ## Every schedule -/

/-- A batch of which no commit is begun. -/
def Window.ofBatch (batch : List Committable) (s : MemoryStore) :
    Window batch.length (Except FailedCommit Finish) :=
  .start (fun i ↦ batch[i].finish) s

/-- The report on the results that were collected. -/
def Window.report {n : Nat} (w : Window n (Except FailedCommit Finish)) : CommitReport :=
  .ofResults (w.results.map Prod.snd)

/-- What commits of a batch come to that are done, whatever schedule they went by. -/
structure Window.Committed (batch : List Committable) (s : MemoryStore)
    (w : Window batch.length (Except FailedCommit Finish)) : Prop where
  /-- Every committable has the outcome that it has alone. -/
  outcomes : w.results.Perm ((List.finRange batch.length).map fun i ↦
    (i, (batch[i].finish.run MemoryStore.answer s).value))
  /-- The store has the changes that every committable makes alone. -/
  store : s.Combines (fun i : Fin batch.length ↦ (batch[i].finish.run MemoryStore.answer s).state)
    w.pool.store
  /-- Every committable counts once. -/
  total : w.report.committed + w.report.discarded + w.report.failed.length = batch.length
  /-- The committables that fail alone are handed back as they were. -/
  failed : (w.report.failed.map FailedCommit.committable).Perm
    (batch.filter fun c ↦ !(c.finish.run MemoryStore.answer s).value.isOk)
  /-- One after the other, the commits come to the same. -/
  committed_eq : w.report.committed = ((commitBatch batch).run MemoryStore.answer s).value.committed
  discarded_eq : w.report.discarded = ((commitBatch batch).run MemoryStore.answer s).value.discarded
  failed_perm : w.report.failed.Perm ((commitBatch batch).run MemoryStore.answer s).value.failed
  store_eq (p : ObjectPath) :
    w.pool.store.get? p = ((commitBatch batch).run MemoryStore.answer s).state.get? p

theorem Committable.separate_places
    (hplaces : batch.Pairwise fun c d ↦ c.places.Disjoint d.places) :
    Pool.Separate fun (i : Fin batch.length) p ↦ p ∈ batch[i].places := by
  intro i j p hi hj
  have hlt := List.pairwise_iff_getElem.mp hplaces
  rcases lt_trichotomy i j with hij | hij | hij
  · exact (hlt i j i.2 j.2 hij hi hj).elim
  · exact hij
  · exact (hlt j i j.2 i.2 hij hj hi).elim

/-- What fails is handed back as it was. -/
theorem Committable.committable_of_run {c : Committable} {f : FailedCommit}
    (h : (c.finish.run MemoryStore.answer s).value = .error f) : f.committable = c := by
  exact committable_of_finish (h ▸ c.finish.ends_answer s)

/-- One commit after the other. -/
theorem run_commitBatch (hplaces : batch.Pairwise fun c d ↦ c.places.Disjoint d.places)
    (s : MemoryStore) :
    ((commitBatch batch).run MemoryStore.answer s).value =
        .ofResults (batch.map fun c ↦ (c.finish.run MemoryStore.answer s).value) ∧
      s.Combines (fun i : Fin batch.length ↦ (batch[i].finish.run MemoryStore.answer s).state)
        ((commitBatch batch).run MemoryStore.answer s).state := by
  have hwithin : ∀ c ∈ batch, c.finish.Within (· ∈ c.places) := fun c _ ↦ c.within_finish
  obtain ⟨hvalue, hstate, hrest⟩ := Task.run_mapM hwithin (hplaces.imp fun h q hc hd ↦ h hc hd)
    (fun _ _ ↦ MemoryStore.Agree.refl _ s)
  simp only [commitBatch, Task.run_bind, Task.report, Task.run_emit, Task.pure_eq, Task.run_done]
  refine ⟨by rw [hvalue], .of_agree (fun i q hq ↦ batch[i].within_finish.run_frame hq) ?_ ?_⟩
  · intro i
    exact hstate batch[i] (List.getElem_mem i.2)
  · intro q hq
    refine hrest q fun c hc ↦ ?_
    obtain ⟨k, hk, rfl⟩ := List.mem_iff_getElem.mp hc
    exact hq ⟨k, hk⟩

/-- When all commits are done, it makes no difference what schedule they went by. -/
theorem Window.committed_of_complete {limit : Nat}
    {w : Window batch.length (Except FailedCommit Finish)}
    (hplaces : batch.Pairwise fun c d ↦ c.places.Disjoint d.places)
    (hw : Reaches limit (ofBatch batch s) w) (hcomplete : w.Complete) : w.Committed batch s := by
  have hown := Committable.separate_places hplaces
  have hwithin : ∀ i : Fin batch.length, batch[i].finish.Within (· ∈ batch[i].places) :=
    fun i ↦ batch[i].within_finish
  have houtcomes := hw.results hown hwithin hcomplete
  have hstore := hw.combines hown hwithin hcomplete
  obtain ⟨hwhole, hwholeStore⟩ := run_commitBatch hplaces s
  have hvalues : (w.results.map Prod.snd).Perm
      (batch.map fun c ↦ (c.finish.run MemoryStore.answer s).value) := by
    refine (houtcomes.map Prod.snd).trans (.of_eq ?_)
    exact List.ext_getElem (by simp) (by simp)
  obtain ⟨hcommitted, hdiscarded, hfailed⟩ := CommitReport.ofResults_perm hvalues
  exact {
    outcomes := houtcomes
    store := hstore
    total := by
      rw [report, CommitReport.total_ofResults, List.length_map, hcomplete]
    failed := (hfailed.map _).trans
      (.of_eq (CommitReport.failed_ofResults (fun c f ↦ c.committable_of_run) batch))
    committed_eq := by rw [hwhole]; exact hcommitted
    discarded_eq := by rw [hwhole]; exact hdiscarded
    failed_perm := by rw [hwhole]; exact hfailed
    store_eq := hstore.get?_eq hwholeStore }

/-- Commits of a batch whose committables name different places, with any bound on how many of them
are under way and their requests in any order: they come to an end, and then every committable has
the outcome and the effect that it has alone, so that no failure does harm to another one. The
report counts every committable once and hands the failures back as they were. -/
theorem Window.commit_any_order (limit : Nat)
    (hplaces : batch.Pairwise fun c d ↦ c.places.Disjoint d.places) (s : MemoryStore) :
    (∀ schedule : Nat → Window batch.length (Except FailedCommit Finish),
      schedule 0 = ofBatch batch s →
        ∃ k, ¬ Step (max limit 1) (schedule k) (schedule (k + 1))) ∧
    ∀ w, Reaches (max limit 1) (ofBatch batch s) w →
      (¬ w.Complete → ∃ w', Step (max limit 1) w w') ∧ (w.Complete → w.Committed batch s) := by
  have hown := Committable.separate_places hplaces
  have hwithin : ∀ i : Fin batch.length, batch[i].finish.Within (· ∈ batch[i].places) :=
    fun i ↦ batch[i].within_finish
  exact ⟨fun schedule hstart ↦ exists_not_step hown hwithin schedule hstart, fun w hw ↦
    ⟨hw.exists_step hown hwithin (by omega), committed_of_complete hplaces hw⟩⟩

/-- One file is published, one is removed, and one that is missing is handed back, two at a time. -/
theorem Window.commit_any_order_two_at_a_time :
    let waits : Committable := ⟨"a", .pending ⟨"s/a", "t/a", 1, 1⟩, 0⟩
    let missing : Committable := ⟨"b", .pending ⟨"s/b", "t/b", 1, 1⟩, 3⟩
    let given : Committable := ⟨"c", .inProgress ⟨"s/c", 1⟩, 1⟩
    let s : MemoryStore := ⟨[(.ofText "s/a", "x".toUTF8), (.ofText "s/c", "y".toUTF8)]⟩
    [waits, missing, given].Pairwise (fun c d ↦ c.places.Disjoint d.places) ∧
      ∀ w, Reaches (max 2 1) (ofBatch [waits, missing, given] s) w → w.Complete →
        w.report.committed = 1 ∧ w.report.discarded = 1 ∧
          w.report.failed.map FailedCommit.committable = [missing] ∧
          w.pool.store.get? (.ofText "t/a") = some "x".toUTF8 ∧
          w.pool.store.get? (.ofText "s/c") = none := by
  intro waits missing given s
  have hplaces : [waits, missing, given].Pairwise fun c d ↦ c.places.Disjoint d.places := by
    simp only [List.Disjoint, List.pairwise_cons]
    decide +kernel
  refine ⟨hplaces, fun w hw hcomplete ↦ ?_⟩
  have h := ((commit_any_order 2 hplaces s).2 w hw).2 hcomplete
  refine ⟨h.committed_eq.trans ?_, h.discarded_eq.trans ?_, ?_, (h.store_eq _).trans ?_,
    (h.store_eq _).trans ?_⟩
  · decide +kernel
  · decide +kernel
  · have hfailed : [waits, missing, given].filter
      (fun c ↦ !(c.finish.run MemoryStore.answer s).value.isOk) = [missing] := by decide +kernel
    exact List.perm_singleton.mp (hfailed ▸ h.failed)
  · decide +kernel
  · decide +kernel

/-! ## Batches on the way -/

/-- Commits on a store in memory overlap in any way that the limit leaves room for. -/
instance : Committing (Ways MemoryStore) :=
  ⟨fun limit batch s report s' ↦ ∃ w, Window.Reaches limit (.ofBatch batch s) w ∧ w.Complete ∧
    report = w.report ∧ s' = w.pool.store⟩

/-- Commits that overlap count what they count one after the other, hand back the same failures, and
leave the same behind. -/
theorem Ways.exists_commitBatch {limit : Nat} {s₀ : MemoryStore} (hlimit : 0 < limit)
    (hplaces : batch.Pairwise fun c d ↦ c.places.Disjoint d.places) (hs : s.Alike s₀) :
    let commits : Ways MemoryStore CommitReport := Committing.commitBatch limit batch
    (∃ report s', commits s report s') ∧ ∀ report s', commits s report s' →
      ∃ report₀ s₀', (commitBatch batch).Ends (MemoryStore.Replies Mishap.none) s₀ report₀ s₀' ∧
        s'.Alike s₀' ∧ report.committed = report₀.committed ∧
        report.discarded = report₀.discarded ∧ report.failed.Perm report₀.failed := by
  have hown := Committable.separate_places hplaces
  have hwithin : ∀ i : Fin batch.length, batch[i].finish.Within (· ∈ batch[i].places) :=
    fun i ↦ batch[i].within_finish
  have hwhole : (commitBatch batch).Within fun _ ↦ True :=
    (Task.Within.mapM fun c _ ↦ c.within_finish.mono fun _ _ ↦ trivial).bind fun _ ↦
      Task.Within.report_bind Task.within_done
  refine ⟨?_, ?_⟩
  · obtain ⟨w, hw, hcomplete⟩ := Window.Reaches.exists_complete (s := s) hown hwithin hlimit .refl
    exact ⟨_, _, w, hw, hcomplete, rfl, rfl⟩
  · rintro _ _ ⟨w, hw, hcomplete, rfl, rfl⟩
    have hcommitted := Window.committed_of_complete hplaces hw hcomplete
    obtain ⟨hvalue, hstate, -⟩ := hwhole.run_congr fun p _ ↦ hs p
    refine ⟨_, _, (commitBatch batch).ends_answer s₀, fun p ↦ ?_, ?_⟩
    · exact (hcommitted.store_eq p).trans (hstate p trivial)
    · rw [← hvalue]
      exact ⟨hcommitted.committed_eq, hcommitted.discarded_eq, hcommitted.failed_perm⟩

/-- If none of the commits fails, it cannot be told that they overlap. -/
theorem Ways.refines_commitBatch {limit : Nat} {s₀ : MemoryStore} (hlimit : 0 < limit)
    (hplaces : batch.Pairwise fun c d ↦ c.places.Disjoint d.places)
    (hsuccess : ∀ report s', (commitBatch batch).Ends (MemoryStore.Replies Mishap.none) s₀ report
      s' → report.isSuccess = true) :
    Refines MemoryStore.Alike (Committing.commitBatch limit batch) (commitBatch batch) s₀ where
  possible _ hs := (exists_commitBatch hlimit hplaces hs).1
  ends s hs report s' hway := by
    obtain ⟨report₀, s₀', hends, hs', hcommitted, hdiscarded, hfailed⟩ :=
      (exists_commitBatch hlimit hplaces hs).2 report s' hway
    have hnone : report₀.failed = [] := List.isEmpty_iff.mp (hsuccess report₀ s₀' hends)
    obtain ⟨committed, discarded, failed⟩ := report
    obtain ⟨committed₀, discarded₀, failed₀⟩ := report₀
    obtain rfl : committed = committed₀ := hcommitted
    obtain rfl : discarded = discarded₀ := hdiscarded
    obtain rfl : failed₀ = [] := hnone
    obtain rfl : failed = [] := hfailed.eq_nil
    exact ⟨s₀', hends, hs'⟩

end TableSink
