import TableSink.Proofs.Commit.Settle
import TableSink.Proofs.Metrics.Tally

/-!
# What committing counts

Each committable of a batch counts once: as published, as removed, or as failed at one stage. There
is one exception. A file that is found at its target when it is looked for was published before, by
somebody who may have counted it; it is in the report, but not in a figure (`Committable.isShown`).
So the report on a batch and the figures agree up to those files (`Reported`).
-/

namespace TableSink

variable {σ : Type} {answer : (r : Request) → σ → r.Reply × σ} {s s' : σ} {n m : Tally}

/-- The stage at which a committable could not be finished, told from its kind and the error. -/
def FailedCommit.stage (f : FailedCommit) : CommitStage :=
  match f.error with
  | .recovery _ => .recover
  | .commit _ => if f.committable.token.isPending then .commit else .cleanup

/-- Looking for the file of the committable finds that it was published before. -/
def Committable.isShown (answer : (r : Request) → σ → r.Reply × σ) (c : Committable) (s : σ) :
    Bool :=
  match c.token with
  | .pending token =>
    match (token.recover.run answer s).value with
    | .ok (.published _) => true
    | .ok (.staged _ _) | .error _ => false
  | .inProgress _ => false

/-- How many files of a batch are found to be published before, as one committable is finished after
the other. -/
def shownBefore (answer : (r : Request) → σ → r.Reply × σ) : List Committable → σ → Nat
  | [], _ => 0
  | c :: cs, s =>
    (if c.isShown answer s then 1 else 0) + shownBefore answer cs (c.finish.run answer s).state

/-- The figures agree with a report, of which some files were not counted. -/
structure Reported (report : CommitReport) (uncounted : Nat) (n : Tally) : Prop where
  committed : n.entry (.committed false) + n.entry (.committed true) + uncounted = report.committed
  discarded : n.entry (.discarded false) + n.entry (.discarded true) = report.discarded
  failed : ∀ stage, n.entry (.failed stage) = report.failed.countP fun f ↦ f.stage = stage
  others : ∀ x, x.isEnd = false → n.entry x = 0
  refused : n.refused = 0

namespace Reported

theorem empty : Reported {} 0 0 :=
  ⟨rfl, rfl, fun _ ↦ rfl, fun _ _ ↦ rfl, rfl⟩

theorem join {r r' : CommitReport} {k k' : Nat} (h : Reported r k n) (h' : Reported r' k' m) :
    Reported (r.join r') (k + k') (n + m) where
  committed := by
    have hr := h.committed
    have hr' := h'.committed
    simp only [Tally.entry_add, CommitReport.join]
    omega
  discarded := by
    have hr := h.discarded
    have hr' := h'.discarded
    simp only [Tally.entry_add, CommitReport.join]
    omega
  failed stage := by
    rw [Tally.entry_add, h.failed, h'.failed, CommitReport.join, List.countP_append]
  others x hx := by rw [Tally.entry_add, h.others x hx, h'.others x hx]
  refused := by rw [Tally.refused_add, h.refused, h'.refused]

theorem published (recovered : Bool) :
    Reported { committed := 1 } 0 (.ofEvent (.fileCommitted recovered)) where
  committed := by cases recovered <;> rfl
  discarded := rfl
  failed _ := rfl
  others x hx := by cases x <;> first | rfl | cases hx
  refused := rfl

/-- A file that was published before. -/
theorem shown : Reported { committed := 1 } 1 0 :=
  ⟨rfl, rfl, fun _ ↦ rfl, fun _ _ ↦ rfl, rfl⟩

theorem removed (found : Bool) :
    Reported { discarded := 1 } 0 (.ofEvent (.fileDiscarded found)) where
  committed := rfl
  discarded := by cases found <;> rfl
  failed _ := rfl
  others x hx := by cases x <;> first | rfl | cases hx
  refused := rfl

theorem failure (f : FailedCommit) :
    Reported { failed := [f] } 0 (.ofEvent (.commitFailed f.stage)) where
  committed := rfl
  discarded := rfl
  failed stage := by
    rw [Tally.entry_ofEvent, Event.weight, List.countP_singleton]
    exact if_congr decide_eq_true_iff.symm rfl rfl
  others x hx := by cases x <;> first | rfl | cases hx
  refused := rfl

end Reported

/-! ## Tokens -/

/-- Looking for a file does not count. -/
theorem PendingToken.tallies_recover {t : PendingToken} {file : Except RecoveryError PendingFile}
    (h : t.recover.Tallies answer s file s' n) : n = 0 := by
  rw [recover] at h
  cases hplaces : t.places with
  | error e =>
    rw [hplaces] at h
    exact (Task.tallies_done.mp h).2.2
  | ok places =>
    obtain ⟨source, target⟩ := places
    rw [hplaces] at h
    replace h := (Task.tallies_ask_bind (by simp [Request.operation])).mp h
    generalize (answer (.head source) s).1.mapError StorageError.request = reply at h
    cases reply with
    | ok actual => exact (Task.tallies_done.mp h).2.2
    | error e =>
      simp only at h
      split at h
      · replace h := (Task.tallies_ask_bind (by simp [Request.operation])).mp h
        split at h <;> exact (Task.tallies_done.mp h).2.2
      · exact (Task.tallies_done.mp h).2.2

/-- Looking whether there is an object does not count. -/
theorem Task.tallies_objectExists {path : ObjectPath} {found : Except StorageError Bool}
    (h : (objectExists path).Tallies answer s found s' n) : n = 0 := by
  replace h := (Task.tallies_ask_bind (by simp [Request.operation])).mp h
  split at h <;> exact (Task.tallies_done.mp h).2.2

/-- A file that is staged counts when it is published, and one that was published before does not
count again. -/
theorem PendingFile.tallies_commitRecovered {file : PendingFile} {result : Except CommitError Unit}
    (h : file.commitRecovered.Tallies answer s result s' n) :
    (∃ e, result = .error e) ∧ n = 0 ∧ (∃ source target, file = .staged source target) ∨
      result = .ok () ∧ ((∃ target, file = .published target) ∧ n = 0 ∨
        (∃ source target, file = .staged source target) ∧ n = .ofEvent (.fileCommitted true)) := by
  cases file with
  | published target =>
    obtain ⟨rfl, -, rfl⟩ := Task.tallies_done.mp h
    exact .inr ⟨rfl, .inl ⟨⟨target, rfl⟩, rfl⟩⟩
  | staged source target =>
    replace h := (Task.tallies_ask_bind (by simp [Request.operation])).mp h
    generalize (answer (.rename source target) s).1.mapError StorageError.request = reply at h
    cases reply with
    | ok _ =>
      obtain ⟨_, hdone, rfl⟩ := Task.tallies_emit.mp h
      obtain ⟨rfl, -, rfl⟩ := Task.tallies_done.mp hdone
      exact .inr ⟨rfl, .inr ⟨⟨source, target, rfl⟩, rfl⟩⟩
    | error e =>
      simp only at h
      split at h
      · obtain ⟨found, _, m, k, hexists, hnext, rfl⟩ := Task.tallies_bind.mp h
        obtain rfl := Task.tallies_objectExists hexists
        match found, hnext with
        | .ok true, hnext =>
          obtain ⟨_, hdone, rfl⟩ := Task.tallies_emit.mp hnext
          obtain ⟨rfl, -, rfl⟩ := Task.tallies_done.mp hdone
          exact .inr ⟨rfl, .inr ⟨⟨source, target, rfl⟩, Tally.zero_add _⟩⟩
        | .ok false, hnext =>
          obtain ⟨rfl, -, rfl⟩ := Task.tallies_done.mp hnext
          exact .inl ⟨⟨_, rfl⟩, rfl, source, target, rfl⟩
        | .error _, hnext =>
          obtain ⟨rfl, -, rfl⟩ := Task.tallies_done.mp hnext
          exact .inl ⟨⟨_, rfl⟩, rfl, source, target, rfl⟩
      · obtain ⟨rfl, -, rfl⟩ := Task.tallies_done.mp h
        exact .inl ⟨⟨_, rfl⟩, rfl, source, target, rfl⟩

/-- A staged file counts when it is removed, and also when it is gone already. -/
theorem InProgressToken.tallies_cleanup {t : InProgressToken} {result : Except CommitError Bool}
    (h : t.cleanup.Tallies answer s result s' n) : (∃ e, result = .error e) ∧ n = 0 ∨
      ∃ found, result = .ok found ∧ n = .ofEvent (.fileDiscarded found) := by
  have hreport : ∀ {found s s' n}, (Task.report (.fileDiscarded found) >>= fun _ ↦
      Task.done (.ok found)).Tallies answer s result s' n →
      result = .ok found ∧ n = .ofEvent (.fileDiscarded found) := by
    intro found s s' n h
    obtain ⟨_, hdone, rfl⟩ := Task.tallies_emit.mp h
    obtain ⟨rfl, -, rfl⟩ := Task.tallies_done.mp hdone
    exact ⟨rfl, rfl⟩
  rw [cleanup] at h
  cases hpath : readPath t.staging with
  | error e =>
    rw [hpath] at h
    obtain ⟨rfl, -, rfl⟩ := Task.tallies_done.mp h
    exact .inl ⟨⟨_, rfl⟩, rfl⟩
  | ok path =>
    rw [hpath] at h
    obtain ⟨found, s₁, m, k, hexists, hnext, rfl⟩ := Task.tallies_bind.mp h
    obtain rfl := Task.tallies_objectExists hexists
    rw [Tally.zero_add]
    obtain _ | _ | _ := found
    · obtain ⟨rfl, -, rfl⟩ := Task.tallies_done.mp hnext
      exact .inl ⟨⟨_, rfl⟩, rfl⟩
    · exact .inr ⟨_, hreport hnext⟩
    · replace hnext := (Task.tallies_ask_bind (by simp [Request.operation])).mp hnext
      generalize (answer (.delete path) s₁).1.mapError StorageError.request = reply at hnext
      cases reply with
      | ok _ => exact .inr ⟨_, hreport hnext⟩
      | error e =>
        simp only at hnext
        split at hnext
        · exact .inr ⟨_, hreport hnext⟩
        · obtain ⟨rfl, -, rfl⟩ := Task.tallies_done.mp hnext
          exact .inl ⟨⟨_, rfl⟩, rfl⟩

/-! ## Committables -/

/-- A report that a committable could not be finished. -/
theorem Task.tallies_commitFailed {stage : CommitStage} {e : CommitFailure}
    {result : Except CommitFailure Finish}
    (h : (Task.report (.commitFailed stage) >>= fun _ ↦ Task.done (.error e)).Tallies answer s
      result s' n) : result = .error e ∧ n = .ofEvent (.commitFailed stage) := by
  obtain ⟨_, hdone, rfl⟩ := Task.tallies_emit.mp h
  obtain ⟨rfl, -, rfl⟩ := Task.tallies_done.mp hdone
  exact ⟨rfl, rfl⟩

/-- A committable counts as its result says, unless its file was published before. -/
theorem Committable.tallies_finish {c : Committable} {result : Except FailedCommit Finish}
    (h : c.finish.Tallies answer s result s' n) :
    Reported (.add {} result) (if c.isShown answer s then 1 else 0) n := by
  obtain ⟨finished, _, m, k, hfinish, hdone, rfl⟩ := Task.tallies_bind.mp h
  obtain ⟨rfl, -, rfl⟩ := Task.tallies_done.mp hdone
  rw [Tally.add_zero]
  obtain ⟨bucket, token | token, retries⟩ := c
  · obtain ⟨file, s₁, m, k, hrecover, hnext, rfl⟩ := Task.tallies_bind.mp hfinish
    obtain rfl := PendingToken.tallies_recover hrecover
    simp only [isShown, hrecover.value, Tally.zero_add]
    cases file with
    | error e =>
      obtain ⟨rfl, rfl⟩ := Task.tallies_commitFailed hnext
      exact .failure _
    | ok file =>
      obtain ⟨committed, s₂, m, k, hcommit, hlast, rfl⟩ := Task.tallies_bind.mp hnext
      obtain ⟨⟨e, rfl⟩, rfl, source, target, rfl⟩ |
          ⟨rfl, ⟨⟨target, rfl⟩, rfl⟩ | ⟨⟨source, target, rfl⟩, rfl⟩⟩ :=
        PendingFile.tallies_commitRecovered hcommit
      · obtain ⟨rfl, rfl⟩ := Task.tallies_commitFailed hlast
        rw [Tally.zero_add]
        exact .failure _
      · obtain ⟨rfl, -, rfl⟩ := Task.tallies_done.mp hlast
        exact .shown
      · obtain ⟨rfl, -, rfl⟩ := Task.tallies_done.mp hlast
        exact .published true
  · obtain ⟨cleaned, s₁, m, k, hcleanup, hnext, rfl⟩ := Task.tallies_bind.mp hfinish
    obtain ⟨⟨e, rfl⟩, rfl⟩ | ⟨found, rfl, rfl⟩ := InProgressToken.tallies_cleanup hcleanup
    · obtain ⟨rfl, rfl⟩ := Task.tallies_commitFailed hnext
      rw [Tally.zero_add]
      exact .failure _
    · obtain ⟨rfl, -, rfl⟩ := Task.tallies_done.mp hnext
      exact .removed found

theorem tallies_finishEach {cs : List Committable} {results : List (Except FailedCommit Finish)}
    (h : (cs.mapM Committable.finish).Tallies answer s results s' n) :
    Reported (.ofResults results) (shownBefore answer cs s) n := by
  induction cs generalizing s s' n results with
  | nil =>
    obtain ⟨rfl, -, rfl⟩ := Task.tallies_done.mp h
    exact .empty
  | cons c cs ih =>
    rw [List.mapM_cons] at h
    obtain ⟨result, s₁, m, k, hfirst, hnext, rfl⟩ := Task.tallies_bind.mp h
    obtain ⟨results', s₂, k, l, hrest, hdone, rfl⟩ := Task.tallies_bind.mp hnext
    obtain ⟨rfl, -, rfl⟩ := Task.tallies_done.mp hdone
    rw [CommitReport.ofResults_cons, shownBefore, hfirst.state]
    exact (Committable.tallies_finish hfirst).join (ih hrest)

/-- The report on a batch agrees with the figures, up to files that were published before. -/
theorem tallies_commitBatch {cs : List Committable} {report : CommitReport}
    (h : (commitBatch cs).Tallies answer s report s' n) :
    Reported report (shownBefore answer cs s) n := by
  obtain ⟨results, s₁, m, k, hresults, hnext, rfl⟩ := Task.tallies_bind.mp h
  obtain ⟨_, hdone, rfl⟩ := Task.tallies_emit.mp hnext
  obtain ⟨rfl, -, rfl⟩ := Task.tallies_done.mp hdone
  have hquiet : Tally.ofEvent .batchCompleted = 0 := Tally.ext (funext fun _ ↦ rfl) rfl
  rw [hquiet]
  exact tallies_finishEach hresults

end TableSink
