import TableSink.Proofs.Commit.Settle

/-!
# One pending token on its own

A token comes from outside, so its strings need not be paths and its size need not be that of any
object. What a commit of it alone comes to is decided by three things: what its strings are read as,
what stands at its staging place, and what stands at its target (`PendingToken.CommittedAlone`).
The store changes in one case only, when the file waits and has the size of the token.
-/

namespace TableSink

open MemoryStore (Replies Moved)

variable {s s' : MemoryStore} {t : PendingToken} {source target : ObjectPath} {data : ByteArray}

/-! ## Places -/

theorem readPath_ok {path : String} {p : ObjectPath} (h : ObjectPath.parse? path = .ok p) :
    readPath path = .ok p := by
  rw [readPath, h]
  rfl

theorem readPath_error {path : String} {fault : PathFault}
    (h : ObjectPath.parse? path = .error fault) :
    readPath path = .error (.invalidPath path fault) := by
  rw [readPath, h]
  rfl

namespace PendingToken

theorem places_ok (hsource : ObjectPath.parse? t.staging = .ok source)
    (htarget : ObjectPath.parse? t.target = .ok target) : t.places = .ok (source, target) := by
  simp only [places, readPath_ok hsource, readPath_ok htarget]
  rfl

/-- The staging place is read first. -/
theorem places_of_staging {fault : PathFault} (h : ObjectPath.parse? t.staging = .error fault) :
    t.places = .error (.inspect t.staging (.invalidPath t.staging fault)) := by
  simp only [places, readPath_error h]
  rfl

theorem places_of_target {fault : PathFault} (hsource : ObjectPath.parse? t.staging = .ok source)
    (h : ObjectPath.parse? t.target = .error fault) :
    t.places = .error (.inspect t.target (.invalidPath t.target fault)) := by
  simp only [places, readPath_ok hsource, readPath_error h]
  rfl

/-! ## Looking for the file -/

/-- What is found of a file, given what stands at its two places. -/
def found (t : PendingToken) (source target : ObjectPath) :
    (waits shows : Option ByteArray) → Except RecoveryError PendingFile
  | some data, _ =>
    if data.size = t.size then .ok (.staged source target)
    else .error (.lengthMismatch t.staging t.size data.size)
  | none, some data =>
    if data.size = t.size then .ok (.published target) else .error (.missing t.staging)
  | none, none => .error (.missing t.staging)

/-- What is found of a file in a store. Strings that are no paths are reported before anything is
asked of the store. -/
def verdict (t : PendingToken) (s : MemoryStore) : Except RecoveryError PendingFile :=
  t.places.bind fun places ↦
    t.found places.1 places.2 (s.get? places.1) (s.get? places.2)

theorem verdict_of_error {e : RecoveryError} (h : t.places = .error e) :
    t.verdict s = .error e := by
  rw [verdict, h]
  rfl

theorem verdict_of_places (h : t.places = .ok (source, target)) :
    t.verdict s = t.found source target (s.get? source) (s.get? target) := by
  rw [verdict, h]
  rfl

/-- A file that waits is found if it has the size of the token, whatever stands at the target. -/
theorem verdict_of_source (h : t.places = .ok (source, target))
    (hdata : s.get? source = some data) :
    t.verdict s = if data.size = t.size then .ok (.staged source target)
      else .error (.lengthMismatch t.staging t.size data.size) := by
  rw [verdict_of_places h, hdata]
  rfl

theorem verdict_of_target (h : t.places = .ok (source, target)) (hsource : s.get? source = none)
    (hdata : s.get? target = some data) :
    t.verdict s = if data.size = t.size then .ok (.published target)
      else .error (.missing t.staging) := by
  rw [verdict_of_places h, hsource, hdata]
  rfl

theorem verdict_of_nothing (h : t.places = .ok (source, target)) (hsource : s.get? source = none)
    (htarget : s.get? target = none) : t.verdict s = .error (.missing t.staging) := by
  rw [verdict_of_places h, hsource, htarget]
  rfl

theorem exists_ok_ite {α ε : Type} {p : Prop} [Decidable p] {a : α} {e : ε} :
    (∃ x, (if p then Except.ok a else Except.error e) = Except.ok x) ↔ p := by
  by_cases h : p
  · rw [if_pos h]
    exact ⟨fun _ ↦ h, fun _ ↦ ⟨a, rfl⟩⟩
  · rw [if_neg h]
    constructor
    · rintro ⟨x, hx⟩
      cases hx
    · intro hp
      exact absurd hp h

/-- A file is found if it can be finished. -/
theorem verdict_isOk_iff (h : t.places = .ok (source, target)) :
    (∃ file, t.verdict s = .ok file) ↔ Finishable source target t.size s := by
  cases hsource : s.get? source with
  | some data =>
    rw [verdict_of_source h hsource, finishable_of_source hsource]
    exact exists_ok_ite
  | none =>
    cases htarget : s.get? target with
    | some data =>
      rw [verdict_of_target h hsource htarget, finishable_of_target hsource htarget]
      exact exists_ok_ite
    | none =>
      rw [verdict_of_nothing h hsource htarget]
      constructor
      · rintro ⟨file, hfile⟩
        cases hfile
      · intro hfinishable
        exact absurd hfinishable (not_finishable hsource htarget)

/-- The strings of a token that leads to a file are paths. -/
theorem parse_of_verdict {file : PendingFile} (hverdict : t.verdict s = .ok file) :
    ∃ source target, ObjectPath.parse? t.staging = .ok source ∧
      ObjectPath.parse? t.target = .ok target := by
  cases hsource : ObjectPath.parse? t.staging with
  | error fault =>
    rw [verdict_of_error (places_of_staging hsource)] at hverdict
    cases hverdict
  | ok source =>
    cases htarget : ObjectPath.parse? t.target with
    | error fault =>
      rw [verdict_of_error (places_of_target hsource htarget)] at hverdict
      cases hverdict
    | ok target => exact ⟨source, target, rfl, rfl⟩

/-- A file that is found at its staging place waits there. -/
theorem exists_of_verdict_staged (hverdict : t.verdict s = .ok (.staged source target)) :
    ∃ data, s.get? source = some data := by
  cases hplaces : t.places with
  | error e =>
    rw [verdict_of_error hplaces] at hverdict
    cases hverdict
  | ok places =>
    obtain ⟨source', target'⟩ := places
    cases hsource : s.get? source' with
    | some data =>
      rw [verdict_of_source hplaces hsource] at hverdict
      split at hverdict
      · cases hverdict
        exact ⟨data, hsource⟩
      · cases hverdict
    | none =>
      rw [verdict_of_places hplaces, hsource] at hverdict
      cases htarget : s.get? target' with
      | some data =>
        rw [htarget, found] at hverdict
        split at hverdict <;> cases hverdict
      | none =>
        rw [htarget] at hverdict
        cases hverdict

/-- Looking for a file finds what there is, and changes nothing. -/
theorem ends_recover_verdict {result : Except RecoveryError PendingFile}
    (h : t.recover.Ends (Replies Mishap.none) s result s') : result = t.verdict s ∧ s' = s := by
  cases hplaces : t.places with
  | error e =>
    simp only [recover, hplaces] at h
    obtain ⟨rfl, rfl⟩ := Task.ends_done.mp h
    exact ⟨(verdict_of_error hplaces).symm, rfl⟩
  | ok places =>
    obtain ⟨source, target⟩ := places
    rw [verdict_of_places hplaces]
    simp only [recover, hplaces] at h
    obtain ⟨reply, s₁, hreply, h⟩ := Task.ends_ask_bind.mp h
    obtain ⟨rfl, ⟨data, hdata, rfl⟩ | ⟨hsource, rfl⟩ | ⟨_, _, _, _, hm⟩⟩ := hreply.head
    · obtain ⟨rfl, rfl⟩ := Task.ends_done.mp h
      rw [hdata]
      exact ⟨rfl, rfl⟩
    · simp only [Except.mapError, StorageError.isNotFound, if_true] at h
      obtain ⟨reply, s₂, hreply, h⟩ := Task.ends_ask_bind.mp h
      obtain ⟨rfl, ⟨data, hdata, rfl⟩ | ⟨htarget, rfl⟩ | ⟨_, _, _, _, hm⟩⟩ := hreply.head
      · obtain ⟨rfl, rfl⟩ := Task.ends_done.mp h
        rw [hsource, hdata]
        exact ⟨rfl, rfl⟩
      · obtain ⟨rfl, rfl⟩ := Task.ends_done.mp h
        rw [hsource, htarget]
        exact ⟨rfl, rfl⟩
      · exact hm.elim
    · exact hm.elim

/-! ## Committing -/

/-- A report on a batch of one says what became of the one. -/
theorem ends_commitBatch_one {c : Committable} {report : CommitReport}
    (h : (commitBatch [c]).Ends (Replies Mishap.none) s report s') :
    ∃ result, c.token.finish.Ends (Replies Mishap.none) s result s' ∧
      report = CommitReport.add {} (result.mapError fun e ↦ ⟨c, e⟩) := by
  simp only [commitBatch, List.mapM_cons, List.mapM_nil, Committable.finish, Task.ends_bind] at h
  obtain ⟨results, s₁, ⟨result, s₂, ⟨finished, s₃, hfinish, hresult⟩, rest, s₄, hrest, hresults⟩,
    _, s₅, hevent, hreport⟩ := h
  obtain ⟨rfl, rfl⟩ := Task.ends_done.mp hresult
  obtain ⟨rfl, rfl⟩ := Task.ends_done.mp hrest
  obtain ⟨rfl, rfl⟩ := Task.ends_done.mp hresults
  obtain rfl := Task.ends_report.mp hevent
  obtain ⟨rfl, rfl⟩ := Task.ends_done.mp hreport
  exact ⟨finished, hfinish, rfl⟩

variable {bucket : String} {retries : UInt32} {report : CommitReport}

/-- What a commit does about a file that was looked for. -/
def finishFound : Except RecoveryError PendingFile → Task (Except CommitFailure Finish)
  | .error e => do
    Task.report (.commitFailed .recover)
    return .error (.recovery e)
  | .ok file => do
    match ← file.commitRecovered with
    | .error e =>
      Task.report (.commitFailed .commit)
      return .error (.commit e)
    | .ok () => return .ok .committed

theorem finish_pending (t : PendingToken) : (Token.pending t).finish = t.recover >>= finishFound :=
  rfl

/-- A commit goes on with what is found of the file. -/
theorem ends_commit_of_verdict {found : Except RecoveryError PendingFile}
    (hverdict : t.verdict s = found)
    (h : (commitBatch [⟨bucket, .pending t, retries⟩]).Ends (Replies Mishap.none) s report s') :
    ∃ result, (finishFound found).Ends (Replies Mishap.none) s result s' ∧
      report =
        CommitReport.add {} (result.mapError fun e ↦ ⟨⟨bucket, .pending t, retries⟩, e⟩) := by
  obtain ⟨result, hfinish, hreport⟩ := ends_commitBatch_one h
  rw [finish_pending, Task.ends_bind] at hfinish
  obtain ⟨_, s₁, hrecover, hfinish⟩ := hfinish
  obtain ⟨rfl, rfl⟩ := ends_recover_verdict hrecover
  rw [hverdict] at hfinish
  exact ⟨result, hfinish, hreport⟩

/-- A file that is not found is handed back, and nothing happens. -/
theorem ends_commit_of_error {e : RecoveryError} (hverdict : t.verdict s = .error e)
    (h : (commitBatch [⟨bucket, .pending t, retries⟩]).Ends (Replies Mishap.none) s report s') :
    report = { failed := [⟨⟨bucket, .pending t, retries⟩, .recovery e⟩] } ∧ s' = s := by
  obtain ⟨result, hfinish, rfl⟩ := ends_commit_of_verdict hverdict h
  obtain ⟨rfl, rfl⟩ := Task.ends_report_done.mp hfinish
  exact ⟨rfl, rfl⟩

/-- A file that was published before stays where it is. -/
theorem ends_commit_of_published (hverdict : t.verdict s = .ok (.published target))
    (h : (commitBatch [⟨bucket, .pending t, retries⟩]).Ends (Replies Mishap.none) s report s') :
    report = { committed := 1 } ∧ s' = s := by
  obtain ⟨result, hfinish, rfl⟩ := ends_commit_of_verdict hverdict h
  obtain ⟨rfl, rfl⟩ := Task.ends_done.mp hfinish
  exact ⟨rfl, rfl⟩

/-- A file that waits is moved. -/
theorem ends_commit_of_staged (hverdict : t.verdict s = .ok (.staged source target))
    (hdata : s.get? source = some data)
    (h : (commitBatch [⟨bucket, .pending t, retries⟩]).Ends (Replies Mishap.none) s report s') :
    report = { committed := 1 } ∧ Moved s source target data s' := by
  obtain ⟨result, hfinish, rfl⟩ := ends_commit_of_verdict hverdict h
  simp only [finishFound, Task.ends_bind] at hfinish
  obtain ⟨moved, s₁, hcommit, hfinish⟩ := hfinish
  rcases PendingFile.ends_commitRecovered hdata hcommit with
    ⟨hmoved, rfl | ⟨-, hm⟩⟩ | ⟨-, ⟨-, hm⟩ | ⟨-, hm⟩⟩
  · obtain ⟨rfl, rfl⟩ := Task.ends_done.mp hfinish
    exact ⟨rfl, hmoved⟩
  · exact hm.elim
  · exact hm.elim
  · exact hm.elim

/-- A commit succeeds if the file is found. -/
theorem ends_commit_isSuccess_iff
    (h : (commitBatch [⟨bucket, .pending t, retries⟩]).Ends (Replies Mishap.none) s report s') :
    report.isSuccess = true ↔ ∃ file, t.verdict s = .ok file := by
  cases hverdict : t.verdict s with
  | error e =>
    obtain ⟨rfl, -⟩ := ends_commit_of_error hverdict h
    simp [CommitReport.isSuccess]
  | ok file =>
    suffices hreport : report = { committed := 1 } by
      subst hreport
      exact ⟨fun _ ↦ ⟨file, rfl⟩, fun _ ↦ rfl⟩
    cases file with
    | published target => exact (ends_commit_of_published hverdict h).1
    | staged source target =>
      obtain ⟨data, hdata⟩ := exists_of_verdict_staged hverdict
      exact (ends_commit_of_staged hverdict hdata h).1

/-- What a commit of a pending token on its own comes to, from a first store. -/
structure CommittedAlone (t : PendingToken) (c : Committable) (s : MemoryStore)
    (outcome : Task.Outcome MemoryStore CommitReport) : Prop where
  /-- It succeeds if both strings are paths and the file waits with the size of the token, or stands
  at its target with that size while nothing waits. -/
  isSuccess_iff : outcome.value.isSuccess = true ↔ ∃ source target,
    ObjectPath.parse? t.staging = .ok source ∧ ObjectPath.parse? t.target = .ok target ∧
      ((∃ data, s.get? source = some data ∧ data.size = t.size) ∨
        s.get? source = none ∧ ∃ data, s.get? target = some data ∧ data.size = t.size)
  /-- A file that waits is at its target afterwards, and nowhere else. -/
  of_staged {source target : ObjectPath} {data : ByteArray} :
    ObjectPath.parse? t.staging = .ok source → ObjectPath.parse? t.target = .ok target →
    s.get? source = some data → data.size = t.size →
      outcome.value = { committed := 1 } ∧ outcome.state.get? target = some data ∧
        outcome.state.get? source = none ∧
        ∀ p, p ≠ source → p ≠ target → outcome.state.get? p = s.get? p
  /-- A file that was published before stays where it is. -/
  of_published {source target : ObjectPath} {data : ByteArray} :
    ObjectPath.parse? t.staging = .ok source → ObjectPath.parse? t.target = .ok target →
    s.get? source = none → s.get? target = some data → data.size = t.size →
      outcome.value = { committed := 1 } ∧ outcome.state = s
  /-- A failure changes nothing. -/
  of_failure : outcome.value.isSuccess = false → outcome.state = s
  /-- A staging place that is no path is reported first. -/
  of_bad_staging {fault : PathFault} : ObjectPath.parse? t.staging = .error fault →
    outcome.value = { failed := [⟨c, .recovery
      (.inspect t.staging (.invalidPath t.staging fault))⟩] }
  of_bad_target {source : ObjectPath} {fault : PathFault} :
    ObjectPath.parse? t.staging = .ok source → ObjectPath.parse? t.target = .error fault →
      outcome.value = { failed := [⟨c, .recovery
        (.inspect t.target (.invalidPath t.target fault))⟩] }
  /-- A file of another size is reported, whatever stands at the target. -/
  of_mismatch {source target : ObjectPath} {data : ByteArray} :
    ObjectPath.parse? t.staging = .ok source → ObjectPath.parse? t.target = .ok target →
    s.get? source = some data → data.size ≠ t.size →
      outcome.value = { failed := [⟨c, .recovery
        (.lengthMismatch t.staging t.size data.size)⟩] }
  /-- Where nothing waits, only a file of the size of the token at the target will do. -/
  of_missing {source target : ObjectPath} :
    ObjectPath.parse? t.staging = .ok source → ObjectPath.parse? t.target = .ok target →
    s.get? source = none → (∀ data, s.get? target = some data → data.size ≠ t.size) →
      outcome.value = { failed := [⟨c, .recovery (.missing t.staging)⟩] }

/-- A commit of one pending token is decided by what its strings are read as and by what stands at
the two places. It changes the store in one case only. -/
theorem commit_alone (bucket : String) (t : PendingToken) (retries : UInt32) (s : MemoryStore)
    (hne : ∀ p, ObjectPath.parse? t.staging = .ok p → ObjectPath.parse? t.target ≠ .ok p) :
    t.CommittedAlone ⟨bucket, .pending t, retries⟩ s
      ((commitBatch [⟨bucket, .pending t, retries⟩]).run MemoryStore.answer s) := by
  have hends := (commitBatch [⟨bucket, .pending t, retries⟩]).ends_answer s
  constructor
  case isSuccess_iff =>
    rw [ends_commit_isSuccess_iff hends]
    constructor
    · rintro ⟨file, hfile⟩
      obtain ⟨source, target, hsource, htarget⟩ := parse_of_verdict hfile
      have hplaces := places_ok hsource htarget
      exact ⟨source, target, hsource, htarget, (verdict_isOk_iff hplaces).mp ⟨file, hfile⟩⟩
    · rintro ⟨source, target, hsource, htarget, hfinishable⟩
      exact (verdict_isOk_iff (places_ok hsource htarget)).mpr hfinishable
  case of_staged =>
    intro source target data hsource htarget hdata hsize
    have hverdict := (verdict_of_source (places_ok hsource htarget) hdata).trans (if_pos hsize)
    obtain ⟨hvalue, hmoved⟩ := ends_commit_of_staged hverdict hdata hends
    have htarget_ne : target ≠ source := by
      rintro rfl
      exact hne _ hsource htarget
    refine ⟨hvalue, ?_, ?_, ?_⟩
    · rw [hmoved target, if_neg htarget_ne, if_pos rfl]
    · rw [hmoved source, if_pos rfl]
    · intro p hp hp'
      rw [hmoved p, if_neg hp, if_neg hp']
  case of_published =>
    intro source target data hsource htarget hnone hdata hsize
    have hverdict := (verdict_of_target (places_ok hsource htarget) hnone hdata).trans
      (if_pos hsize)
    exact ends_commit_of_published hverdict hends
  case of_failure =>
    intro hfailure
    cases hverdict : t.verdict s with
    | error e => exact (ends_commit_of_error hverdict hends).2
    | ok file =>
      rw [(ends_commit_isSuccess_iff hends).mpr ⟨file, hverdict⟩] at hfailure
      cases hfailure
  case of_bad_staging =>
    intro fault hfault
    exact (ends_commit_of_error (verdict_of_error (places_of_staging hfault)) hends).1
  case of_bad_target =>
    intro source fault hsource hfault
    exact (ends_commit_of_error (verdict_of_error (places_of_target hsource hfault)) hends).1
  case of_mismatch =>
    intro source target data hsource htarget hdata hsize
    have hverdict := (verdict_of_source (places_ok hsource htarget) hdata).trans (if_neg hsize)
    exact (ends_commit_of_error hverdict hends).1
  case of_missing =>
    intro source target hsource htarget hnone hsizes
    have hplaces := places_ok hsource htarget
    cases hdata : s.get? target with
    | none => exact (ends_commit_of_error (verdict_of_nothing hplaces hnone hdata) hends).1
    | some data =>
      have hverdict := (verdict_of_target hplaces hnone hdata).trans (if_neg (hsizes data hdata))
      exact (ends_commit_of_error hverdict hends).1

/-- A file waits with the size of its token, and it is published over what stood at its target. -/
theorem commit_alone_over_another :
    let t : PendingToken := ⟨"s/a", "t/a", 1, 1⟩
    let s : MemoryStore := ⟨[(.ofText "s/a", "x".toUTF8), (.ofText "t/a", "old".toUTF8)]⟩
    let outcome := (commitBatch [⟨"a", .pending t, 0⟩]).run MemoryStore.answer s
    (∀ p, ObjectPath.parse? t.staging = .ok p → ObjectPath.parse? t.target ≠ .ok p) ∧
      t.CommittedAlone ⟨"a", .pending t, 0⟩ s outcome ∧ outcome.value = { committed := 1 } ∧
      outcome.state.get? (.ofText "t/a") = some "x".toUTF8 := by
  intro t s outcome
  have hne : ∀ p, ObjectPath.parse? t.staging = .ok p → ObjectPath.parse? t.target ≠ .ok p := by
    intro p hp hp'
    have hdiffer : ObjectPath.parse? t.staging ≠ ObjectPath.parse? t.target := by decide +kernel
    exact hdiffer (hp.trans hp'.symm)
  have h := commit_alone "a" t 0 s hne
  have hsource : ObjectPath.parse? t.staging = .ok (.ofText "s/a") := by decide +kernel
  have htarget : ObjectPath.parse? t.target = .ok (.ofText "t/a") := by decide +kernel
  have hdata : s.get? (.ofText "s/a") = some "x".toUTF8 := by decide +kernel
  obtain ⟨hvalue, hpublished, -⟩ := h.of_staged hsource htarget hdata (by decide +kernel)
  exact ⟨hne, h, hvalue, hpublished⟩

end PendingToken

end TableSink
