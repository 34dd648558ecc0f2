import TableSink.Commit.Batch
import TableSink.File.Open
import TableSink.Proofs.Path.Slot
import TableSink.Proofs.Storage.Mishap

/-!
# Stores that cannot be relied on

The widest view of a store: only its word that something was done counts. Any request may be
reported to have failed, for whatever reason, also because an object was missing that is there; and
what failed may have happened all the same, a rename even by half.

Little can be said of what becomes of a file then, but it can be said which paths a step may touch
and with what: a file is put at its staging place, a pending token moves what waits there to the
target, and an in-progress token does nothing but empty the staging place.
-/

namespace TableSink

namespace MemoryStore

variable {s s' : MemoryStore}

/-- What a store may reply if nothing but success can be relied on. -/
inductive Fickle : Replying MemoryStore
  | regular (r : Request) (s : MemoryStore) : Fickle r s (answer r s).1 (answer r s).2
  /-- The request is reported to have failed, and has. -/
  | failed {r : Request} {s : MemoryStore} (fault : StoreFault) : Fickle r s (.error fault) s
  /-- The request is reported to have failed, and has not. -/
  | unheard {r : Request} {s : MemoryStore} (fault : StoreFault) :
    Fickle r s (.error fault) (answer r s).2
  /-- A rename got as far as the copy. -/
  | copied {source target : ObjectPath} {s : MemoryStore} {data : ByteArray} (fault : StoreFault)
    (h : s.get? source = some data) :
    Fickle (.rename source target) s (.error fault) (s.insert target data)

/-- Mishaps are some of the things that may go wrong. -/
theorem Replies.fickle {mishaps : Mishap → Prop} {r : Request} {reply : r.Reply}
    (h : Replies mishaps r s reply s') : Fickle r s reply s' := by
  cases h with
  | regular => exact .regular _ _
  | refused _ _ => exact .failed _
  | unheard _ _ => exact .unheard _
  | halfway _ _ hdata => exact .copied _ hdata

/-- Looking at an object changes nothing. -/
theorem Fickle.head {path : ObjectPath} {reply : (Request.head path).Reply}
    (h : Fickle (.head path) s reply s') : s' = s := by
  have hanswer : (answer (.head path) s).2 = s := by
    simp only [answer]
    cases s.get? path <;> rfl
  cases h with
  | regular => exact hanswer
  | failed => rfl
  | unheard => exact hanswer

/-- Listing changes nothing. -/
theorem Fickle.list {dir : ObjectPath} {reply : (Request.list dir).Reply}
    (h : Fickle (.list dir) s reply s') : s' = s := by
  cases h with
  | regular => rfl
  | failed => rfl
  | unheard => rfl

/-- An object that was put is there, and one that could not be put may be. -/
theorem Fickle.put {path : ObjectPath} {data : ByteArray} {reply : (Request.put path data).Reply}
    (h : Fickle (.put path data) s reply s') : (reply = .ok () → s'.get? path = some data) ∧
      ∀ q, s'.get? q = s.get? q ∨ q = path ∧ s'.get? q = some data := by
  have hanswer : ∀ q, (s.insert path data).get? q = s.get? q ∨
      q = path ∧ (s.insert path data).get? q = some data := by
    intro q
    rw [get?_insert]
    split
    · next hq => exact .inr ⟨hq, rfl⟩
    · exact .inl rfl
  cases h with
  | regular => exact ⟨fun _ ↦ (s.get?_insert path path data).trans (if_pos rfl), hanswer⟩
  | failed => exact ⟨(fun hok ↦ nomatch hok), fun _ ↦ .inl rfl⟩
  | unheard => exact ⟨(fun hok ↦ nomatch hok), hanswer⟩

/-- A removal empties a path, or does nothing. -/
theorem Fickle.delete {path : ObjectPath} {reply : (Request.delete path).Reply}
    (h : Fickle (.delete path) s reply s') (q : ObjectPath) :
    s'.get? q = s.get? q ∨ q = path ∧ s'.get? q = none := by
  have hanswer : (s.erase path).get? q = s.get? q ∨ q = path ∧ (s.erase path).get? q = none := by
    rw [get?_erase]
    split
    · next hq => exact .inr ⟨hq, rfl⟩
    · exact .inl rfl
  cases h with
  | regular => exact hanswer
  | failed => exact .inl rfl
  | unheard => exact hanswer

/-- The first path is emptied at most, and the second one gets what was there. -/
theorem Fickle.rename {source target : ObjectPath} {reply : (Request.rename source target).Reply}
    (h : Fickle (.rename source target) s reply s') (q : ObjectPath) : s'.get? q = s.get? q ∨
      q = source ∧ s'.get? q = none ∨
      q = target ∧ ∃ data, s.get? source = some data ∧ s'.get? q = some data := by
  have hanswer : (answer (.rename source target) s).2.get? q = s.get? q ∨
      q = source ∧ (answer (.rename source target) s).2.get? q = none ∨
      q = target ∧ ∃ data, s.get? source = some data ∧
        (answer (.rename source target) s).2.get? q = some data := by
    cases hsource : s.get? source with
    | none => exact .inl (by simp [answer, hsource])
    | some data =>
      simp only [answer, hsource, get?_erase, get?_insert]
      by_cases hq : q = source
      · exact .inr (.inl ⟨hq, if_pos hq⟩)
      · by_cases hq' : q = target
        · exact .inr (.inr ⟨hq', data, rfl, by rw [if_neg hq, if_pos hq']⟩)
        · exact .inl (by rw [if_neg hq, if_neg hq'])
  cases h with
  | regular => exact hanswer
  | failed => exact .inl rfl
  | unheard => exact hanswer
  | copied fault hdata =>
    rw [get?_insert]
    split
    · next hq => exact .inr (.inr ⟨hq, _, hdata, rfl⟩)
    · exact .inl rfl

end MemoryStore

open MemoryStore (Fickle)

variable {s s' : MemoryStore} {source target path : ObjectPath}

/-- A question whose reply is only read. -/
theorem Task.objectExists_fickle {result : Except StorageError Bool}
    (h : (objectExists path).Ends Fickle s result s') : s' = s := by
  obtain ⟨reply, s₁, hreply, h⟩ := ends_ask_bind.mp h
  obtain rfl := hreply.head
  cases reply with
  | ok _ => exact (ends_done.mp h).2
  | error fault => exact (ends_done.mp h).2

/-- A file that was closed is staged, and one that could not be closed may be. -/
theorem OpenFile.close_fickle {f : OpenFile} {kind : CloseKind}
    {result : Except WriteError Committable} (h : (f.close kind).Ends Fickle s result s') :
    (∀ c, result = .ok c → c = { bucket := f.slot.bucket, token := f.token kind } ∧
      s'.get? f.slot.staging = some f.buffer) ∧
    ∀ q, s'.get? q = s.get? q ∨ q = f.slot.staging ∧ s'.get? q = some f.buffer := by
  obtain ⟨reply, s₁, hreply, h₁⟩ := Task.ends_ask_bind.mp h
  clear h
  obtain ⟨hok, hs₁⟩ := hreply.put
  cases reply with
  | ok _ =>
    obtain ⟨rfl, rfl⟩ := Task.ends_report_done.mp h₁
    refine ⟨fun c hc ↦ ?_, hs₁⟩
    obtain rfl := Except.ok.inj hc
    exact ⟨rfl, hok rfl⟩
  | error fault =>
    obtain ⟨rfl, rfl⟩ := Task.ends_done.mp h₁
    exact ⟨fun _ hc ↦ (nomatch hc), hs₁⟩

/-- Looking for the file of a token changes nothing, and what is found has its places. -/
theorem PendingToken.recover_fickle {t : PendingToken} (ht : t.places = .ok (source, target))
    {result : Except RecoveryError PendingFile} (h : t.recover.Ends Fickle s result s') : s' = s ∧
      ∀ file, result = .ok file → file = .staged source target ∨ file = .published target := by
  simp only [recover, ht] at h
  obtain ⟨reply, s₁, hreply, h₁⟩ := Task.ends_ask_bind.mp h
  clear h
  obtain rfl := hreply.head
  cases reply with
  | ok actual =>
    obtain ⟨rfl, rfl⟩ := Task.ends_done.mp h₁
    refine ⟨rfl, fun file hfile ↦ ?_⟩
    split at hfile
    · exact .inl (Except.ok.inj hfile).symm
    · cases hfile
  | error fault =>
    simp only [Except.mapError] at h₁
    split at h₁
    · obtain ⟨reply, s₂, hreply, h₂⟩ := Task.ends_ask_bind.mp h₁
      obtain rfl := hreply.head
      cases reply with
      | ok actual =>
        obtain ⟨rfl, rfl⟩ := Task.ends_done.mp h₂
        refine ⟨rfl, fun file hfile ↦ ?_⟩
        split at hfile
        · exact .inr (Except.ok.inj hfile).symm
        · cases hfile
      | error fault =>
        obtain ⟨rfl, rfl⟩ := Task.ends_done.mp h₂
        exact ⟨rfl, fun _ hfile ↦ nomatch hfile⟩
    · obtain ⟨rfl, rfl⟩ := Task.ends_done.mp h₁
      exact ⟨rfl, fun _ hfile ↦ nomatch hfile⟩

/-- Publishing a file gives its target what waits. -/
theorem PendingFile.commitRecovered_fickle {result : Except CommitError Unit}
    (h : (staged source target).commitRecovered.Ends Fickle s result s') (q : ObjectPath) :
    s'.get? q = s.get? q ∨ q = source ∧ s'.get? q = none ∨
      q = target ∧ ∃ data, s.get? source = some data ∧ s'.get? q = some data := by
  obtain ⟨reply, s₁, hreply, h₁⟩ := Task.ends_ask_bind.mp h
  suffices hs : s' = s₁ from hs ▸ hreply.rename q
  cases reply with
  | ok _ =>
    obtain ⟨-, rfl⟩ := Task.ends_report_done.mp h₁
    rfl
  | error fault =>
    simp only [Except.mapError] at h₁
    split at h₁
    · simp only [Task.ends_bind] at h₁
      obtain ⟨found, s₂, hexists, h₂⟩ := h₁
      obtain rfl := Task.objectExists_fickle hexists
      rcases found with e | (_ | _)
      · exact (Task.ends_done.mp h₂).2
      · exact (Task.ends_done.mp h₂).2
      · obtain ⟨-, rfl⟩ := Task.ends_report_done.mp h₂
        rfl
    · exact (Task.ends_done.mp h₁).2

/-- A pending token gives the target what waits at the staging place. -/
theorem PendingToken.finish_fickle {t : PendingToken} (ht : t.places = .ok (source, target))
    {result : Except CommitFailure Finish}
    (h : (Token.pending t).finish.Ends Fickle s result s') (q : ObjectPath) :
    s'.get? q = s.get? q ∨ q = source ∧ s'.get? q = none ∨
      q = target ∧ ∃ data, s.get? source = some data ∧ s'.get? q = some data := by
  simp only [Token.finish, Task.ends_bind] at h
  obtain ⟨found, s₁, hrecover, h⟩ := h
  obtain ⟨rfl, hfile⟩ := recover_fickle ht hrecover
  cases found with
  | error e =>
    obtain ⟨-, rfl⟩ := Task.ends_report_done.mp h
    exact .inl rfl
  | ok file =>
    simp only [Task.ends_bind] at h
    obtain ⟨committed, s₂, hcommit, h⟩ := h
    have hs : s' = s₂ := by
      cases committed with
      | error e =>
        obtain ⟨-, rfl⟩ := Task.ends_report_done.mp h
        rfl
      | ok _ => exact (Task.ends_done.mp h).2
    subst hs
    rcases hfile file rfl with rfl | rfl
    · exact PendingFile.commitRecovered_fickle hcommit q
    · obtain ⟨-, rfl⟩ := Task.ends_done.mp hcommit
      exact .inl rfl

/-- An in-progress token empties the staging place at most. -/
theorem InProgressToken.finish_fickle {t : InProgressToken} (ht : readPath t.staging = .ok path)
    {result : Except CommitFailure Finish}
    (h : (Token.inProgress t).finish.Ends Fickle s result s') (q : ObjectPath) :
    s'.get? q = s.get? q ∨ q = path ∧ s'.get? q = none := by
  simp only [Token.finish, cleanup, ht, Task.ends_bind] at h
  obtain ⟨removed, s₁, ⟨found, s₂, hexists, hcleanup⟩, h⟩ := h
  obtain rfl := Task.objectExists_fickle hexists
  have hs : s' = s₁ := by
    cases removed with
    | error e =>
      obtain ⟨-, rfl⟩ := Task.ends_report_done.mp h
      rfl
    | ok _ => exact (Task.ends_done.mp h).2
  subst hs
  rcases found with e | (_ | _)
  · obtain ⟨-, rfl⟩ := Task.ends_done.mp hcleanup
    exact .inl rfl
  · obtain ⟨-, rfl⟩ := Task.ends_report_done.mp hcleanup
    exact .inl rfl
  · obtain ⟨reply, s₃, hreply, h₃⟩ := Task.ends_ask_bind.mp hcleanup
    suffices hs : s' = s₃ from hs ▸ hreply.delete q
    cases reply with
    | ok _ =>
      obtain ⟨-, rfl⟩ := Task.ends_report_done.mp h₃
      rfl
    | error fault =>
      simp only [Except.mapError] at h₃
      split at h₃
      · obtain ⟨-, rfl⟩ := Task.ends_report_done.mp h₃
        rfl
      · exact (Task.ends_done.mp h₃).2

end TableSink
