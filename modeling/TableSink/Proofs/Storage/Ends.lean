import TableSink.Storage.Task

/-!
# How a task may end

`Task.run` needs a store whose replies are certain. Where a store may reply in several ways, a task
may end in several ways, and `Task.Ends` relates it to every one of them. A task is taken apart from
outside to inside with `Task.ends_bind`, so what it may end with is read off piece by piece.
-/

namespace TableSink

/-- What a store may reply in a state, and the state that is left. -/
abbrev Replying (σ : Type) := (r : Request) → σ → r.Reply → σ → Prop

namespace Task

variable {σ α β : Type} (replies : Replying σ)

/-- From the first state the task may end with the value in the second state. -/
inductive Ends : Task α → σ → α → σ → Prop
  | done {a : α} {s : σ} : Ends (.done a) s a s
  | emit {e : Event} {t : Task α} {s s' : σ} {a : α} (h : Ends t s a s') : Ends (.emit e t) s a s'
  | call {r : Request} {next : r.Reply → Task α} {s s₁ s' : σ} {reply : r.Reply} {a : α}
    (hr : replies r s reply s₁) (h : Ends (next reply) s₁ a s') : Ends (.call r next) s a s'

variable {replies} {s s' : σ} {a : α}

@[simp] theorem ends_done {b : α} : (Task.done b).Ends replies s a s' ↔ a = b ∧ s' = s :=
  ⟨fun h ↦ by cases h; exact ⟨rfl, rfl⟩, fun ⟨ha, hs⟩ ↦ by subst ha hs; exact .done⟩

/-- Many tasks end with a pair, of which both halves are of interest. -/
theorem ends_done_pair {a b : α} {c d : β} :
    (Task.done (b, d)).Ends replies s (a, c) s' ↔ a = b ∧ c = d ∧ s' = s := by
  rw [ends_done, Prod.mk.injEq, and_assoc]

@[simp] theorem ends_emit {e : Event} {t : Task α} :
    (Task.emit e t).Ends replies s a s' ↔ t.Ends replies s a s' :=
  ⟨fun h ↦ by cases h; assumption, .emit⟩

theorem ends_call {r : Request} {next : r.Reply → Task α} :
    (Task.call r next).Ends replies s a s' ↔
      ∃ reply s₁, replies r s reply s₁ ∧ (next reply).Ends replies s₁ a s' :=
  ⟨fun h ↦ by cases h with | call hr h => exact ⟨_, _, hr, h⟩, fun ⟨_, _, hr, h⟩ ↦ .call hr h⟩

/-- Two tasks in a row end as the second one does from where the first one may end. -/
theorem ends_bind {t : Task α} {f : α → Task β} {b : β} :
    (t >>= f).Ends replies s b s' ↔
      ∃ a s₁, t.Ends replies s a s₁ ∧ (f a).Ends replies s₁ b s' := by
  induction t generalizing s with
  | done a =>
    simp only [done_bind, ends_done]
    exact ⟨fun h ↦ ⟨a, s, ⟨rfl, rfl⟩, h⟩, fun ⟨_, _, ⟨ha, hs⟩, h⟩ ↦ ha ▸ hs ▸ h⟩
  | emit e t ih => simp [ih]
  | call r next ih =>
    simp only [call_bind, ends_call, ih]
    constructor
    · rintro ⟨reply, s₁, hr, a, s₂, ht, hf⟩
      exact ⟨a, s₂, ⟨reply, s₁, hr, ht⟩, hf⟩
    · rintro ⟨a, s₂, ⟨reply, s₁, hr, ht⟩, hf⟩
      exact ⟨reply, s₁, hr, a, s₂, ht, hf⟩

/-- A task that is done on a part of something, of which the whole is wanted. -/
theorem ends_wrap {γ : Type} {t : Task (α × β)} (f : α → γ) {c : γ} {b : β} :
    (t >>= fun outcome ↦ Task.done (f outcome.1, outcome.2)).Ends replies s (c, b) s' ↔
      ∃ a, c = f a ∧ t.Ends replies s (a, b) s' := by
  rw [ends_bind]
  constructor
  · rintro ⟨⟨a, b'⟩, s₁, ht, h⟩
    obtain ⟨rfl, rfl, rfl⟩ := ends_done_pair.mp h
    exact ⟨a, rfl, ht⟩
  · rintro ⟨a, rfl, ht⟩
    exact ⟨(a, b), s', ht, .done⟩

@[simp] theorem ends_report {e : Event} {u : Unit} :
    (report e).Ends replies s u s' ↔ s' = s := by
  simp [report]

/-- A report before a task is done makes no difference. -/
theorem ends_report_done {e : Event} {b : α} :
    (report e >>= fun _ ↦ Task.done b).Ends replies s a s' ↔ a = b ∧ s' = s := by
  simp [report]

/-- A question ends with the reply to it. -/
theorem ends_ask {r : Request} {answer : Except StorageError r.Answer} :
    (ask r).Ends replies s answer s' ↔
      ∃ reply, replies r s reply s' ∧ answer = reply.mapError .request := by
  have hask : ask r = .call r fun reply ↦
      .emit (.request r.operation (r.succeeded reply)) (.done (reply.mapError .request)) := rfl
  simp only [hask, ends_call, ends_emit, ends_done]
  constructor
  · rintro ⟨reply, s₁, hr, ha, rfl⟩
    exact ⟨reply, hr, ha⟩
  · rintro ⟨reply, hr, ha⟩
    exact ⟨reply, s', hr, ha, rfl⟩

/-- A question in front of a task: any reply may come, and the task goes on with it. -/
theorem ends_ask_bind {r : Request} {f : Except StorageError r.Answer → Task α} :
    (ask r >>= f).Ends replies s a s' ↔
      ∃ reply s₁, replies r s reply s₁ ∧ (f (reply.mapError .request)).Ends replies s₁ a s' := by
  simp only [ends_bind, ends_ask]
  constructor
  · rintro ⟨_, s₁, ⟨reply, hr, rfl⟩, h⟩
    exact ⟨reply, s₁, hr, h⟩
  · rintro ⟨reply, s₁, hr, h⟩
    exact ⟨_, s₁, ⟨reply, hr, rfl⟩, h⟩

/-- A task may end in more ways where more replies are possible. -/
theorem Ends.mono {replies' : Replying σ}
    (hreplies : ∀ r s reply s', replies r s reply s' → replies' r s reply s') {t : Task α}
    (h : t.Ends replies s a s') : t.Ends replies' s a s' := by
  induction h with
  | done => exact .done
  | emit _ ih => exact .emit ih
  | call hr _ ih => exact .call (hreplies _ _ _ _ hr) ih

theorem ends_mapM_cons {f : α → Task β} {x : α} {xs : List α} {ys : List β} :
    ((x :: xs).mapM f).Ends replies s ys s' ↔ ∃ y s₁ rest, (f x).Ends replies s y s₁ ∧
      (xs.mapM f).Ends replies s₁ rest s' ∧ ys = y :: rest := by
  rw [List.mapM_cons]
  simp only [ends_bind]
  constructor
  · rintro ⟨y, s₁, hfirst, rest, s₂, hrest, h⟩
    obtain ⟨rfl, rfl⟩ := ends_done.mp h
    exact ⟨y, s₁, rest, hfirst, hrest, rfl⟩
  · rintro ⟨y, s₁, rest, hfirst, hrest, rfl⟩
    exact ⟨y, s₁, hfirst, rest, s', hrest, .done⟩

/-- One task for each element of a list: what each of them keeps, all of them keep, and each of the
values is what one of them ends with. -/
theorem ends_mapM {f : α → Task β} {inv : σ → Prop} {good : β → Prop} {xs : List α} {ys : List β}
    (hstep : ∀ x ∈ xs, ∀ s y s', inv s → (f x).Ends replies s y s' → inv s' ∧ good y)
    (hinv : inv s) (h : (xs.mapM f).Ends replies s ys s') : inv s' ∧ ∀ y ∈ ys, good y := by
  induction xs generalizing s ys with
  | nil =>
    obtain ⟨rfl, rfl⟩ := ends_done.mp h
    exact ⟨hinv, by simp⟩
  | cons x xs ih =>
    obtain ⟨y, s₁, rest, hfirst, hrest, rfl⟩ := ends_mapM_cons.mp h
    obtain ⟨hinv₁, hgood⟩ := hstep x List.mem_cons_self _ _ _ hinv hfirst
    obtain ⟨hinv₂, hrest⟩ := ih (fun x hx ↦ hstep x (List.mem_cons_of_mem _ hx)) hinv₁ hrest
    exact ⟨hinv₂, List.forall_mem_cons.mpr ⟨hgood, hrest⟩⟩

/-- One task for each element of a list: what each of them brings about, and none of them undoes, is
so for all of them in the end. -/
theorem ends_mapM_each (goal : α → σ → Prop) {f : α → Task β} {xs : List α} {ys : List β}
    (hstep : ∀ x ∈ xs, ∀ s y s', (f x).Ends replies s y s' → goal x s')
    (hkeep : ∀ x ∈ xs, ∀ s y s', (f x).Ends replies s y s' → ∀ x', goal x' s → goal x' s')
    (h : (xs.mapM f).Ends replies s ys s') : ∀ x ∈ xs, goal x s' := by
  induction xs generalizing s ys with
  | nil => simp
  | cons x xs ih =>
    obtain ⟨y, s₁, rest, hfirst, hrest, rfl⟩ := ends_mapM_cons.mp h
    refine List.forall_mem_cons.mpr ⟨?_, ih (fun x hx ↦ hstep x (List.mem_cons_of_mem _ hx))
      (fun x hx ↦ hkeep x (List.mem_cons_of_mem _ hx)) hrest⟩
    have hlater : ∀ x' ∈ xs, ∀ s y s', goal x s → (f x').Ends replies s y s' →
        goal x s' ∧ True :=
      fun x' hx' s y s' hgoal hx ↦
        ⟨hkeep x' (List.mem_cons_of_mem _ hx') s y s' hx x hgoal, trivial⟩
    exact (ends_mapM hlater (hstep x List.mem_cons_self _ _ _ hfirst) hrest).1

/-- Where replies are certain, a task ends as `Task.run` says. -/
theorem ends_run (answer : (r : Request) → σ → r.Reply × σ)
    (hanswer : ∀ r s, replies r s (answer r s).1 (answer r s).2) (t : Task α) (s : σ) :
    t.Ends replies s (t.run answer s).value (t.run answer s).state := by
  induction t generalizing s with
  | done a => exact .done
  | emit e t ih => exact .emit (ih s)
  | call r next ih => exact .call (hanswer r s) (ih _ _)

end Task

end TableSink
