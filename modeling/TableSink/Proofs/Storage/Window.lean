import Mathlib.Algebra.Order.BigOperators.Group.Finset
import Mathlib.Data.Fintype.Card
import Mathlib.Data.List.FinRange
import TableSink.Proofs.Storage.Footprint

/-!
# A few tasks at a time

Many tasks are worked off with a bound on how many of them are in hand. They are begun in order; the
ones in hand go on in any order, one request at a time; and a task that is done gives up its room
when its result is collected, so results come in any order. A `Window` is such work half done.

Where every task keeps to paths of its own, neither the bound nor the order matters: no schedule
goes on forever (`Window.exists_not_step`), none gets stuck (`Window.Reaches.exists_step`), so that
every one can be brought to its end (`Window.Reaches.exists_complete`), and in the end there are the
results and the changes that each task has alone (`Window.Reaches.results`,
`Window.Reaches.combines`).
-/

namespace TableSink

variable {n : Nat} {α : Type}

/-- Tasks of which some have been begun and some are done with. -/
structure Window (n : Nat) (α : Type) where
  /-- What is left of each task. -/
  pool : Pool (Fin n) fun _ ↦ α
  /-- How many tasks were begun. -/
  begun : Nat := 0
  /-- The results that were collected, in the order in which they came. -/
  results : List (Fin n × α) := []

namespace Window

variable {limit : Nat} {s : MemoryStore} {tasks : Fin n → Task α} {w w' : Window n α}
variable {own : Fin n → ObjectPath → Prop}

/-- The tasks before any of them is begun. -/
def start (tasks : Fin n → Task α) (s : MemoryStore) : Window n α := { pool := ⟨s, tasks⟩ }

/-- A task is being worked on. -/
def InHand (w : Window n α) (i : Fin n) : Prop := i < w.begun ∧ i ∉ w.results.map Prod.fst

/-- Every result is there. -/
def Complete (w : Window n α) : Prop := w.results.length = n

/-- What may happen next, with room for some tasks. -/
inductive Step (limit : Nat) : Window n α → Window n α → Prop
  /-- The next task is begun. -/
  | begin {w : Window n α} (hmore : w.begun < n) (hroom : w.begun < w.results.length + limit) :
    Step limit w { w with begun := w.begun + 1 }
  /-- A task makes its next request, or reports. -/
  | work {w : Window n α} {i : Fin n} {p : Pool (Fin n) fun _ ↦ α} (hi : w.InHand i)
    (h : Pool.Turn i w.pool p) : Step limit w { w with pool := p }
  /-- The result of a task that is done is collected. -/
  | collect {w : Window n α} {i : Fin n} {a : α} (hi : w.InHand i) (h : w.pool.tasks i = .done a) :
    Step limit w { w with results := w.results ++ [(i, a)] }

/-- What may happen sooner or later. -/
abbrev Reaches (limit : Nat) : Window n α → Window n α → Prop :=
  Relation.ReflTransGen (Step limit)

/-! ## Every schedule -/

/-- What holds in the middle of the work. -/
structure Valid (own : Fin n → ObjectPath → Prop) (tasks : Fin n → Task α) (s : MemoryStore)
    (w : Window n α) : Prop where
  alone : Pool.Alone own ⟨s, tasks⟩ w.pool
  begun : w.begun ≤ n
  nodup : (w.results.map Prod.fst).Nodup
  done : ∀ i a, (i, a) ∈ w.results → w.pool.tasks i = .done a

theorem valid_start (hwithin : ∀ i, (tasks i).Within (own i)) :
    (start tasks s).Valid own tasks s where
  alone := .refl hwithin
  begun := Nat.zero_le n
  nodup := List.nodup_nil
  done := by simp [start]

/-- How much is left to do at most. -/
def left (w : Window n α) : Nat :=
  (n - w.begun) + (n - w.results.length) +
    ∑ i, (w.pool.tasks i).steps MemoryStore.answer w.pool.store

theorem Valid.length_le (h : w.Valid own tasks s) : w.results.length ≤ n := by
  simpa using h.nodup.length_le_card

/-- Every step keeps the invariant and brings the end closer. -/
theorem Valid.step (hown : Pool.Separate own) (h : w.Valid own tasks s) (hstep : Step limit w w') :
    w'.Valid own tasks s ∧ w'.left < w.left := by
  cases hstep with
  | begin hmore hroom =>
    refine ⟨⟨h.alone, hmore, h.nodup, h.done⟩, ?_⟩
    simp only [left]
    omega
  | @work i p hi hturn =>
    obtain ⟨halone, hsteps, hothers⟩ := h.alone.turn hown hturn
    refine ⟨⟨halone, h.begun, h.nodup, fun j a hj ↦ ?_⟩, ?_⟩
    · have hne : j ≠ i := by
        rintro rfl
        exact hi.2 (List.mem_map_of_mem hj)
      exact (hothers j hne).1.trans (h.done j a hj)
    · have hlt : ∑ j, (p.tasks j).steps MemoryStore.answer p.store <
          ∑ j, (w.pool.tasks j).steps MemoryStore.answer w.pool.store := by
        refine Finset.sum_lt_sum (fun j _ ↦ ?_) ⟨i, Finset.mem_univ i, by omega⟩
        by_cases hj : j = i
        · subst hj
          omega
        · exact (hothers j hj).2.le
      simp only [left]
      omega
  | @collect i a hi hdone =>
    have hvalid : Valid own tasks s { w with results := w.results ++ [(i, a)] } := by
      refine ⟨h.alone, h.begun, ?_, fun j b hj ↦ ?_⟩
      · rw [List.map_append, List.map_singleton, ← List.concat_eq_append]
        exact List.Nodup.concat hi.2 h.nodup
      · rcases List.mem_append.mp hj with hj | hj
        · exact h.done j b hj
        · obtain ⟨rfl, rfl⟩ := Prod.mk.inj (List.mem_singleton.mp hj)
          exact hdone
    refine ⟨hvalid, ?_⟩
    have hlength := hvalid.length_le
    simp only [List.length_append, List.length_singleton] at hlength
    simp only [left, List.length_append, List.length_singleton]
    omega

theorem Reaches.valid (hown : Pool.Separate own) (hwithin : ∀ i, (tasks i).Within (own i))
    (h : Reaches limit (start tasks s) w) : w.Valid own tasks s := by
  induction h with
  | refl => exact valid_start hwithin
  | tail _ hstep ih => exact (ih.step hown hstep).1

/-- No schedule goes on forever. -/
theorem exists_not_step (hown : Pool.Separate own) (hwithin : ∀ i, (tasks i).Within (own i))
    (schedule : Nat → Window n α) (hstart : schedule 0 = start tasks s) :
    ∃ k, ¬ Step limit (schedule k) (schedule (k + 1)) := by
  by_contra! hsteps
  have hbound : ∀ k, (schedule k).Valid own tasks s ∧
      (schedule k).left + k ≤ (schedule 0).left := by
    intro k
    induction k with
    | zero => exact ⟨hstart ▸ valid_start hwithin, le_rfl⟩
    | succ k ih =>
      obtain ⟨hvalid, hlt⟩ := ih.1.step hown (hsteps k)
      exact ⟨hvalid, by omega⟩
  have hend := (hbound ((schedule 0).left + 1)).2
  omega

/-- If nothing is in hand, all that was begun is done with. -/
theorem begun_le_of_not_inHand (hbegun : w.begun ≤ n) (h : ∀ i, ¬ w.InHand i) :
    w.begun ≤ w.results.length := by
  have hsub : List.range w.begun ⊆ w.results.map fun r ↦ r.1.val := by
    intro k hk
    have hk := List.mem_range.mp hk
    have hi := not_and_not_right.mp (h ⟨k, hk.trans_le hbegun⟩) hk
    obtain ⟨r, hr, hri⟩ := List.mem_map.mp hi
    exact List.mem_map.mpr ⟨r, hr, congrArg Fin.val hri⟩
  simpa using (List.nodup_range.subperm hsub).length_le

/-- No schedule gets stuck. -/
theorem Reaches.exists_step (hown : Pool.Separate own) (hwithin : ∀ i, (tasks i).Within (own i))
    (hlimit : 0 < limit) (h : Reaches limit (start tasks s) w) (hw : ¬ w.Complete) :
    ∃ w', Step limit w w' := by
  have hvalid := h.valid hown hwithin
  have hlength : w.results.length < n := lt_of_le_of_ne hvalid.length_le hw
  by_cases hhand : ∃ i, w.InHand i
  · obtain ⟨i, hi⟩ := hhand
    cases hnext : (w.pool.tasks i).next? MemoryStore.answer w.pool.store with
    | none =>
      obtain ⟨a, ha⟩ := Task.next?_eq_none.mp hnext
      exact ⟨_, .collect hi ha⟩
    | some next => exact ⟨_, .work hi ⟨next.1, next.2, hnext, rfl⟩⟩
  · have hbegun := begun_le_of_not_inHand hvalid.begun (not_exists.mp hhand)
    exact ⟨_, .begin (by omega) (by omega)⟩

/-- From every point on, the work can be brought to its end. -/
theorem Reaches.exists_complete (hown : Pool.Separate own)
    (hwithin : ∀ i, (tasks i).Within (own i)) (hlimit : 0 < limit)
    (h : Reaches limit (start tasks s) w) :
    ∃ w', Reaches limit (start tasks s) w' ∧ w'.Complete := by
  induction hleft : w.left using Nat.strong_induction_on generalizing w with
  | _ left ih =>
    by_cases hw : w.Complete
    · exact ⟨w, h, hw⟩
    · obtain ⟨w', hstep⟩ := h.exists_step hown hwithin hlimit hw
      have hlt := ((h.valid hown hwithin).step hown hstep).2
      exact ih w'.left (hleft ▸ hlt) (h.tail hstep) rfl

/-- In the end there are the results that each task has alone. -/
theorem Reaches.results (hown : Pool.Separate own) (hwithin : ∀ i, (tasks i).Within (own i))
    (h : Reaches limit (start tasks s) w) (hw : w.Complete) :
    w.results.Perm
      ((List.finRange n).map fun i ↦ (i, ((tasks i).run MemoryStore.answer s).value)) := by
  have hvalid := h.valid hown hwithin
  have hall : (w.results.map Prod.fst).Perm (List.finRange n) := by
    refine (hvalid.nodup.subperm fun i _ ↦ List.mem_finRange i).perm_of_length_le ?_
    rw [List.length_finRange, List.length_map, hw]
  have hvalue : w.results =
      (w.results.map Prod.fst).map fun i ↦ (i, ((tasks i).run MemoryStore.answer s).value) := by
    rw [List.map_map]
    refine (List.map_id'' (fun r ↦ rfl) _).symm.trans (List.map_congr_left fun r hr ↦ ?_)
    exact Prod.ext rfl (hvalid.alone.of_done (hvalid.done r.1 r.2 hr))
  rw [hvalue]
  exact hall.map _

/-- In the end the store has the changes that each task makes alone. -/
theorem Reaches.combines (hown : Pool.Separate own) (hwithin : ∀ i, (tasks i).Within (own i))
    (h : Reaches limit (start tasks s) w) (hw : w.Complete) :
    s.Combines (fun i ↦ ((tasks i).run MemoryStore.answer s).state) w.pool.store := by
  have hvalid := h.valid hown hwithin
  refine hvalid.alone.combines hwithin fun i ↦ ?_
  have hi : (i, ((tasks i).run MemoryStore.answer s).value) ∈ w.results :=
    (h.results hown hwithin hw).mem_iff.mpr (List.mem_map.mpr ⟨i, List.mem_finRange i, rfl⟩)
  exact ⟨_, hvalid.done i _ hi⟩

end Window

end TableSink
