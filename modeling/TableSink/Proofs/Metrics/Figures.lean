import Mathlib.Algebra.BigOperators.Group.List.Basic
import Mathlib.Algebra.GroupWithZero.Nat
import TableSink.Metrics.Totals

/-!
# Figures and what they count

A counter is the sum of what the events add to it (`Metrics.figure_eq_sum`), so the figures of two
rows of events add up. Every counter that says how a sink fares is one `Entry`, and an event weighs
in on one entry at most (`Metrics.figure_name`).
-/

namespace TableSink

/-- What is counted while a sink works. -/
inductive Entry where
  | records
  | opened
  | staged (kind : CloseKind)
  | committed (recovered : Bool)
  | discarded (found : Bool)
  | failed (stage : CommitStage)
deriving DecidableEq

/-- The figure that has an entry. -/
def Entry.name : Entry → String
  | .records => Metrics.series "snowdrift_records_written_total" []
  | .opened => Metrics.series "snowdrift_files_opened_total" []
  | .staged kind => Metrics.series "snowdrift_files_staged_total" [("kind", kind.label)]
  | .committed recovered => Metrics.series "snowdrift_files_committed_total"
    [("path", if recovered then "recovered" else "live")]
  | .discarded found => Metrics.series "snowdrift_files_discarded_total"
    [("outcome", if found then "deleted" else "absent")]
  | .failed stage => Metrics.series "snowdrift_commit_failures_total" [("stage", stage.label)]

/-- What an event adds to an entry. -/
def Event.weight : Event → Entry → Nat
  | .recordsWritten n, .records => n
  | .fileOpened, .opened => 1
  | .fileStaged _ kind, .staged kind' => if kind = kind' then 1 else 0
  | .fileCommitted recovered, .committed recovered' => if recovered = recovered' then 1 else 0
  | .fileDiscarded found, .discarded found' => if found = found' then 1 else 0
  | .commitFailed stage, .failed stage' => if stage = stage' then 1 else 0
  | _, _ => 0

namespace Metrics

/-- The value of a figure after some events. One that never changed is zero. -/
def figure (name : String) (events : List Event) : Nat := ((totals events).lookup name).getD 0

/-- What a change adds to a figure. -/
def added (name : String) : String × Change → Nat
  | (changed, .add n) => if changed = name then n else 0
  | (_, .set _) => 0

variable {name : String} {figures : List (String × Nat)}

theorem lookup_update (changed : String) (change : Change) :
    (update changed change figures).lookup name =
      if changed = name then some (Change.apply change ((figures.lookup name).getD 0))
      else figures.lookup name := by
  induction figures with
  | nil =>
    by_cases h : changed = name
    · simp [update, h]
    · simp [update, List.lookup_cons, beq_false_of_ne (Ne.symm h), h]
  | cons figure figures ih =>
    obtain ⟨first, value⟩ := figure
    rw [update]
    split_ifs with hfirst hname hname
    · obtain rfl : first = name := hfirst.trans hname
      simp [hname]
    · obtain rfl : first = changed := hfirst
      rw [List.lookup_cons, List.lookup_cons, beq_false_of_ne (Ne.symm hname)]
    · have hne : name ≠ first := fun h ↦ hfirst (h.symm.trans hname.symm)
      rw [List.lookup_cons, List.lookup_cons, beq_false_of_ne hne, ih, if_pos hname]
    · rw [List.lookup_cons, List.lookup_cons, ih, if_neg hname]

/-- A figure that no change sets is the sum of what is added to it. -/
theorem getD_lookup_foldl {cs : List (String × Change)} (h : ∀ n, (name, .set n) ∉ cs) :
    ((cs.foldl (fun figures c ↦ update c.1 c.2 figures) figures).lookup name).getD 0 =
      (figures.lookup name).getD 0 + (cs.map (added name)).sum := by
  induction cs generalizing figures with
  | nil => rfl
  | cons c cs ih =>
    obtain ⟨changed, change⟩ := c
    rw [List.foldl_cons, ih fun n hn ↦ h n (List.mem_cons_of_mem _ hn), lookup_update,
      List.map_cons, List.sum_cons]
    split_ifs with hname
    · subst hname
      cases change with
      | add n => simp [Metrics.Change.apply, added, Nat.add_assoc]
      | set n => exact absurd List.mem_cons_self (h n)
    · have hadded : added name (changed, change) = 0 := by
        cases change with
        | add n => exact if_neg hname
        | set n => rfl
      rw [hadded, Nat.zero_add]

/-- The name of a figure without its labels. -/
def base (name : String) : List Char := name.toList.takeWhile fun c ↦ c ≠ '\x7b'

theorem base_append (rest : String) (h : '\x7b' ∉ name.toList) :
    base (name ++ ("\x7b" ++ rest)) = name.toList := by
  have hall : ∀ c ∈ name.toList, decide (c ≠ '\x7b') = true :=
    fun c hc ↦ decide_eq_true fun heq ↦ h (heq ▸ hc)
  rw [base, String.toList_append, String.toList_append, List.takeWhile_append_of_pos hall]
  exact List.append_nil _

theorem base_series (labels : List (String × String)) (h : '\x7b' ∉ name.toList) :
    base (series name labels) = name.toList := by
  rw [series, String.append_assoc, String.append_assoc, base_append _ h]

theorem base_count (labels : List (String × String)) (h : '\x7b' ∉ name.toList) :
    base (count name labels) = name.toList := by
  rw [count, series, String.append_assoc, String.append_assoc, String.append_assoc, base_append _ h]

/-- Figures with different names are different, whatever their labels are. -/
theorem series_ne {name' : String} (hne : name ≠ name') (h : '\x7b' ∉ name.toList)
    (h' : '\x7b' ∉ name'.toList) (labels labels' : List (String × String)) :
    series name labels ≠ series name' labels' := by
  intro heq
  have hbase := congrArg base heq
  rw [base_series _ h, base_series _ h'] at hbase
  exact hne (String.toList_inj.mp hbase)

theorem count_ne {name' : String} (hne : name ≠ name') (h : '\x7b' ∉ name.toList)
    (h' : '\x7b' ∉ name'.toList) (labels labels' : List (String × String)) :
    count name labels ≠ series name' labels' := by
  intro heq
  have hbase := congrArg base heq
  rw [base_count _ h, base_series _ h'] at hbase
  exact hne (String.toList_inj.mp hbase)

/-- No event sets the figure of an entry, and what it adds is what it weighs. -/
theorem changes_name (e : Event) (x : Entry) :
    (∀ n, (x.name, .set n) ∉ changes e) ∧
      ((changes e).map (added x.name)).sum = e.weight x := by
  -- Where event and entry belong together, the labels decide; elsewhere the names differ.
  cases e <;> cases x <;>
    simp +decide [changes, added, Entry.name, Event.weight, series_ne, count_ne]
  case fileStaged.staged kind kind' => cases kind <;> cases kind' <;> decide +kernel
  case fileCommitted.committed recovered recovered' =>
    cases recovered <;> cases recovered' <;> decide +kernel
  case fileDiscarded.discarded found found' => cases found <;> cases found' <;> decide +kernel
  case commitFailed.failed stage stage' => cases stage <;> cases stage' <;> decide +kernel

/-- The figure of an entry is the weight of all events. -/
theorem figure_name (x : Entry) (events : List Event) :
    figure x.name events = (events.map fun e ↦ e.weight x).sum := by
  have hset : ∀ n, (x.name, .set n) ∉ events.flatMap changes := by
    intro n hn
    obtain ⟨e, -, he⟩ := List.mem_flatMap.mp hn
    exact (changes_name e x).1 n he
  have hsum : ((events.flatMap changes).map (added x.name)).sum =
      (events.map fun e ↦ e.weight x).sum := by
    clear hset
    induction events with
    | nil => rfl
    | cons e events ih =>
      rw [List.flatMap_cons, List.map_append, List.sum_append, List.map_cons, List.sum_cons,
        (changes_name e x).2, ih]
  rw [figure, totals, getD_lookup_foldl hset, hsum]
  exact Nat.zero_add _

end Metrics

end TableSink
