import TableSink.Proofs.Ingest.Input
import TableSink.Proofs.Sink.Course
import TableSink.Proofs.Sink.Workers

/-!
# Records that are rejected

A record is rejected if it is no object, or if one of the columns that name its partition holds an
array or an object. Whether that is so can be told from the record and the configuration
(`Config.Rejects`), whatever state a sink is in, and a sink finds it out before it does anything
else: it comes back as it was, and nothing is asked of its store. No other error of a write is of
this kind.
-/

namespace TableSink

variable {σ : Type} {replies : Replying σ} {st st' : σ}

/-! ## Records -/

namespace Config

variable {config : Config} {record : Json} {run : String} {mishaps : Mishap → Prop}
variable {init : MemoryStore}

/-- A record is rejected if it is no object, or if, where there are partition columns to be looked
at, one of them holds an array or an object. -/
theorem exists_rejects_iff : (∃ e, config.Rejects record e) ↔
    (∀ members, record ≠ .object members) ∨ config.strategy ≠ .single ∧
      ∃ members column value, record = .object members ∧ column ∈ config.columns ∧
        members.lookup column = some value ∧ ¬ value.IsScalar := by
  constructor
  · rintro ⟨e, h | ⟨hmany, hcolumns, -, hvalue, hscalar⟩⟩
    · exact .inl h
    · refine .inr ⟨hmany, _, _, _, rfl, ?_, hvalue, hscalar⟩
      rw [hcolumns]
      exact List.mem_append_right _ List.mem_cons_self
  · rintro (h | ⟨hmany, members, column, value, rfl, hcolumn, hvalue, hscalar⟩)
    · exact ⟨_, .notAnObject h⟩
    · obtain ⟨_, hmembers, hall⟩ | ⟨e, hrefuses⟩ :=
        config.partitioner.scalars_or_refuses (.object members)
      · obtain rfl := Json.object.inj hmembers
        exact absurd (hall column hcolumn value hvalue) hscalar
      · cases hrefuses with
        | notAnObject h => exact absurd rfl (h members)
        | unsupported hcolumns hbefore hvalue h =>
          exact ⟨_, .unsupported hmany hcolumns hbefore hvalue h⟩

/-- A record that is not rejected has a place. -/
theorem rejects_or_place (config : Config) (record : Json) (run : String) (mishaps : Mishap → Prop)
    (init : MemoryStore) : (∃ e, config.Rejects record e) ∨ ∃ spec projected,
      (config.desk run mishaps init).layout.place (config.desk run mishaps init).fixed record =
        .ok (spec, projected) := by
  by_cases hfits : config.Fits record
  · exact .inr (hfits.exists_place run mishaps init)
  by_cases hobject : ∀ members, record ≠ .object members
  · exact .inl ⟨_, .notAnObject hobject⟩
  push Not at hobject
  obtain ⟨members, rfl⟩ := hobject
  by_cases hsingle : config.strategy = .single
  · rw [desk_fixed_of_single hsingle]
    exact .inr ⟨_, _, Layout.place_some.mpr ⟨rfl, rfl⟩⟩
  · refine .inl (exists_rejects_iff.mpr (.inr ⟨hsingle, members, ?_⟩))
    by_contra hnone
    refine hfits ⟨members, rfl, fun column hcolumn value hvalue ↦ ?_⟩
    by_contra hscalar
    exact hnone ⟨column, value, rfl, hcolumn, hvalue, hscalar⟩

/-- Just the records that are rejected have no place. -/
theorem place_eq_error_iff {e : ComputationError} :
    (config.desk run mishaps init).layout.place (config.desk run mishaps init).fixed record =
      .error e ↔ config.Rejects record e := by
  refine ⟨fun h ↦ ?_, Rejects.place⟩
  rcases config.rejects_or_place record run mishaps init with ⟨e', he'⟩ | ⟨spec, projected, hplace⟩
  · obtain rfl : e' = e := Except.error.inj (he'.place.symm.trans h)
    exact he'
  · cases hplace.symm.trans h

end Config

/-! ## Writers and sinks -/

/-- A record without a place is rejected before anything else is done. -/
theorem Writer.write_of_rejected {ρ : Type} {layout : Layout ρ} {record : ρ} {w : Writer}
    {e : ComputationError} (h : layout.place w.fixed record = .error e) :
    w.write layout record = .done (w, .error (.computation e)) := by
  cases w with
  | single spec files =>
    cases hproject : layout.computer.project record with
    | error e' =>
      obtain rfl : e' = e := Except.error.inj ((Layout.place_some_of_project hproject).symm.trans h)
      rw [write, OneFile.writeFixed_of_rejected hproject]
      rfl
    | ok projected => cases (Layout.place_some.mpr ⟨rfl, hproject⟩).symm.trans h
  | grouped files =>
    rw [write, OneFile.writeClustered_of_rejected h]
    rfl
  | dynamic files =>
    rw [write, ManyFiles.write_of_rejected h]
    rfl

namespace Sink

variable {s s' : Sink} {record : Json} {e : ComputationError}

/-- A record without a place is rejected before anything else is done. -/
theorem write_of_rejected (h : s.layout.place s.writer.fixed record = .error e) :
    s.write record = .done (.ok (s, .error (.write (.computation e)))) := by
  rw [write, Writer.write_of_rejected h]
  rfl

/-- Only a record without a place is rejected. The checkpoint after a record that was taken has
other errors. -/
theorem place_of_rejected
    (h : (s.write record).Ends replies st (.ok (s', .error (.write (.computation e)))) st') :
    s.layout.place s.writer.fixed record = .error e := by
  obtain ⟨w, written, st₁, hwrite, hphases⟩ := phases_write h
  rcases hphases with ⟨e', rfl, hresult, -, -⟩ | ⟨-, ⟨-, hcheckpoint⟩ | ⟨-, -, -, hresult⟩⟩
  · obtain rfl := SinkError.write.inj (Except.error.inj hresult)
    exact Writer.place_of_rejected hwrite
  · obtain ⟨w', closed, st₂, hclose, ⟨e', rfl, hresult, -⟩ |
      ⟨-, results, again, -, -, hresult, -⟩⟩ := phases_checkpoint hcheckpoint
    · obtain rfl := SinkError.write.inj (Except.error.inj hresult)
      obtain ⟨f, -, cause, he⟩ := Writer.stage_of_close hclose
      cases he
    · split at hresult
      · cases hresult
      · cases hresult
  · cases hresult

variable {config : Config} {run : String} {init store : MemoryStore} {j : Journal}

/-- In every state that a sink can reach, on whatever store: it rejects a record just if the record
is no object, or, unless all records go to one partition, if a partition column holds an array or an
object. Then nothing is asked of the store and nothing reported, and the sink is as it was; so
whatever it is asked to do later goes as if the record had never been there. -/
theorem Course.write_rejected {replies : Replying MemoryStore}
    (h : Course config run replies init s store j) (record : Json) :
    (∀ (replies' : Replying MemoryStore) (store' : MemoryStore) (e : ComputationError),
      (∃ s' store'', (s.write record).Ends replies' store'
        (.ok (s', .error (.write (.computation e)))) store'') ↔ config.Rejects record e) ∧
    ((∃ e, config.Rejects record e) ↔ (∀ members, record ≠ .object members) ∨
      config.strategy ≠ .single ∧ ∃ members column value, record = .object members ∧
        column ∈ config.columns ∧ members.lookup column = some value ∧ ¬ value.IsScalar) ∧
    ∀ e, config.Rejects record e →
      s.write record = .done (.ok (s, .error (.write (.computation e)))) ∧
      ∀ later : List Call, perform (.write record :: later) (.ok s) =
        perform later (.ok s) >>= fun endings ↦
          Task.done (.ok (s, .error (.write (.computation e))) :: endings) := by
  have hat := h.told.at_desk
  have hplace : ∀ e, s.layout.place s.writer.fixed record = .error e ↔ config.Rejects record e := by
    intro e
    rw [hat.layout, hat.writer.fixed, Config.place_eq_error_iff]
  refine ⟨fun replies' store' e ↦ ⟨?_, fun hrejects ↦ ?_⟩, Config.exists_rejects_iff,
    fun e hrejects ↦ ?_⟩
  · rintro ⟨s', store'', hwrite⟩
    exact (hplace e).mp (place_of_rejected hwrite)
  · rw [write_of_rejected ((hplace e).mpr hrejects)]
    exact ⟨s, store', .done⟩
  · have hwrite := write_of_rejected ((hplace e).mpr hrejects)
    have hcall : s.call (.write record) = .done (.ok (s, .error (.write (.computation e)))) :=
      hwrite
    refine ⟨hwrite, fun later ↦ ?_⟩
    rw [perform, hcall, Task.done_bind]
    rfl

/-- A sink with an open file, one that was closed when the partition changed, and one whose commit
has failed before. An array in the partition column makes no difference to any of them. -/
theorem Course.write_rejected_between_records :
    let config : Config := { table := "t", columns := ["p"], strategy := .grouped, batchSize := 3 }
    let third : Json := .object [("p", .array [])]
    ∃ s store j, Course config "r" (MemoryStore.Replies (· = .refusal)) .empty s store j ∧
      s.writer.opened.length = 1 ∧ s.writer.closed.length = 1 ∧ s.retries.length = 1 ∧
      s.inBatch = 2 ∧
      s.write third =
        .done (.ok (s, .error (.write (.computation (.unsupportedValue "p" "array"))))) ∧
      ∀ later : List Call, perform (.write third :: later) (.ok s) =
        perform later (.ok s) >>= fun endings ↦
          Task.done (.ok (s, .error (.write (.computation (.unsupportedValue "p" "array")))) ::
            endings) := by
  intro config third
  let a := config.allocator "r"
  let first : Json := .object [("p", .string "a")]
  let second : Json := .object [("p", .string "b")]
  let answer := MemoryStore.refusing fun r ↦ match r with
    | .rename source _ => source = (a.slot [("p", "a")] 0).staging
    | _ => false
  have hanswer : ∀ r s, MemoryStore.Replies (· = .refusal) r s (answer r s).1 (answer r s).2 :=
    MemoryStore.replies_refusing _
  have hstart : Course config "r" (MemoryStore.Replies (· = .refusal)) .empty (new config "r")
      .empty (.start a) := .start (Task.ends_run answer hanswer (Sink.start config "r") .empty)
  obtain ⟨s, store, j, hcourse, hs⟩ := hstart.exists_of_proceed answer hanswer
    [.write first, .checkpoint, .write first, .write second]
    (P := fun x ↦ x.1.writer.opened.length = 1 ∧ x.1.writer.closed.length = 1 ∧
      x.1.retries.length = 1 ∧ x.1.inBatch = 2) (by decide +kernel)
  have hmany : config.strategy ≠ .single := by decide
  have hcolumns : config.columns = [] ++ "p" :: [] := rfl
  have hvalue : List.lookup "p" [("p", Json.array [])] = some (.array []) := rfl
  have hrejects : config.Rejects third (.unsupportedValue "p" "array") :=
    .unsupported hmany hcolumns (by simp) hvalue id
  obtain ⟨hwrite, hlater⟩ := (Course.write_rejected hcourse third).2.2 _ hrejects
  exact ⟨s, store, j, hcourse, hs.1, hs.2.1, hs.2.2.1, hs.2.2.2, hwrite, hlater⟩

end Sink

end TableSink
