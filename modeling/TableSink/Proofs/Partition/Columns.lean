import Mathlib.Data.List.Basic
import TableSink.Partition.Computer

/-!
# How a record is split

A record is looked at twice: its columns name the partition (`JsonPartitioner.partition`), and the
other members are written (`JsonPartitioner.project`). The columns are taken in the order of the
list, and a column that comes again finds its place taken already, by the value that it has anyway;
so the partition has every column once, where it came first. The first column that has no name ends
this. What is written has the other members as they were (`partition_and_project`).
-/

namespace TableSink

/-- The value can stand in the name of a directory. -/
def Json.IsScalar : Json → Prop
  | .array _ | .object _ => False
  | .null | .boolean _ | .number _ | .string _ => True

instance : DecidablePred Json.IsScalar
  | .array _ | .object _ => .isFalse id
  | .null | .boolean _ | .number _ | .string _ => .isTrue trivial

/-- Whether all columns hold scalars can be seen column by column. -/
theorem forall_isScalar_iff {columns : List String} {members : List (String × Json)} :
    (∀ column ∈ columns, ∀ value, members.lookup column = some value → value.IsScalar) ↔
      ∀ column ∈ columns, ∀ value ∈ (members.lookup column).toList, value.IsScalar := by
  simp only [Option.mem_toList]

/-- In a list, everything has a property, or there is a first element that has not. -/
theorem forall_or_exists_first {α : Type} (p : α → Prop) [DecidablePred p] (as : List α) :
    (∀ a ∈ as, p a) ∨
      ∃ before a after, as = before ++ a :: after ∧ (∀ b ∈ before, p b) ∧ ¬ p a := by
  cases hfind : as.find? fun a ↦ ¬ p a with
  | none => exact .inl fun a ha ↦ by simpa using List.find?_eq_none.mp hfind a ha
  | some a =>
    obtain ⟨ha, before, after, rfl, hbefore⟩ := List.find?_eq_some_iff_append.mp hfind
    exact .inr ⟨before, a, after, rfl, fun b hb ↦ by simpa using hbefore b hb, by simpa using ha⟩

namespace JsonPartitioner

/-- The record has no partition, and this is why. -/
inductive Refuses (p : JsonPartitioner) : Json → ComputationError → Prop
  | notAnObject {record : Json} (h : ∀ members, record ≠ .object members) :
    Refuses p record (.notAnObject record.kind)
  /-- The first column that does not hold a scalar. -/
  | unsupported {members : List (String × Json)} {before after : List String} {column : String}
    {value : Json} (hcolumns : p.columns = before ++ column :: after)
    (hbefore : ∀ c ∈ before, ∀ v, members.lookup c = some v → v.IsScalar)
    (hvalue : members.lookup column = some value) (h : ¬ value.IsScalar) :
    Refuses p (.object members) (.unsupportedValue column value.kind)

variable {p : JsonPartitioner} {members : List (String × Json)}

theorem columnValue_ok {column : String}
    (h : ∀ value, members.lookup column = some value → value.IsScalar) :
    ∃ name, p.columnValue column (members.lookup column) = .ok name := by
  cases hvalue : members.lookup column with
  | none => exact ⟨_, rfl⟩
  | some value =>
    cases value with
    | array _ => exact (h _ hvalue).elim
    | object _ => exact (h _ hvalue).elim
    | null => exact ⟨_, rfl⟩
    | boolean _ => exact ⟨_, rfl⟩
    | number _ => exact ⟨_, rfl⟩
    | string _ => exact ⟨_, rfl⟩

theorem columnValue_error {column : String} {value : Json} (h : ¬ value.IsScalar) :
    p.columnValue column (some value) = .error (.unsupportedValue column value.kind) := by
  cases value with
  | array _ => rfl
  | object _ => rfl
  | null => exact absurd trivial h
  | boolean _ => exact absurd trivial h
  | number _ => exact absurd trivial h
  | string _ => exact absurd trivial h

/-- What one column adds to a partition. -/
def assign (p : JsonPartitioner) (members : List (String × Json)) (spec : PartitionSpec)
    (column : String) : Except ComputationError PartitionSpec :=
  (p.columnValue column (members.lookup column)).map fun value ↦ spec.set column value

theorem partition_object : p.partition (.object members) = p.columns.foldlM (p.assign members) [] :=
  rfl

/-- What the columns that come first make of a partition, and whether the others go on. -/
theorem foldlM_columns (spec : PartitionSpec) (before after : List String)
    (h : ∀ c ∈ before, ∀ v, members.lookup c = some v → v.IsScalar) :
    ∃ spec', (before ++ after).foldlM (p.assign members) spec =
      after.foldlM (p.assign members) spec' := by
  induction before generalizing spec with
  | nil => exact ⟨spec, rfl⟩
  | cons column before ih =>
    obtain ⟨name, hname⟩ := p.columnValue_ok (h column List.mem_cons_self)
    obtain ⟨spec', hspec'⟩ := ih (spec.set column name) fun c hc ↦ h c (List.mem_cons_of_mem _ hc)
    refine ⟨spec', ?_⟩
    rw [List.cons_append, List.foldlM_cons, assign, hname]
    exact hspec'

theorem partition_of_scalars
    (h : ∀ column ∈ p.columns, ∀ value, members.lookup column = some value → value.IsScalar) :
    ∃ spec, p.partition (.object members) = .ok spec := by
  obtain ⟨spec, hspec⟩ := p.foldlM_columns [] p.columns [] h
  rw [List.append_nil] at hspec
  exact ⟨spec, hspec⟩

theorem Refuses.partition {record : Json} {e : ComputationError} (h : p.Refuses record e) :
    p.partition record = .error e := by
  cases h with
  | notAnObject h =>
    cases record with
    | object members => exact absurd rfl (h members)
    | _ => rfl
  | @unsupported members before after column value hcolumns hbefore hvalue h =>
    obtain ⟨spec, hspec⟩ := p.foldlM_columns [] before (column :: after) hbefore
    rw [← hcolumns, List.foldlM_cons, assign, hvalue, columnValue_error h] at hspec
    exact hspec

/-- A record has names in all columns, or there is an error that says why not. -/
theorem scalars_or_refuses (p : JsonPartitioner) (record : Json) :
    (∃ members, record = .object members ∧
      ∀ column ∈ p.columns, ∀ value, members.lookup column = some value → value.IsScalar) ∨
    ∃ e, p.Refuses record e := by
  cases record with
  | object members =>
    rcases forall_or_exists_first
      (fun column ↦ ∀ value ∈ (members.lookup column).toList, value.IsScalar) p.columns with
      hall | ⟨before, column, after, hcolumns, hbefore, hcolumn⟩
    · exact .inl ⟨members, rfl, forall_isScalar_iff.mpr hall⟩
    · simp only [Option.mem_toList, not_forall] at hcolumn
      obtain ⟨value, hvalue, hscalar⟩ := hcolumn
      exact .inr ⟨_, .unsupported hcolumns (forall_isScalar_iff.mpr hbefore) hvalue hscalar⟩
  | null => exact .inr ⟨_, .notAnObject (by simp)⟩
  | boolean _ => exact .inr ⟨_, .notAnObject (by simp)⟩
  | number _ => exact .inr ⟨_, .notAnObject (by simp)⟩
  | string _ => exact .inr ⟨_, .notAnObject (by simp)⟩
  | array _ => exact .inr ⟨_, .notAnObject (by simp)⟩

end JsonPartitioner

namespace PartitionSpec

/-- The columns of a specification, outermost directory first. -/
def columns (spec : PartitionSpec) : List String := spec.map Prod.fst

variable {spec : PartitionSpec} {column value : String}

/-- A column that is there keeps its place, and one that is not is put last. -/
theorem columns_set : (set column value spec).columns =
    if column ∈ spec.columns then spec.columns else spec.columns ++ [column] := by
  induction spec with
  | nil => rfl
  | cons entry rest ih =>
    have hmem : column ∈ columns (entry :: rest) ↔ entry.1 = column ∨ column ∈ columns rest := by
      simp [columns, eq_comm]
    by_cases hentry : entry.1 = column
    · rw [set, if_pos hentry, if_pos (hmem.mpr (.inl hentry))]
      simp [columns, hentry]
    · have hset : (set column value (entry :: rest)).columns =
          entry.1 :: (set column value rest).columns := by
        rw [set, if_neg hentry]
        rfl
      rw [hset, ih]
      simp only [hmem, hentry, false_or]
      split_ifs <;> rfl

/-- An assignment adds nothing but itself. -/
theorem mem_set {entry : String × String} (h : entry ∈ set column value spec) :
    entry = (column, value) ∨ entry ∈ spec := by
  induction spec with
  | nil => exact .inl (List.mem_singleton.mp h)
  | cons first rest ih =>
    rw [set] at h
    split_ifs at h with hfirst
    · exact (List.mem_cons.mp h).imp_right (List.mem_cons_of_mem _)
    · rcases List.mem_cons.mp h with rfl | hrest
      · exact .inr List.mem_cons_self
      · exact (ih hrest).imp_right (List.mem_cons_of_mem _)

/-- A specification is known by its columns, if every column says what its value is. -/
theorem ext_of_columns {spec spec' : PartitionSpec} (names : String → String → Prop)
    (hnames : ∀ column value value', names column value → names column value' → value = value')
    (hcolumns : spec.columns = spec'.columns) (h : ∀ entry ∈ spec, names entry.1 entry.2)
    (h' : ∀ entry ∈ spec', names entry.1 entry.2) : spec = spec' := by
  induction spec generalizing spec' with
  | nil => exact (List.map_eq_nil_iff.mp hcolumns.symm).symm
  | cons entry rest ih =>
    cases spec' with
    | nil => cases hcolumns
    | cons entry' rest' =>
      obtain ⟨hfirst, hrest⟩ := List.cons.inj hcolumns
      have hvalue : entry.2 = entry'.2 :=
        hnames _ _ _ (h _ List.mem_cons_self) (hfirst ▸ h' _ List.mem_cons_self)
      rw [Prod.ext hfirst hvalue, ih hrest (fun e he ↦ h e (List.mem_cons_of_mem _ he))
        fun e he ↦ h' e (List.mem_cons_of_mem _ he)]

end PartitionSpec

namespace JsonPartitioner

/-- What a directory is called after a member of a record. -/
inductive Names (p : JsonPartitioner) : Option Json → String → Prop
  | missing : Names p none p.defaultName
  | null : Names p (some .null) p.defaultName
  | empty : Names p (some (.string "")) p.defaultName
  | string {s : String} (h : s ≠ "") : Names p (some (.string s)) s
  | number {n : Json.Number} : Names p (some (.number n)) (Json.number n).text
  | boolean {b : Bool} : Names p (some (.boolean b)) (Json.boolean b).text

variable {p : JsonPartitioner} {members : List (String × Json)} {spec spec' : PartitionSpec}
variable {column name : String}

/-! ## The name of a column -/

theorem columnValue_eq_ok_iff (column : String) {value : Option Json} :
    p.columnValue column value = .ok name ↔ p.Names value name := by
  constructor
  · intro h
    match value, h with
    | none, h => exact Except.ok.inj h ▸ .missing
    | some .null, h => exact Except.ok.inj h ▸ .null
    | some (.boolean b), h =>
      obtain rfl := Except.ok.inj h
      cases b <;> exact .boolean
    | some (.number n), h => exact Except.ok.inj h ▸ .number
    | some (.string s), h =>
      obtain rfl := Except.ok.inj h
      split_ifs with hs
      · exact hs ▸ .empty
      · exact .string hs
    | some (.array _), h => cases h
    | some (.object _), h => cases h
  · intro h
    cases h with
    | missing => rfl
    | null => rfl
    | empty => rfl
    | string hs => exact congrArg Except.ok (if_neg hs)
    | number => rfl
    | @boolean b => cases b <;> rfl

theorem Names.unique {value : Option Json} {name name' : String} (h : p.Names value name)
    (h' : p.Names value name') : name = name' :=
  Except.ok.inj ((columnValue_eq_ok_iff "").mpr h ▸ (columnValue_eq_ok_iff "").mpr h')

/-! ## The columns, one after the other -/

/-- The first column has a name, and the others go on behind it. -/
theorem foldlM_cons_eq_ok_iff {columns : List String} :
    (column :: columns).foldlM (p.assign members) spec = .ok spec' ↔
      ∃ name, p.Names (members.lookup column) name ∧
        columns.foldlM (p.assign members) (spec.set column name) = .ok spec' := by
  simp only [← columnValue_eq_ok_iff column]
  rw [List.foldlM_cons, assign]
  cases hname : p.columnValue column (members.lookup column) with
  | error e =>
    constructor
    · intro h
      cases h
    · rintro ⟨_, h, -⟩
      cases h
  | ok name =>
    constructor
    · intro h
      exact ⟨name, rfl, h⟩
    · rintro ⟨_, h, hrest⟩
      cases h
      exact hrest

/-- The columns that are not there yet are put behind those that are, each once. -/
theorem columns_of_foldlM {columns : List String}
    (h : columns.foldlM (p.assign members) spec = .ok spec') :
    spec'.columns = spec.columns ++ (columns.filter (· ∉ spec.columns)).eraseDups := by
  induction columns generalizing spec with
  | nil =>
    obtain rfl := Except.ok.inj h
    simp
  | cons column columns ih =>
    obtain ⟨name, -, hrest⟩ := foldlM_cons_eq_ok_iff.mp h
    rw [ih hrest, PartitionSpec.columns_set]
    split_ifs with hmem
    · simp [hmem]
    · -- Behind its first place a column is left out, be it now or by `eraseDups`.
      have hlater : columns.filter (· ∉ spec.columns ++ [column]) =
          (columns.filter (· ∉ spec.columns)).filter fun c ↦ !c == column := by
        rw [List.filter_filter]
        refine List.filter_congr fun c _ ↦ ?_
        by_cases hc : c = column <;> simp [hc]
      rw [hlater, List.filter_cons_of_pos (by simpa using hmem), List.eraseDups_cons,
        List.append_assoc, List.singleton_append]

/-- Every column has the name that its member gives it. -/
theorem names_of_foldlM {columns : List String}
    (h : columns.foldlM (p.assign members) spec = .ok spec')
    (hspec : ∀ entry ∈ spec, p.Names (members.lookup entry.1) entry.2) :
    ∀ entry ∈ spec', p.Names (members.lookup entry.1) entry.2 := by
  induction columns generalizing spec with
  | nil =>
    obtain rfl := Except.ok.inj h
    exact hspec
  | cons column columns ih =>
    obtain ⟨name, hname, hrest⟩ := foldlM_cons_eq_ok_iff.mp h
    refine ih hrest fun entry hentry ↦ ?_
    obtain rfl | hbefore := PartitionSpec.mem_set hentry
    · exact hname
    · exact hspec entry hbefore

/-! ## When there is a partition -/

theorem partition_eq_error_iff {record : Json} {e : ComputationError} :
    p.partition record = .error e ↔ p.Refuses record e := by
  constructor
  · intro h
    obtain ⟨members, rfl, hscalar⟩ | ⟨e', he'⟩ := p.scalars_or_refuses record
    · obtain ⟨spec, hspec⟩ := partition_of_scalars hscalar
      rw [hspec] at h
      cases h
    · rw [he'.partition] at h
      obtain rfl := Except.error.inj h
      exact he'
  · exact Refuses.partition

theorem exists_partition_iff {record : Json} :
    (∃ spec, p.partition record = .ok spec) ↔ ∃ members, record = .object members ∧
      ∀ column ∈ p.columns, ∀ value, members.lookup column = some value → value.IsScalar := by
  constructor
  · rintro ⟨spec, hspec⟩
    refine (p.scalars_or_refuses record).resolve_right ?_
    rintro ⟨e, he⟩
    rw [he.partition] at hspec
    cases hspec
  · rintro ⟨members, rfl, h⟩
    exact partition_of_scalars h

/-- A member with a name holds a scalar. -/
theorem Names.isScalar {value : Json} (h : p.Names (some value) name) : value.IsScalar := by
  cases h <;> trivial

/-- What a partition is: its columns, and what they are called. -/
theorem partition_eq_ok_iff {record : Json} : p.partition record = .ok spec ↔
    ∃ members, record = .object members ∧ spec.columns = p.columns.eraseDups ∧
      ∀ entry ∈ spec, p.Names (members.lookup entry.1) entry.2 := by
  have hforward : ∀ {members spec}, p.partition (.object members) = .ok spec →
      spec.columns = p.columns.eraseDups ∧
        ∀ entry ∈ spec, p.Names (members.lookup entry.1) entry.2 := by
    intro members spec h
    rw [partition_object] at h
    refine ⟨?_, names_of_foldlM h (by simp)⟩
    have hcolumns := columns_of_foldlM h
    simpa [PartitionSpec.columns] using hcolumns
  constructor
  · intro h
    obtain ⟨members, rfl, -⟩ := exists_partition_iff.mp ⟨spec, h⟩
    exact ⟨members, rfl, hforward h⟩
  · rintro ⟨members, rfl, hcolumns, hnames⟩
    -- Every column has an entry, so there is a partition; it can be no other.
    obtain ⟨spec', hspec'⟩ : ∃ spec', p.partition (.object members) = .ok spec' := by
      refine partition_of_scalars ?_
      intro column hcolumn value hvalue
      have hmem : column ∈ spec.columns := hcolumns ▸ List.mem_eraseDups.mpr hcolumn
      obtain ⟨entry, hentry, rfl⟩ := List.mem_map.mp hmem
      exact (hvalue ▸ hnames entry hentry).isScalar
    obtain ⟨hcolumns', hnames'⟩ := hforward hspec'
    rw [hspec', PartitionSpec.ext_of_columns (fun column ↦ p.Names (members.lookup column))
      (fun _ _ _ ↦ Names.unique) (hcolumns'.trans hcolumns.symm) hnames' hnames]

/-! ## What is written -/

/-- Leaving members out by name. -/
theorem lookup_filter (q : String → Bool) (name : String) :
    (members.filter fun m ↦ q m.1).lookup name = if q name then members.lookup name else none := by
  induction members with
  | nil => simp
  | cons m members ih =>
    obtain ⟨first, value⟩ := m
    by_cases hname : name = first
    · subst hname
      by_cases hq : q name
      · simp [hq]
      · rw [List.filter_cons_of_neg (by simpa using hq), ih, if_neg hq, if_neg hq]
    · have hbeq : (name == first) = false := beq_false_of_ne hname
      by_cases hq : q first
      · rw [List.filter_cons_of_pos (by simpa using hq), List.lookup_cons, List.lookup_cons, hbeq]
        exact ih
      · rw [List.filter_cons_of_neg (by simpa using hq), ih, List.lookup_cons, hbeq]

/-- How a record is split. There is a partition just if the record is an object in which no column
holds an array or an object, and otherwise an error names the first such column. The partition has
every column once, in the order in which they first come, each with the name that its member gives
it. A record with a partition has a rest that is written: the members that are no columns, as they
were; and the order of the columns does not matter to it. -/
theorem partition_and_project (p : JsonPartitioner) (record : Json) :
    ((∃ spec, p.partition record = .ok spec) ↔ ∃ members, record = .object members ∧
      ∀ column ∈ p.columns, ∀ value, members.lookup column = some value → value.IsScalar) ∧
    (∀ e, p.partition record = .error e ↔ p.Refuses record e) ∧
    (∀ spec, p.partition record = .ok spec ↔ ∃ members, record = .object members ∧
      spec.columns = p.columns.eraseDups ∧
        ∀ entry ∈ spec, p.Names (members.lookup entry.1) entry.2) ∧
    (∀ spec, p.partition record = .ok spec → ∃ members rest, record = .object members ∧
      p.project record = .ok (.object rest) ∧ rest.Sublist members ∧
        rest.map Prod.fst = (members.map Prod.fst).filter (· ∉ p.columns) ∧
          ∀ name, rest.lookup name = if name ∈ p.columns then none else members.lookup name) ∧
    ∀ q : JsonPartitioner, (∀ column, column ∈ q.columns ↔ column ∈ p.columns) →
      q.project record = p.project record := by
  refine ⟨exists_partition_iff, fun _ ↦ partition_eq_error_iff, fun _ ↦ partition_eq_ok_iff,
    fun spec hspec ↦ ?_, fun q hcolumns ↦ ?_⟩
  · obtain ⟨members, rfl, -⟩ := exists_partition_iff.mp ⟨spec, hspec⟩
    refine ⟨members, _, rfl, rfl, List.filter_sublist, ?_, fun name ↦ ?_⟩
    · rw [List.filter_map]
      congr 1
      refine List.filter_congr fun m _ ↦ ?_
      simp
    · rw [lookup_filter (q := fun name ↦ !p.columns.contains name)]
      by_cases hname : name ∈ p.columns <;> simp [hname]
  · cases record with
    | object members =>
      have hfilter : ∀ m ∈ members, (!q.columns.contains m.1) = !p.columns.contains m.1 := by
        intro m _
        simp [hcolumns]
      rw [project, project, List.filter_congr hfilter]
    | _ => rfl

/-- A column that comes twice, one that is null, and an array that is no column. -/
theorem partition_and_project_repeated :
    let p : JsonPartitioner := { columns := ["b", "a", "b"] }
    let record : Json := .object [("a", .null), ("b", .number (.integer 3)), ("c", .array [])]
    p.partition record = .ok [("b", "3"), ("a", "__DEFAULT_PARTITION__")] ∧
      (∃ members rest, record = .object members ∧ p.project record = .ok (.object rest) ∧
        rest.Sublist members ∧
          rest.map Prod.fst = (members.map Prod.fst).filter (· ∉ p.columns) ∧
            ∀ name, rest.lookup name = if name ∈ p.columns then none else members.lookup name) ∧
      JsonPartitioner.project { columns := ["a", "b"] } record = p.project record := by
  intro p record
  have hspec : p.partition record = .ok [("b", "3"), ("a", "__DEFAULT_PARTITION__")] := rfl
  obtain ⟨-, -, -, hproject, horder⟩ := partition_and_project p record
  exact ⟨hspec, hproject _ hspec, horder _ fun column ↦ by simp [p, or_comm, or_left_comm]⟩

end JsonPartitioner

end TableSink
