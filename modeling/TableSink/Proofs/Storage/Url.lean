import Mathlib.Data.List.Basic
import TableSink.Storage.Location

/-!
# URLs of tables

There are four forms of URL, tried one after the other (`Location.forms`). A form takes a text that
begins as it says and holds no line feed behind that; a text that is refused by one form may still
be taken by a later one. Reading a URL at once comes to the same (`Location.ofUrl?_eq_findSome?`),
since no form begins with a line feed: one that stands anywhere is behind every start.

So what a URL names is read off the forms, and a location that is named by any URL is named by its
own (`Location.url_grammar`).
-/

namespace TableSink

namespace Location

/-- A way to name a location. -/
structure Form where
  /-- What the URL begins with. -/
  start : String
  /-- What the rest of it names. -/
  names : List Char → Location

/-- The form for a store in memory. -/
def Form.ofMemory : Form := ⟨"memory://", fun name ↦ .memory (String.ofList name)⟩

/-- A form for a directory. A path that lacks its `/` gets one. -/
def Form.ofDirectory (start : String) : Form := ⟨start, fun path ↦ .directory (absolute path)⟩

/-- The forms of a URL, in the order in which they are tried. -/
def forms : List Form := .ofMemory :: ["file://", "file:", "/"].map .ofDirectory

/-- What a text names in a form. A line feed behind the start is refused. -/
def Form.read? (form : Form) (cs : List Char) : Option Location :=
  (dropStart? form.start.toList cs).bind fun rest ↦
    if '\n' ∈ rest then none else some (form.names rest)

variable {url start : String} {cs rest : List Char} {l : Location} {form : Form}

theorem dropStart?_eq_some_iff {start : List Char} :
    dropStart? start cs = some rest ↔ cs = start ++ rest := by
  induction start generalizing cs with
  | nil => simp [dropStart?]
  | cons s start ih =>
    cases cs with
    | nil => simp [dropStart?]
    | cons c cs =>
      by_cases hc : s = c
      · simp [dropStart?, hc, ih]
      · simp [dropStart?, hc, Ne.symm hc]

namespace Form

theorem read?_eq_some_iff : form.read? cs = some l ↔
    ∃ rest, cs = form.start.toList ++ rest ∧ '\n' ∉ rest ∧ form.names rest = l := by
  simp only [read?, Option.bind_eq_some_iff, dropStart?_eq_some_iff, Option.ite_none_left_eq_some,
    Option.some.injEq]

/-- No form begins with a line feed. -/
theorem notMem_start : ∀ form ∈ forms, '\n' ∉ form.start.toList := by
  decide +kernel

/-- A text with a line feed is refused, wherever that stands. -/
theorem read?_of_mem (hform : form ∈ forms) (h : '\n' ∈ cs) : form.read? cs = none := by
  rw [Option.eq_none_iff_forall_ne_some]
  intro l hread
  obtain ⟨rest, rfl, hrest, -⟩ := read?_eq_some_iff.mp hread
  rcases List.mem_append.mp h with hstart | hmem
  · exact notMem_start form hform hstart
  · exact hrest hmem

theorem read?_of_notMem (h : '\n' ∉ cs) :
    form.read? cs = (dropStart? form.start.toList cs).map form.names := by
  rw [read?]
  cases hrest : dropStart? form.start.toList cs with
  | none => rfl
  | some rest =>
    have hnot : '\n' ∉ rest := fun hmem ↦
      h (dropStart?_eq_some_iff.mp hrest ▸ List.mem_append_right _ hmem)
    rw [Option.bind_some, if_neg hnot, Option.map_some]

end Form

/-- A URL is read in the first form that takes it. -/
theorem ofUrl?_eq_findSome? (url : String) :
    ofUrl? url = forms.findSome? fun form ↦ form.read? url.toList := by
  by_cases hmem : '\n' ∈ url.toList
  · have hnone : forms.findSome? (fun form ↦ form.read? url.toList) = none :=
      List.findSome?_eq_none_iff.mpr fun form hform ↦ Form.read?_of_mem hform hmem
    rw [hnone, ofUrl?]
    exact if_pos hmem
  · simp only [forms, List.map_cons, List.map_nil, List.findSome?_cons, List.findSome?_nil,
      Form.read?_of_notMem hmem, Form.ofMemory, Form.ofDirectory, ofUrl?, if_neg hmem]
    cases dropStart? "memory://".toList url.toList with
    | some name => rfl
    | none =>
      cases dropStart? "file://".toList url.toList with
      | some path => rfl
      | none =>
        cases dropStart? "file:".toList url.toList with
        | some path => rfl
        | none => cases dropStart? "/".toList url.toList <;> rfl

theorem Form.mem_forms : form ∈ forms ↔
    form = .ofMemory ∨ ∃ start ∈ ["file://", "file:", "/"], form = .ofDirectory start := by
  rw [forms, List.mem_cons, List.mem_map]
  simp only [eq_comm]

/-- A location comes from one of the forms. -/
theorem exists_form_of_ofUrl? (h : ofUrl? url = some l) : ∃ form ∈ forms, ∃ rest,
    url = form.start ++ String.ofList rest ∧ '\n' ∉ rest ∧ form.names rest = l := by
  rw [ofUrl?_eq_findSome?] at h
  obtain ⟨form, hform, hread⟩ := List.exists_of_findSome?_eq_some h
  obtain ⟨rest, hurl, hrest, hnames⟩ := Form.read?_eq_some_iff.mp hread
  refine ⟨form, hform, rest, String.toList_inj.mp ?_, hrest, hnames⟩
  rw [hurl, String.toList_append, String.toList_ofList]

theorem notMem_of_ofUrl? (h : ofUrl? url = some l) : '\n' ∉ url.toList := by
  intro hmem
  rw [ofUrl?, if_pos hmem] at h
  cases h

/-- What one of the forms takes is the URL of some location. -/
theorem exists_ofUrl?_of_form {rest : String} (hform : form ∈ forms)
    (hurl : url = form.start ++ rest) (hmem : '\n' ∉ url.toList) : ∃ l, ofUrl? url = some l := by
  have hsplit : url.toList = form.start.toList ++ rest.toList := by rw [hurl, String.toList_append]
  have hrest : '\n' ∉ rest.toList := fun h ↦ hmem (hsplit ▸ List.mem_append_right _ h)
  have hread : form.read? url.toList = some (form.names rest.toList) :=
    Form.read?_eq_some_iff.mpr ⟨_, hsplit, hrest, rfl⟩
  rw [ofUrl?_eq_findSome?, ← Option.isSome_iff_exists, List.findSome?_isSome_iff]
  exact ⟨form, hform, hread ▸ rfl⟩

/-- The form for a store in memory is tried first. -/
theorem ofUrl?_memory (name : String) (h : '\n' ∉ name.toList) :
    ofUrl? ("memory://" ++ name) = some (.memory name) := by
  have hread : Form.ofMemory.read? ("memory://" ++ name).toList = some (.memory name) :=
    Form.read?_eq_some_iff.mpr ⟨name.toList, String.toList_append, h,
      congrArg Location.memory String.ofList_toList⟩
  rw [ofUrl?_eq_findSome?, forms, List.findSome?_cons, hread]

/-! ## Paths of directories -/

/-- A path that has its `/` is left alone. -/
theorem absolute_slash (rest : String) : absolute ("/" ++ rest).toList = "/" ++ rest := by
  have hhead : ("/" ++ rest).toList.head? = some '/' := by
    rw [String.toList_append]
    rfl
  rw [absolute, if_pos hhead, String.ofList_toList]

/-- A path begins with a `/` afterwards, and brings nothing else that was not there. -/
theorem exists_absolute (cs : List Char) :
    ∃ rest, absolute cs = "/" ++ rest ∧ rest.toList ⊆ cs := by
  by_cases hhead : cs.head? = some '/'
  · obtain ⟨tail, rfl⟩ := List.head?_eq_some_iff.mp hhead
    refine ⟨String.ofList tail, String.toList_inj.mp ?_, by simp⟩
    simp [absolute]
  · refine ⟨String.ofList cs, String.toList_inj.mp ?_, by simp⟩
    simp [absolute, hhead]

/-- Behind `file://` a path with a `/` in front is read as it is. -/
theorem ofUrl?_directory (rest : String) (h : '\n' ∉ rest.toList) :
    ofUrl? ("file://" ++ ("/" ++ rest)) = some (.directory ("/" ++ rest)) := by
  have hmemory : Form.ofMemory.read? ("file://" ++ ("/" ++ rest)).toList = none := by
    rw [Form.read?, String.toList_append]
    rfl
  have hslash : '\n' ∉ ("/" ++ rest).toList := by
    rw [String.toList_append]
    exact fun hmem ↦ (List.mem_append.mp hmem).elim (by decide +kernel) h
  have hread : (Form.ofDirectory "file://").read? ("file://" ++ ("/" ++ rest)).toList =
      some (.directory ("/" ++ rest)) :=
    Form.read?_eq_some_iff.mpr ⟨_, String.toList_append, hslash,
      congrArg Location.directory (absolute_slash rest)⟩
  rw [ofUrl?_eq_findSome?, forms, List.findSome?_cons, hmemory, List.map_cons, List.findSome?_cons,
    hread]

/-- What a form names is named by its own URL. -/
theorem ofUrl?_url_names (hform : form ∈ forms) (hrest : '\n' ∉ rest) :
    ofUrl? (form.names rest).url = some (form.names rest) := by
  rcases Form.mem_forms.mp hform with rfl | ⟨start, -, rfl⟩
  · exact ofUrl?_memory _ (by rwa [String.toList_ofList])
  · obtain ⟨path, hpath, hsubset⟩ := exists_absolute rest
    have hnames : (Form.ofDirectory start).names rest = .directory ("/" ++ path) :=
      congrArg Location.directory hpath
    rw [hnames]
    exact ofUrl?_directory path fun hmem ↦ hrest (hsubset hmem)

/-! ## The grammar -/

/-- The texts that have one of the forms begin in one of three ways, since `file:` also begins the
longer `file://`. -/
theorem exists_form_iff : (∃ form ∈ forms, ∃ rest, url = form.start ++ rest) ↔
    (∃ rest, url = "memory://" ++ rest) ∨ (∃ rest, url = "file:" ++ rest) ∨
      ∃ rest, url = "/" ++ rest := by
  constructor
  · rintro ⟨form, hform, rest, rfl⟩
    rcases Form.mem_forms.mp hform with rfl | ⟨start, hstart, rfl⟩
    · exact .inl ⟨rest, rfl⟩
    · simp only [List.mem_cons, List.not_mem_nil, or_false] at hstart
      rcases hstart with rfl | rfl | rfl
      · have hlonger : "file:" ++ "//" ++ rest = "file:" ++ ("//" ++ rest) := String.append_assoc
        exact .inr (.inl ⟨"//" ++ rest, hlonger⟩)
      · exact .inr (.inl ⟨rest, rfl⟩)
      · exact .inr (.inr ⟨rest, rfl⟩)
  · rintro (h | h | h)
    · exact ⟨.ofMemory, by simp [forms], h⟩
    · exact ⟨.ofDirectory "file:", by simp [forms], h⟩
    · exact ⟨.ofDirectory "/", by simp [forms], h⟩

/-- A URL names a location just if it has no line feed and begins with `memory://`, `file:` or `/`;
it is read in the first of the forms that takes it. What begins with `memory://` names the store in
memory of the name behind that, everything else a directory by a path that begins with `/`. And the
location of a URL is the location of its own URL. -/
theorem url_grammar (url : String) :
    ((∃ l, ofUrl? url = some l) ↔ '\n' ∉ url.toList ∧ ((∃ rest, url = "memory://" ++ rest) ∨
      (∃ rest, url = "file:" ++ rest) ∨ ∃ rest, url = "/" ++ rest)) ∧
    ofUrl? url = forms.findSome? (fun form ↦ form.read? url.toList) ∧
    ∀ l, ofUrl? url = some l →
      (∀ name, url = "memory://" ++ name → l = .memory name) ∧
      ((¬ ∃ name, url = "memory://" ++ name) → ∃ rest, l = .directory ("/" ++ rest)) ∧
      ofUrl? l.url = some l := by
  refine ⟨⟨fun ⟨l, hl⟩ ↦ ?_, fun ⟨hmem, hstart⟩ ↦ ?_⟩, ofUrl?_eq_findSome? url, fun l hl ↦ ?_⟩
  · obtain ⟨form, hform, rest, hurl, -⟩ := exists_form_of_ofUrl? hl
    exact ⟨notMem_of_ofUrl? hl, exists_form_iff.mp ⟨form, hform, _, hurl⟩⟩
  · obtain ⟨form, hform, rest, hurl⟩ := exists_form_iff.mpr hstart
    exact exists_ofUrl?_of_form hform hurl hmem
  · have hmem := notMem_of_ofUrl? hl
    obtain ⟨form, hform, rest, hurl, hrest, rfl⟩ := exists_form_of_ofUrl? hl
    refine ⟨?_, fun hother ↦ ?_, ofUrl?_url_names hform hrest⟩
    · rintro name rfl
      have hname : '\n' ∉ name.toList := fun h ↦ hmem (by simp [String.toList_append, h])
      exact Option.some.inj (hl.symm.trans (ofUrl?_memory name hname))
    · rcases Form.mem_forms.mp hform with rfl | ⟨start, -, rfl⟩
      · exact absurd ⟨_, hurl⟩ hother
      · obtain ⟨path, hpath, -⟩ := exists_absolute rest
        exact ⟨path, congrArg Location.directory hpath⟩

end Location

end TableSink
