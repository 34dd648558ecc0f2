import Mathlib.Data.List.Forall2
import Mathlib.Data.List.TakeWhile
import TableSink.Config.Template

/-!
# The grammar of variables

What a text with variables means, said without the way in which it is read. `Template.Form` lists
the forms that a `$` may start, `Template.Reads` puts them together in one pass from left to right,
and `Template.StandsFor` and `Template.Faulty` say what becomes of a piece. Every text has one
reading, and `interpolate` gives what it says (`interpolate_reads`): all pieces together, or the
fault of every piece that has one.

What follows a form matters to one of them only: a name without braces is as long as it can be.
-/

namespace TableSink

namespace Template

/-! ## Forms -/

/-- A character that may begin a name: an ASCII letter or `_`. -/
def StartsName (c : Char) : Prop := 'A' ≤ c ∧ c ≤ 'Z' ∨ 'a' ≤ c ∧ c ≤ 'z' ∨ c = '_'

/-- A character that may stand in a name: also an ASCII digit. -/
def InName (c : Char) : Prop := StartsName c ∨ '0' ≤ c ∧ c ≤ '9'

instance : DecidablePred StartsName := fun _ ↦ inferInstanceAs (Decidable (_ ∨ _))

instance : DecidablePred InName := fun _ ↦ inferInstanceAs (Decidable (_ ∨ _))

/-- The name of a variable. -/
inductive IsName : List Char → Prop
  | cons {c : Char} {cs : List Char} (hc : StartsName c) (hcs : ∀ d ∈ cs, InName d) :
    IsName (c :: cs)

/-- No name goes on here. -/
def EndsName (rest : List Char) : Prop := ∀ c ∈ rest.head?, ¬ InName c

/-- What was taken of a text is a form, in front of the rest, and stands for a piece. -/
inductive Form : (taken rest : List Char) → Piece → Prop
  /-- `$$` -/
  | dollar {rest : List Char} : Form ['$', '$'] rest (.char '$')
  /-- `$` and a name in braces. -/
  | plain {n rest : List Char} (hn : IsName n) :
    Form ('$' :: '\x7b' :: (n ++ ['\x7d'])) rest (.reference ⟨String.ofList n, none⟩)
  /-- `$` and, in braces, a name, `:-` and a fallback. -/
  | unlessFilled {n d rest : List Char} (hn : IsName n) (hd : '\x7d' ∉ d) :
    Form ('$' :: '\x7b' :: (n ++ ':' :: '-' :: (d ++ ['\x7d']))) rest
      (.reference ⟨String.ofList n, some (.ifUnsetOrEmpty (String.ofList d))⟩)
  /-- `$` and, in braces, a name, `-` and a fallback. -/
  | unlessSet {n d rest : List Char} (hn : IsName n) (hd : '\x7d' ∉ d) :
    Form ('$' :: '\x7b' :: (n ++ '-' :: (d ++ ['\x7d']))) rest
      (.reference ⟨String.ofList n, some (.ifUnset (String.ofList d))⟩)
  /-- `$` and the longest name that follows. -/
  | bare {n rest : List Char} (hn : IsName n) (hrest : EndsName rest) :
    Form ('$' :: n) rest (.reference ⟨String.ofList n, none⟩)

/-- A text, read once from left to right: a form is one piece, and a character that starts no form
is a piece of its own. -/
inductive Reads : List Char → List Piece → Prop
  | nil : Reads [] []
  | form {taken rest : List Char} {p : Piece} {ps : List Piece} (h : Form taken rest p)
    (hrest : Reads rest ps) : Reads (taken ++ rest) (p :: ps)
  | copy {c : Char} {rest : List Char} {ps : List Piece}
    (h : ∀ taken after p, Form taken after p → c :: rest ≠ taken ++ after)
    (hrest : Reads rest ps) : Reads (c :: rest) (.char c :: ps)

/-! ## Values -/

/-- What a piece is replaced by, and where that comes from. -/
inductive Part where
  /-- A text that stands in the template. -/
  | copied (text : String)
  /-- The value of a variable. -/
  | value (name text : String)

/-- The text of a part. -/
def Part.text : Part → String
  | .copied text => text
  | .value _ text => text

/-- The text has no line feed and no carriage return. -/
def OneLine (text : String) : Prop := '\n' ∉ text.toList ∧ '\r' ∉ text.toList

variable (lookup : String → Option String)

/-- What a piece stands for, given the values of the variables. -/
inductive StandsFor : Piece → Part → Prop
  | char {c : Char} : StandsFor (.char c) (.copied c.toString)
  | value {r : Reference} {v : String} (hv : lookup r.name = some v) (hline : OneLine v)
    (hfilled : v = "" → ∀ d, r.fallback ≠ some (.ifUnsetOrEmpty d)) :
    StandsFor (.reference r) (.value r.name v)
  | empty {n d : String} (hv : lookup n = some "") :
    StandsFor (.reference ⟨n, some (.ifUnsetOrEmpty d)⟩) (.copied d)
  | unset {n d : String} {f : Fallback} (hv : lookup n = none)
    (hf : f = .ifUnset d ∨ f = .ifUnsetOrEmpty d) :
    StandsFor (.reference ⟨n, some f⟩) (.copied d)

/-- Why a piece stands for nothing. -/
inductive Faulty : Piece → VariableFault → Prop
  | unset {n : String} (hv : lookup n = none) : Faulty (.reference ⟨n, none⟩) (.unset n)
  | lineBreak {r : Reference} {v : String} (hv : lookup r.name = some v) (hline : ¬ OneLine v) :
    Faulty (.reference r) (.lineBreak r.name)

/-- The faults of pieces, one for each piece that has one, in order. -/
inductive Faults : List Piece → List VariableFault → Prop
  | nil : Faults [] []
  | sound {p : Piece} {part : Part} {ps : List Piece} {faults : List VariableFault}
    (h : StandsFor lookup p part) (hrest : Faults ps faults) : Faults (p :: ps) faults
  | faulty {p : Piece} {fault : VariableFault} {ps : List Piece} {faults : List VariableFault}
    (h : Faulty lookup p fault) (hrest : Faults ps faults) : Faults (p :: ps) (fault :: faults)

variable {lookup} {cs rest taken n : List Char} {p : Piece} {ps : List Piece} {k : Nat}

/-! ## Names -/

theorem isNameStart_iff {c : Char} : isNameStart c = true ↔ StartsName c := by
  have hletter : isNameStart c = (decide ('A' ≤ c ∧ c ≤ 'Z') ||
      (decide ('a' ≤ c) && decide (c ≤ 'z')) || c == '_') := rfl
  simp only [hletter, StartsName, Bool.or_eq_true, Bool.and_eq_true, decide_eq_true_eq, beq_iff_eq,
    or_assoc]

theorem isNameChar_iff {c : Char} : isNameChar c = true ↔ InName c := by
  have hstart : isNameChar c = true ↔ isNameStart c = true ∨ c.isDigit = true := by
    simp only [isNameChar, isNameStart, Char.isAlphanum, Bool.or_eq_true, or_assoc,
      or_comm (a := c.isDigit = true)]
  rw [hstart, isNameStart_iff, InName]
  simp only [Char.isDigit, Bool.and_eq_true, decide_eq_true_eq, Char.le_def]

theorem IsName.inName (hn : IsName n) : ∀ c ∈ n, InName c := by
  cases hn with
  | cons hc hcs => exact List.forall_mem_cons.mpr ⟨.inl hc, hcs⟩

theorem IsName.ne_nil (hn : IsName n) : n ≠ [] := by
  cases hn with
  | cons _ _ => exact List.cons_ne_nil _ _

/-- Where a name stands and does not go on, it is read. -/
theorem name_append (hn : IsName n) (hrest : EndsName rest) : name (n ++ rest) = n := by
  have hwhile : (n ++ rest).takeWhile isNameChar = n := by
    rw [List.takeWhile_append_of_pos fun c hc ↦ isNameChar_iff.mpr (hn.inName c hc)]
    cases rest with
    | nil => simp
    | cons c cs =>
      have hc : ¬ isNameChar c = true := isNameChar_iff.not.mpr (hrest c rfl)
      rw [List.takeWhile_cons_of_neg hc, List.append_nil]
  obtain ⟨hc, -⟩ := hn
  have hhead : isNameStart _ = true := isNameStart_iff.mpr hc
  simp only [name, List.cons_append, List.head?_cons, Option.any_some, hhead, if_true]
  exact hwhile

/-- What is read as a name is one, and does not go on. -/
theorem exists_name (h : name cs ≠ []) :
    ∃ n rest, cs = n ++ rest ∧ name cs = n ∧ IsName n ∧ EndsName rest := by
  cases cs with
  | nil => exact absurd rfl h
  | cons c cs =>
    by_cases hc : isNameStart c = true
    · have hchar : isNameChar c = true := isNameChar_iff.mpr (.inl (isNameStart_iff.mp hc))
      have hname : name (c :: cs) = c :: cs.takeWhile isNameChar := by
        simp [name, hc, hchar]
      refine ⟨_, cs.dropWhile isNameChar, ?_, hname, ⟨isNameStart_iff.mp hc, fun d hd ↦ ?_⟩, ?_⟩
      · rw [List.cons_append, List.takeWhile_append_dropWhile]
      · exact isNameChar_iff.mp (List.mem_takeWhile_imp hd)
      · intro d hd
        have hnot := List.head?_dropWhile_not isNameChar cs
        rw [Option.mem_def.mp hd] at hnot
        rw [← isNameChar_iff]
        simpa using hnot
    · exact absurd (by simp [name, hc]) h

/-! ## Forms as they are read -/

/-- A fallback goes up to the first closing brace. -/
theorem fallback?_append {d : List Char} (hd : '\x7d' ∉ d) :
    fallback? (d ++ '\x7d' :: rest) = some (String.ofList d, d.length) := by
  have hwhile : (d ++ '\x7d' :: rest).takeWhile (· != '\x7d') = d := by
    have hall : ∀ c ∈ d, (c != '\x7d') = true := fun c hc ↦
      bne_iff_ne.mpr (ne_of_mem_of_not_mem hc hd)
    rw [List.takeWhile_append_of_pos hall, List.takeWhile_cons_of_neg (by simp), List.append_nil]
  simp [fallback?, hwhile]

theorem exists_fallback {d : String × Nat} (h : fallback? cs = some d) :
    ∃ ds rest, cs = ds ++ '\x7d' :: rest ∧ '\x7d' ∉ ds ∧ d = (String.ofList ds, ds.length) := by
  simp only [fallback?, Option.ite_none_right_eq_some, Option.some.injEq] at h
  obtain ⟨hlength, rfl⟩ := h
  have hsplit := List.takeWhile_append_dropWhile (p := (· != '\x7d')) (l := cs)
  cases hdrop : cs.dropWhile (· != '\x7d') with
  | nil =>
    rw [hdrop, List.append_nil] at hsplit
    rw [hsplit] at hlength
    exact absurd hlength (Nat.lt_irrefl _)
  | cons c rest =>
    have hc := List.head?_dropWhile_not (· != '\x7d') cs
    rw [hdrop] at hc hsplit
    obtain rfl : c = '\x7d' := by simpa using hc
    exact ⟨_, rest, hsplit.symm, fun hmem ↦ by simpa using List.mem_takeWhile_imp hmem, rfl⟩

/-- What stands behind an opening brace is read as the form says. -/
theorem exists_braced {r : Reference} (h : braced? cs = some (r, k)) :
    ∃ taken rest, cs = taken ++ rest ∧ taken.length = k ∧
      Form ('$' :: '\x7b' :: taken) rest (.reference r) := by
  by_cases hname : name cs = []
  · simp [braced?, hname] at h
  obtain ⟨n, rest, rfl, hn, hisName, -⟩ := exists_name hname
  simp only [braced?, hn, hisName.ne_nil, if_false, List.drop_left] at h
  split at h
  · next rest =>
    obtain ⟨rfl, rfl⟩ := Prod.mk.inj (Option.some.inj h)
    exact ⟨n ++ ['\x7d'], rest, by simp, by simp, .plain hisName⟩
  · next rest =>
    obtain ⟨d, hd, h⟩ := Option.map_eq_some_iff.mp h
    obtain ⟨rfl, rfl⟩ := Prod.mk.inj h
    obtain ⟨ds, rest, rfl, hds, rfl⟩ := exists_fallback hd
    exact ⟨n ++ ':' :: '-' :: (ds ++ ['\x7d']), rest, by simp, by simp; omega,
      .unlessFilled hisName hds⟩
  · next rest =>
    obtain ⟨d, hd, h⟩ := Option.map_eq_some_iff.mp h
    obtain ⟨rfl, rfl⟩ := Prod.mk.inj h
    obtain ⟨ds, rest, rfl, hds, rfl⟩ := exists_fallback hd
    exact ⟨n ++ '-' :: (ds ++ ['\x7d']), rest, by simp, by simp; omega, .unlessSet hisName hds⟩
  · cases h

/-- What follows a `$` is read as a form. -/
theorem exists_form (h : form? cs = some (p, k)) :
    ∃ taken rest, cs = taken ++ rest ∧ taken.length = k ∧ Form ('$' :: taken) rest p := by
  unfold form? at h
  split at h
  · next rest =>
    obtain ⟨rfl, rfl⟩ := Prod.mk.inj (Option.some.inj h)
    exact ⟨['$'], rest, rfl, rfl, .dollar⟩
  · next rest =>
    obtain ⟨⟨r, j⟩, hr, h⟩ := Option.map_eq_some_iff.mp h
    obtain ⟨rfl, rfl⟩ := Prod.mk.inj h
    obtain ⟨taken, rest, rfl, rfl, hform⟩ := exists_braced hr
    exact ⟨'\x7b' :: taken, rest, rfl, rfl, hform⟩
  · simp only [Option.ite_none_left_eq_some, Option.some.injEq, Prod.mk.injEq] at h
    obtain ⟨hname, rfl, rfl⟩ := h
    obtain ⟨n, rest, rfl, hn, hisName, hends⟩ := exists_name hname
    exact ⟨n, rest, rfl, by rw [hn], by rw [hn]; exact .bare hisName hends⟩

theorem Form.form?_eq {all : List Char} (h : Form all rest p) :
    ∃ taken, all = '$' :: taken ∧ form? (taken ++ rest) = some (p, taken.length) := by
  have hends : ∀ c cs, ¬ InName c → EndsName (c :: cs) := fun c cs hc d hd ↦
    Option.some.inj hd ▸ hc
  cases h with
  | dollar => exact ⟨_, rfl, rfl⟩
  | @plain n _ hn =>
    refine ⟨_, rfl, ?_⟩
    have hname := name_append hn (hends '\x7d' rest (by decide))
    simp [form?, braced?, hname, hn.ne_nil]
  | @unlessFilled n d _ hn hd =>
    refine ⟨_, rfl, ?_⟩
    have hname := name_append hn (hends ':' ('-' :: (d ++ '\x7d' :: rest)) (by decide))
    simp [form?, braced?, hname, hn.ne_nil, fallback?_append hd]
    omega
  | @unlessSet n d _ hn hd =>
    refine ⟨_, rfl, ?_⟩
    have hname := name_append hn (hends '-' (d ++ '\x7d' :: rest) (by decide))
    simp [form?, braced?, hname, hn.ne_nil, fallback?_append hd]
    omega
  | @bare n _ hn hrest =>
    refine ⟨n, rfl, ?_⟩
    have hname := name_append hn hrest
    obtain ⟨hc, -⟩ := id hn
    rw [form?]
    · rw [hname]
      exact if_neg hn.ne_nil
    · rintro cs h
      obtain ⟨rfl, -⟩ := List.cons.inj h
      exact absurd hc (by decide)
    · rintro cs h
      obtain ⟨rfl, -⟩ := List.cons.inj h
      exact absurd hc (by decide)

/-! ## Readings -/

theorem scan_drop (k : Nat) (cs : List Char) : scan k cs = scan 0 (cs.drop k) := by
  induction k generalizing cs with
  | zero => rfl
  | succ k ih =>
    cases cs with
    | nil => rfl
    | cons c cs => exact ih cs

/-- A form in front of a text is its first piece. -/
theorem Form.scan_eq (h : Form taken rest p) : scan 0 (taken ++ rest) = p :: scan 0 rest := by
  obtain ⟨taken, rfl, hform⟩ := h.form?_eq
  rw [List.cons_append, scan, if_pos rfl, hform]
  dsimp only
  rw [scan_drop, List.drop_left]

/-- A character that starts no form stands for itself. -/
theorem scan_copy {c : Char}
    (h : ∀ taken after p, Form taken after p → c :: rest ≠ taken ++ after) :
    scan 0 (c :: rest) = .char c :: scan 0 rest := by
  by_cases hc : c = '$'
  · subst hc
    have hnone : form? rest = none := by
      by_contra hsome
      obtain ⟨⟨p, k⟩, hform⟩ := Option.ne_none_iff_exists'.mp hsome
      obtain ⟨taken, after, rfl, -, hform⟩ := exists_form hform
      exact h _ _ _ hform rfl
    rw [scan, if_pos rfl, hnone]
  · rw [scan, if_neg hc]

theorem Reads.eq_scan (h : Reads cs ps) : ps = scan 0 cs := by
  induction h with
  | nil => rfl
  | form h _ ih => rw [h.scan_eq, ih]
  | copy h _ ih => rw [scan_copy h, ih]

/-- Every text has a reading. The induction is on its length, since a form takes more than one
character. -/
theorem reads_scan (cs : List Char) : Reads cs (scan 0 cs) := by
  induction hlength : cs.length using Nat.strong_induction_on generalizing cs with
  | _ length ih =>
    subst hlength
    by_cases hform : ∃ taken after p, Form taken after p ∧ cs = taken ++ after
    · obtain ⟨taken, after, p, h, rfl⟩ := hform
      obtain ⟨more, htaken, -⟩ := h.form?_eq
      have hshorter : after.length < (taken ++ after).length := by
        rw [htaken, List.length_append, List.length_cons]
        omega
      rw [h.scan_eq]
      exact .form h (ih _ hshorter after rfl)
    · have hcopy : ∀ taken after p, Form taken after p → cs ≠ taken ++ after :=
        fun taken after p h heq ↦ hform ⟨taken, after, p, h, heq⟩
      cases cs with
      | nil => exact .nil
      | cons c rest =>
        rw [scan_copy hcopy]
        exact .copy hcopy (ih _ (Nat.lt_succ_self _) rest rfl)

/-! ## Replacements -/

theorem any_break_iff {v : String} :
    (v.toList.any fun c ↦ c == '\n' || c == '\r') = true ↔ ¬ OneLine v := by
  simp only [List.any_eq_true, Bool.or_eq_true, beq_iff_eq, OneLine, not_and_or, not_not]
  constructor
  · rintro ⟨c, hc, rfl | rfl⟩
    · exact .inl hc
    · exact .inr hc
  · rintro (h | h)
    · exact ⟨_, h, .inl rfl⟩
    · exact ⟨_, h, .inr rfl⟩

theorem StandsFor.resolve_eq {part : Part} (h : StandsFor lookup p part) :
    p.resolve lookup = .ok part.text := by
  cases h with
  | char => rfl
  | @value r v hv hline hfilled =>
    have hany : ¬ (v.toList.any fun c ↦ c == '\n' || c == '\r') = true :=
      any_break_iff.not_left.mpr hline
    simp only [Piece.resolve, Reference.resolve, hv]
    rw [if_neg hany]
    split
    · next d hd =>
      have hne : v ≠ "" := fun hempty ↦ hfilled hempty d hd
      rw [if_neg hne]
      rfl
    · rfl
  | empty hv => simp [Piece.resolve, Reference.resolve, hv, Part.text]
  | unset hv hf =>
    rcases hf with rfl | rfl
    · simp [Piece.resolve, Reference.resolve, hv, Part.text]
    · simp [Piece.resolve, Reference.resolve, hv, Part.text]

theorem Faulty.resolve_eq {fault : VariableFault} (h : Faulty lookup p fault) :
    p.resolve lookup = .error fault := by
  cases h with
  | unset hv => simp [Piece.resolve, Reference.resolve, hv]
  | lineBreak hv hline =>
    simp only [Piece.resolve, Reference.resolve, hv, any_break_iff.mpr hline, if_true]

/-- Every piece stands for something, or it has a fault. -/
theorem stands_or_faulty (lookup : String → Option String) (p : Piece) :
    (∃ part, StandsFor lookup p part) ∨ ∃ fault, Faulty lookup p fault := by
  cases p with
  | char c => exact .inl ⟨_, .char⟩
  | reference r =>
    obtain ⟨name, fallback⟩ := r
    cases hv : lookup name with
    | none =>
      cases fallback with
      | none => exact .inr ⟨_, .unset hv⟩
      | some f =>
        cases f with
        | ifUnset d => exact .inl ⟨_, .unset hv (.inl rfl)⟩
        | ifUnsetOrEmpty d => exact .inl ⟨_, .unset hv (.inr rfl)⟩
    | some v =>
      by_cases hline : OneLine v
      · by_cases hempty : v = "" ∧ ∃ d, fallback = some (.ifUnsetOrEmpty d)
        · obtain ⟨rfl, d, rfl⟩ := hempty
          exact .inl ⟨_, .empty hv⟩
        · exact .inl ⟨_, .value hv hline fun he d hd ↦ hempty ⟨he, d, hd⟩⟩
      · exact .inr ⟨_, .lineBreak hv hline⟩

/-- No piece does both. -/
theorem StandsFor.not_faulty {part : Part} {fault : VariableFault} (h : StandsFor lookup p part) :
    ¬ Faulty lookup p fault := fun hfault ↦ by
  have hresolve := h.resolve_eq
  rw [hfault.resolve_eq] at hresolve
  cases hresolve

theorem faults_cons_of_stands {part : Part} (h : StandsFor lookup p part) :
    faults lookup (p :: ps) = faults lookup ps := by
  simp [faults, h.resolve_eq]

theorem faults_cons_of_faulty {fault : VariableFault} (h : Faulty lookup p fault) :
    faults lookup (p :: ps) = fault :: faults lookup ps := by
  simp [faults, h.resolve_eq]

theorem Faults.eq_faults {fs : List VariableFault} (h : Faults lookup ps fs) :
    fs = faults lookup ps := by
  induction h with
  | nil => rfl
  | sound h _ ih => rw [faults_cons_of_stands h, ih]
  | faulty h _ ih => rw [faults_cons_of_faulty h, ih]

theorem faults_faults (lookup : String → Option String) (ps : List Piece) :
    Faults lookup ps (faults lookup ps) := by
  induction ps with
  | nil => exact .nil
  | cons p ps ih =>
    rcases stands_or_faulty lookup p with ⟨part, h⟩ | ⟨fault, h⟩
    · rw [faults_cons_of_stands h]
      exact .sound h ih
    · rw [faults_cons_of_faulty h]
      exact .faulty h ih

/-- Where no piece has a fault, all of them are replaced. -/
theorem faults_eq_nil_iff :
    faults lookup ps = [] ↔ ∃ parts, List.Forall₂ (StandsFor lookup) ps parts := by
  induction ps with
  | nil => exact ⟨fun _ ↦ ⟨[], .nil⟩, fun _ ↦ rfl⟩
  | cons p ps ih =>
    rcases stands_or_faulty lookup p with ⟨part, h⟩ | ⟨fault, h⟩
    · rw [faults_cons_of_stands h, ih]
      constructor
      · rintro ⟨parts, hparts⟩
        exact ⟨part :: parts, .cons h hparts⟩
      · rintro ⟨_, hparts⟩
        cases hparts with
        | cons _ hparts => exact ⟨_, hparts⟩
    · rw [faults_cons_of_faulty h]
      constructor
      · intro hnil
        cases hnil
      · rintro ⟨_, hparts⟩
        cases hparts with
        | cons hp _ => exact absurd h hp.not_faulty

theorem faults_eq_nil_iff_forall :
    faults lookup ps = [] ↔ ∀ p ∈ ps, ∀ fault, ¬ Faulty lookup p fault := by
  induction ps with
  | nil => exact ⟨fun _ _ hp ↦ (List.not_mem_nil hp).elim, fun _ ↦ rfl⟩
  | cons p ps ih =>
    rw [List.forall_mem_cons]
    rcases stands_or_faulty lookup p with ⟨part, h⟩ | ⟨fault, h⟩
    · rw [faults_cons_of_stands h, ih]
      exact ⟨fun hps ↦ ⟨fun fault ↦ h.not_faulty, hps⟩, And.right⟩
    · rw [faults_cons_of_faulty h]
      exact ⟨fun hnil ↦ absurd hnil (List.cons_ne_nil _ _), fun hps ↦ absurd h (hps.1 fault)⟩

theorem fill_eq {parts : List Part} (h : List.Forall₂ (StandsFor lookup) ps parts) :
    fill lookup ps = String.join (parts.map Part.text) := by
  have htexts : ps.map (fun p ↦ (p.resolve lookup).toOption.getD "") = parts.map Part.text := by
    induction h with
    | nil => rfl
    | cons h _ ih => rw [List.map_cons, List.map_cons, ih, h.resolve_eq]; rfl
  rw [fill, htexts]

/-! ## Filling in -/

/-- A text is filled in where all its pieces are replaced. -/
theorem interpolate_eq_ok_iff {text t : String} : interpolate lookup text = .ok t ↔
    ∃ parts, List.Forall₂ (StandsFor lookup) (pieces text) parts ∧
      t = String.join (parts.map Part.text) := by
  unfold interpolate
  dsimp only
  split
  · next hnil =>
    obtain ⟨parts, hparts⟩ := faults_eq_nil_iff.mp hnil
    rw [fill_eq hparts, Except.ok.injEq]
    constructor
    · rintro rfl
      exact ⟨parts, hparts, rfl⟩
    · rintro ⟨parts', hparts', rfl⟩
      rw [← fill_eq hparts, fill_eq hparts']
  · next hne =>
    constructor
    · intro h
      cases h
    · rintro ⟨parts, hparts, -⟩
      exact absurd (faults_eq_nil_iff.mpr ⟨parts, hparts⟩) hne

/-- Otherwise all faults are reported. -/
theorem interpolate_eq_error_iff {text : String} {fs : List VariableFault} :
    interpolate lookup text = .error fs ↔ fs ≠ [] ∧ Faults lookup (pieces text) fs := by
  unfold interpolate
  dsimp only
  split
  · next hnil =>
    constructor
    · intro h
      cases h
    · rintro ⟨hne, hfaults⟩
      exact absurd (hfaults.eq_faults.trans hnil) hne
  · next hne =>
    rw [Except.error.injEq]
    constructor
    · rintro rfl
      exact ⟨hne, faults_faults _ _⟩
    · rintro ⟨-, hfaults⟩
      exact hfaults.eq_faults.symm

end Template

/-- Every text has one reading, from left to right by the forms of the grammar. Filling it in gives
all its pieces together, each replaced once, if none of its references is faulty; otherwise it gives
the faults of those that are, one for each and in their order. -/
theorem interpolate_reads (lookup : String → Option String) (text : String) :
    ∃ ps, Template.Reads text.toList ps ∧ (∀ qs, Template.Reads text.toList qs → qs = ps) ∧
      (∀ t, interpolate lookup text = .ok t ↔
        ∃ parts, List.Forall₂ (Template.StandsFor lookup) ps parts ∧
          t = String.join (parts.map Template.Part.text)) ∧
      ((∃ t, interpolate lookup text = .ok t) ↔
        ∀ p ∈ ps, ∀ fault, ¬ Template.Faulty lookup p fault) ∧
      ∀ fs, interpolate lookup text = .error fs ↔ fs ≠ [] ∧ Template.Faults lookup ps fs := by
  refine ⟨Template.pieces text, Template.reads_scan _, fun qs hqs ↦ hqs.eq_scan,
    fun t ↦ Template.interpolate_eq_ok_iff, ?_, fun fs ↦ Template.interpolate_eq_error_iff⟩
  rw [← Template.faults_eq_nil_iff_forall, Template.faults_eq_nil_iff]
  constructor
  · rintro ⟨t, ht⟩
    obtain ⟨parts, hparts, -⟩ := Template.interpolate_eq_ok_iff.mp ht
    exact ⟨parts, hparts⟩
  · rintro ⟨parts, hparts⟩
    exact ⟨_, Template.interpolate_eq_ok_iff.mpr ⟨parts, hparts, rfl⟩⟩

end TableSink
