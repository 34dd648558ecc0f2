import Mathlib.Data.List.Perm.Basic
import TableSink.Config.Load
import TableSink.Proofs.Config.Grammar

/-!
# Where line breaks come from

A text that was filled in is made of parts of the template, in their order, and of values. Line
feeds and carriage returns are never part of a value that is filled in, so all of them stand in the
template. YAML has three more breaks, though, and of these a value may bring any number. The breaks
of the text are those of the template if and only if no value that is filled in holds one of the
three (`interpolate_breaks`). Otherwise a variable can add a line, and a setting with it
(`interpolate_breaks_next_line`).
-/

namespace TableSink

namespace Template

/-- One of the line breaks that YAML has besides line feeds and carriage returns: next line, line
separator and paragraph separator. -/
def isWideBreak (c : Char) : Bool := c == '\u0085' || c == '\u2028' || c == '\u2029'

/-- What of a part stands in the template. -/
def Part.copy : Part → List Char
  | .copied text => text.toList
  | .value _ _ => []

/-- What of a part is the value of a variable. -/
def Part.brought : Part → List Char
  | .copied _ => []
  | .value _ text => text.toList

variable {lookup : String → Option String} {taken rest cs : List Char} {p : Piece}
variable {ps : List Piece} {part : Part} {parts : List Part}

/-- What can be filled in has no other breaks. -/
theorem isWideBreak_of_isBreak {v : String} (hv : OneLine v) {c : Char} (hc : c ∈ v.toList)
    (hbreak : Yaml.isBreak c = true) : isWideBreak c = true := by
  have hfeed : c ≠ '\n' := ne_of_mem_of_not_mem hc hv.1
  have hreturn : c ≠ '\r' := ne_of_mem_of_not_mem hc hv.2
  simpa [Yaml.isBreak, isWideBreak, hfeed, hreturn, or_assoc] using hbreak

theorem isBreak_of_isWideBreak {c : Char} (h : isWideBreak c = true) : Yaml.isBreak c = true := by
  simp only [isWideBreak, Yaml.isBreak, Bool.or_eq_true] at h ⊢
  tauto

/-- A fallback stands in its form. -/
theorem fallback_sublist (n middle d : List Char) :
    d.Sublist ('$' :: '\x7b' :: (n ++ (middle ++ (d ++ ['\x7d'])))) := by
  apply List.Sublist.cons
  apply List.Sublist.cons
  apply List.Sublist.trans _ (List.sublist_append_right n _)
  apply List.Sublist.trans _ (List.sublist_append_right middle _)
  exact List.sublist_append_left d _

/-- What a form is replaced by is a value, or it stands in the form. -/
theorem Form.copy_sublist (h : Form taken rest p) (hp : StandsFor lookup p part) :
    part.copy.Sublist taken := by
  cases h with
  | dollar =>
    cases hp
    exact List.sublist_append_left ['$'] ['$']
  | plain | bare =>
    cases hp
    exact List.nil_sublist _
  | @unlessFilled n d =>
    have hd := fallback_sublist n [':', '-'] d
    cases hp with
    | value => exact List.nil_sublist _
    | empty => simpa [Part.copy] using hd
    | unset _ hf =>
      rcases hf with hf | hf
      · cases hf
      · obtain rfl := Fallback.ifUnsetOrEmpty.inj hf
        simpa [Part.copy] using hd
  | @unlessSet n d =>
    have hd := fallback_sublist n ['-'] d
    cases hp with
    | value => exact List.nil_sublist _
    | unset _ hf =>
      rcases hf with hf | hf
      · obtain rfl := Fallback.ifUnset.inj hf
        simpa [Part.copy] using hd
      · cases hf

/-- Whatever is no value stands in the template, in this order. -/
theorem Reads.copy_sublist (h : Reads cs ps) (hparts : List.Forall₂ (StandsFor lookup) ps parts) :
    (parts.flatMap Part.copy).Sublist cs := by
  induction h generalizing parts with
  | nil =>
    cases hparts
    exact List.Sublist.refl _
  | form h _ ih =>
    cases hparts with
    | cons hp hparts => exact (h.copy_sublist hp).append (ih hparts)
  | copy _ _ ih =>
    cases hparts with
    | cons hp hparts =>
      cases hp
      simpa [Part.copy] using ih hparts

/-- Whatever does not stand in the template is part of a value. -/
theorem perm_copy_brought (parts : List Part) : (parts.flatMap fun part ↦ part.text.toList).Perm
    (parts.flatMap Part.copy ++ parts.flatMap Part.brought) := by
  have hsplit : ∀ part : Part, part.text.toList = part.copy ++ part.brought := by
    rintro (text | ⟨name, text⟩)
    · exact (List.append_nil _).symm
    · rfl
  simp only [hsplit]
  exact (List.flatMap_append_perm _ _ _).symm

/-- Where values bring no breaks, those of the template are left. -/
theorem filter_isBreak_eq_iff : (parts.flatMap fun part ↦ part.text.toList).filter Yaml.isBreak =
      (parts.flatMap Part.copy).filter Yaml.isBreak ↔
    ∀ c ∈ parts.flatMap Part.brought, ¬ Yaml.isBreak c = true := by
  constructor
  · intro h
    have hcount := (perm_copy_brought parts).countP_eq Yaml.isBreak
    rw [List.countP_append, List.countP_eq_length_filter, h,
      ← List.countP_eq_length_filter] at hcount
    exact List.countP_eq_zero.mp (by omega)
  · intro h
    induction parts with
    | nil => rfl
    | cons part parts ih =>
      rw [List.flatMap_cons, List.forall_mem_append] at h
      rw [List.flatMap_cons, List.flatMap_cons, List.filter_append, List.filter_append, ih h.2]
      congr 1
      cases part with
      | copied text => rfl
      | value name text => exact List.filter_eq_nil_iff.mpr h.1

/-- A part that is a value is that of a variable. -/
theorem lookup_of_mem (hparts : List.Forall₂ (StandsFor lookup) ps parts) {name v : String}
    (h : .value name v ∈ parts) : lookup name = some v ∧ OneLine v := by
  induction hparts with
  | nil => exact absurd h List.not_mem_nil
  | cons hp _ ih =>
    rcases List.mem_cons.mp h with rfl | h
    · cases hp with
      | value hv hline _ => exact ⟨hv, hline⟩
    · exact ih h

theorem isBreak_iff_of_mem_brought (hparts : List.Forall₂ (StandsFor lookup) ps parts) {c : Char}
    (h : c ∈ parts.flatMap Part.brought) : Yaml.isBreak c = true ↔ isWideBreak c = true := by
  obtain ⟨part, hpart, hc⟩ := List.mem_flatMap.mp h
  cases part with
  | copied text => exact absurd hc List.not_mem_nil
  | value name v =>
    exact ⟨isWideBreak_of_isBreak (lookup_of_mem hparts hpart).2 hc, isBreak_of_isWideBreak⟩

end Template

/-- A text that was filled in is made of parts of the template, in their order, and of values of
variables. A break that is part of a value is none of the two that are looked for. So the breaks of
the text are just those that stand in the template if no value that is filled in holds one of the
other three, and only then. -/
theorem interpolate_breaks {lookup : String → Option String} {text t : String}
    (h : interpolate lookup text = .ok t) :
    ∃ ps parts, Template.Reads text.toList ps ∧ List.Forall₂ (Template.StandsFor lookup) ps parts ∧
      t.toList = (parts.flatMap fun part ↦ part.text.toList) ∧
      (parts.flatMap Template.Part.copy).Sublist text.toList ∧
      (∀ name v, .value name v ∈ parts → lookup name = some v) ∧
      (∀ c ∈ parts.flatMap Template.Part.brought, Yaml.isBreak c = true →
        Template.isWideBreak c = true) ∧
      (t.toList.filter Yaml.isBreak = (parts.flatMap Template.Part.copy).filter Yaml.isBreak ↔
        ∀ c ∈ parts.flatMap Template.Part.brought, ¬ Template.isWideBreak c = true) ∧
      ((∀ c ∈ parts.flatMap Template.Part.brought, ¬ Template.isWideBreak c = true) →
        (t.toList.filter Yaml.isBreak).Sublist (text.toList.filter Yaml.isBreak)) := by
  obtain ⟨parts, hparts, rfl⟩ := Template.interpolate_eq_ok_iff.mp h
  have hreads := Template.reads_scan text.toList
  have hcopy := hreads.copy_sublist hparts
  have hwide := fun c (hc : c ∈ parts.flatMap Template.Part.brought) ↦
    Template.isBreak_iff_of_mem_brought hparts hc
  have htext : (String.join (parts.map Template.Part.text)).toList =
      (parts.flatMap fun part ↦ part.text.toList) := by
    rw [String.toList_join, List.flatMap_map]
  have hbreaks : (String.join (parts.map Template.Part.text)).toList.filter Yaml.isBreak =
        (parts.flatMap Template.Part.copy).filter Yaml.isBreak ↔
      ∀ c ∈ parts.flatMap Template.Part.brought, ¬ Template.isWideBreak c = true := by
    rw [htext, Template.filter_isBreak_eq_iff]
    exact forall₂_congr fun c hc ↦ not_congr (hwide c hc)
  refine ⟨_, parts, hreads, hparts, htext, hcopy, fun name v hv ↦
    (Template.lookup_of_mem hparts hv).1, fun c hc ↦ (hwide c hc).mp, hbreaks, fun hnone ↦ ?_⟩
  rw [hbreaks.mpr hnone]
  exact hcopy.filter _

/-- The value of one variable goes on in another line of YAML, and sets another setting there. -/
theorem interpolate_breaks_next_line :
    let lookup (name : String) : Option String :=
      if name = "T" then some "memory://t\u0085strategy: single" else none
    let text := "table_uri: $T\n"
    ∃ t, interpolate lookup text = .ok t ∧
      text.toList.filter Yaml.isBreak = ['\n'] ∧
      t.toList.filter Yaml.isBreak = ['\u0085', '\n'] ∧
      (Config.load (some lookup) text).toOption.map (fun c ↦ (c.table, c.strategy)) =
        some ("memory://t", .single) ∧
      ∃ parts : List Template.Part,
        t.toList = (parts.flatMap fun part ↦ part.text.toList) ∧
        (parts.flatMap Template.Part.copy).Sublist text.toList ∧
        ∃ c ∈ parts.flatMap Template.Part.brought, Template.isWideBreak c = true := by
  intro lookup text
  have hfilled : interpolate lookup text = .ok "table_uri: memory://t\u0085strategy: single\n" := by
    decide +kernel
  have hbefore : text.toList.filter Yaml.isBreak = ['\n'] := by decide +kernel
  have hafter : "table_uri: memory://t\u0085strategy: single\n".toList.filter Yaml.isBreak =
      ['\u0085', '\n'] := by decide +kernel
  have hload : (Config.load (some lookup) text).toOption.map (fun c ↦ (c.table, c.strategy)) =
      some ("memory://t", .single) := by decide +kernel
  obtain ⟨-, parts, -, -, htext, hcopy, -, -, -, hnone⟩ := interpolate_breaks hfilled
  refine ⟨_, hfilled, hbefore, hafter, hload, parts, htext, hcopy, ?_⟩
  by_contra hwide
  have hsub := hnone fun c hc hw ↦ hwide ⟨c, hc, hw⟩
  rw [hbefore, hafter] at hsub
  exact absurd hsub.length_le (by decide)

end TableSink
