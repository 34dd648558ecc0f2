import Mathlib.Data.List.Basic
import TableSink.Partition.Spec

/-!
# Escapes lose nothing

Three texts become part of a path: columns and values through `PartitionSpec.escapeName`, and
whole segments through `ObjectPath.encodeSegment`. Both write a text character by character, and
both are *prefix free*: no written character begins another one. This is all that is needed for a
written text to have one reading (`Text.flatMap_injective`), although nothing here ever reads one
back.

What a written segment can hold is settled here as well (`ObjectPath.encodeSegment_chars`), since
`ObjectPath.parse?` takes a segment as it stands.
-/

namespace TableSink

namespace Text

/-- A row of code words from a prefix free code has one reading. -/
theorem flatMap_injective {α β : Type} {f : α → List β} (hne : ∀ a, f a ≠ [])
    (hfree : ∀ a b, f a <+: f b → a = b) : Function.Injective (List.flatMap f) := by
  intro xs
  induction xs with
  | nil =>
    rintro (_ | ⟨y, ys⟩) h
    · rfl
    · simp [hne] at h
  | cons x xs ih =>
    rintro (_ | ⟨y, ys⟩) h
    · simp [hne] at h
    · simp only [List.flatMap_cons] at h
      have hxy : x = y := by
        rcases List.prefix_or_prefix_of_prefix (h ▸ List.prefix_append (f x) _)
          (List.prefix_append (f y) (ys.flatMap f)) with hp | hp
        · exact hfree x y hp
        · exact (hfree y x hp).symm
      subst hxy
      rw [ih (List.append_cancel_left h)]

/-! ## Percent escapes -/

/-- The hexadecimal digits in upper case. -/
def upperHexDigits : List Char := "0123456789ABCDEF".toList

theorem upperHexDigit_mem {n : Nat} (h : n < 16) : upperHexDigit n ∈ upperHexDigits := by
  revert n; decide

theorem upperHexDigit_inj {m n : Nat} (hm : m < 16) (hn : n < 16)
    (h : upperHexDigit m = upperHexDigit n) : m = n := by
  have hall : ∀ m < 16, ∀ n < 16, upperHexDigit m = upperHexDigit n → m = n := by decide
  exact hall m hm n hn h

theorem percentByte_injective : Function.Injective percentByte := by
  intro a b h
  simp only [percentByte, List.cons.injEq, and_true, true_and] at h
  have ha := a.toNat_lt
  have hb := b.toNat_lt
  have hhigh := upperHexDigit_inj (by omega) (by omega) h.1
  have hlow := upperHexDigit_inj (by omega) (by omega) h.2
  exact UInt8.toNat_inj.mp (by omega)

/-- The written byte begins with `%`, and hexadecimal digits follow. -/
theorem percentByte_chars {b : UInt8} {d : Char} (h : d ∈ percentByte b) :
    d = '%' ∨ d ∈ upperHexDigits := by
  have hb := b.toNat_lt
  simp only [percentByte, List.mem_cons, List.not_mem_nil, or_false] at h
  rcases h with h | h | h
  · exact .inl h
  · exact .inr (h ▸ upperHexDigit_mem (by omega))
  · exact .inr (h ▸ upperHexDigit_mem (by omega))

/-- Written bytes have the same length, so a row of them begins another row only if the bytes do. -/
theorem prefix_of_flatMap_percentByte {bs cs : List UInt8}
    (h : bs.flatMap percentByte <+: cs.flatMap percentByte) : bs <+: cs := by
  induction bs generalizing cs with
  | nil => exact List.nil_prefix
  | cons b bs ih =>
    cases cs with
    | nil => simp [percentByte] at h
    | cons c cs =>
      obtain ⟨rest, h⟩ := h
      simp only [List.flatMap_cons, List.append_assoc] at h
      obtain ⟨hb, h⟩ := List.append_inj h rfl
      rw [percentByte_injective hb]
      exact (List.prefix_cons_inj c).mpr (ih ⟨rest, h⟩)

/-- The bytes of a character begin those of another one only if they are the same. -/
theorem eq_of_utf8EncodeChar_prefix {c d : Char}
    (h : String.utf8EncodeChar c <+: String.utf8EncodeChar d) : c = d := by
  obtain ⟨rest, h⟩ := h
  have hc := ByteArray.utf8DecodeChar?_utf8EncodeChar_append (b := rest.toByteArray) (c := c)
  have hd := ByteArray.utf8DecodeChar?_utf8EncodeChar_append (b := .empty) (c := d)
  rw [← List.toByteArray_append, h] at hc
  rw [ByteArray.append_empty] at hd
  exact Option.some.inj (hc.symm.trans hd)

theorem eq_of_percentChar_prefix {c d : Char} (h : percentChar c <+: percentChar d) : c = d :=
  eq_of_utf8EncodeChar_prefix (prefix_of_flatMap_percentByte h)

theorem percentChar_eq_cons (c : Char) : ∃ rest, percentChar c = '%' :: rest := by
  cases h : String.utf8EncodeChar c with
  | nil => exact absurd h String.utf8EncodeChar_ne_nil
  | cons b bs => exact ⟨_, by rw [percentChar, h, List.flatMap_cons, percentByte, List.cons_append]⟩

theorem percentChar_chars {c d : Char} (h : d ∈ percentChar c) : d = '%' ∨ d ∈ upperHexDigits := by
  obtain ⟨b, _, hd⟩ := List.mem_flatMap.mp h
  exact percentByte_chars hd

end Text

/-! ## Columns and values -/

namespace PartitionSpec

theorem isReserved_lt {c : Char} (h : isReserved c = true) : c.toNat < 0x80 := by
  simp only [isReserved, Bool.or_eq_true, decide_eq_true_eq, List.contains_iff_mem] at h
  rcases h with h | h
  · omega
  · have hall : reserved.all (fun c ↦ c.toNat < 0x80) = true := by decide
    simpa using List.all_eq_true.mp hall c h

theorem isReserved_percent : isReserved '%' = true := by decide

theorem isReserved_of_mem_upperHexDigits :
    ∀ d ∈ Text.upperHexDigits, isReserved d = false := by
  have hall : Text.upperHexDigits.all (fun d ↦ !isReserved d) = true := by decide
  simpa using hall

/-- A column or value never holds the characters of the notation, apart from `%`. -/
theorem escapeChar_chars {c d : Char} (h : d ∈ escapeChar c) : d = '%' ∨ isReserved d = false := by
  unfold escapeChar at h
  split at h
  · rcases Text.percentByte_chars h with h | h
    · exact .inl h
    · exact .inr (isReserved_of_mem_upperHexDigits d h)
  · next hc =>
    rw [List.mem_singleton] at h
    exact .inr (by simpa [h] using hc)

theorem escapeChar_ne_nil (c : Char) : escapeChar c ≠ [] := by
  unfold escapeChar
  split <;> simp [Text.percentByte]

/-- A plain character is no `%`, so what is written tells escaped characters from plain ones. -/
theorem eq_of_escapeChar_prefix {c d : Char} (h : escapeChar c <+: escapeChar d) : c = d := by
  unfold escapeChar at h
  split at h <;> split at h
  · next hc hd =>
    have hbytes := Text.percentByte_injective (h.eq_of_length rfl)
    have hcd : c.toNat.toUInt8.toNat = d.toNat.toUInt8.toNat := congrArg UInt8.toNat hbytes
    have := isReserved_lt hc
    have := isReserved_lt hd
    simp only [Nat.toUInt8_eq, UInt8.toNat_ofNat'] at hcd
    exact Char.toNat_inj.mp (by omega)
  · next hc hd => simpa [Text.percentByte] using h.length_le
  · next hc hd =>
    rw [Text.percentByte, List.cons_prefix_cons] at h
    exact absurd (h.1 ▸ isReserved_percent) hc
  · simpa using h

theorem escapeName_injective : Function.Injective escapeName := by
  intro s t h
  have h := String.ofList_injective h
  exact String.toList_inj.mp
    (Text.flatMap_injective escapeChar_ne_nil (fun _ _ ↦ eq_of_escapeChar_prefix) h)

/-- No column or value holds one of the reserved characters after its escape, apart from `%`. -/
theorem notMem_escapeName {d : Char} (hd : isReserved d = true) (hne : d ≠ '%') (s : String) :
    d ∉ (escapeName s).toList := by
  intro h
  rw [escapeName, String.toList_ofList] at h
  obtain ⟨c, _, hc⟩ := List.mem_flatMap.mp h
  rcases escapeChar_chars hc with h | h
  · exact hne h
  · simp [hd] at h

theorem toList_directory (entry : String × String) : (directory entry).toList =
    (escapeName entry.1).toList ++ '=' :: (escapeName entry.2).toList := by
  simp [directory]

/-- The name of a directory tells its column and its value. -/
theorem directory_injective : Function.Injective directory := by
  rintro ⟨column, value⟩ ⟨column', value'⟩ h
  have h := congrArg (Text.split '=' ∘ String.toList) h
  have hno : ∀ s, '=' ∉ (escapeName s).toList := notMem_escapeName (by decide) (by decide)
  simp only [Function.comp_apply, toList_directory, Text.split_append_cons (hno _),
    Text.split_eq_singleton (hno _), List.cons.injEq, and_true] at h
  exact Prod.ext (escapeName_injective (String.toList_inj.mp h.1))
    (escapeName_injective (String.toList_inj.mp h.2))

theorem equals_mem_directory (entry : String × String) : '=' ∈ (directory entry).toList := by
  simp [toList_directory]

theorem directory_ne_empty (entry : String × String) : directory entry ≠ "" := fun h ↦ by
  simpa [h] using equals_mem_directory entry

theorem slash_notMem_directory (entry : String × String) : '/' ∉ (directory entry).toList := by
  have hno : ∀ s, '/' ∉ (escapeName s).toList := notMem_escapeName (by decide) (by decide)
  simp [toList_directory, hno]

/-- The bucket of a partition tells all its columns and values, in order. -/
theorem bucket_injective : Function.Injective bucket := by
  have hsplit : ∀ spec : PartitionSpec, spec ≠ [] →
      Text.split '/' (bucket spec).toList = spec.map fun entry ↦ (directory entry).toList := by
    intro spec hspec
    rw [bucket, String.toList_ofList, Text.split_join (by simpa using hspec)]
    rintro piece hpiece
    obtain ⟨entry, _, rfl⟩ := List.mem_map.mp hpiece
    exact slash_notMem_directory entry
  have hmap : Function.Injective fun entry ↦ (directory entry).toList :=
    fun _ _ h ↦ directory_injective (String.toList_inj.mp h)
  have hempty : ∀ spec : PartitionSpec, bucket spec = bucket [] → spec = [] := by
    intro spec h
    by_contra hspec
    have hpieces := hsplit spec hspec
    rw [h] at hpieces
    cases spec with
    | nil => exact hspec rfl
    | cons entry rest =>
      have hfirst : [] = (directory entry).toList := (List.cons.inj hpieces).1
      simpa [← hfirst] using equals_mem_directory entry
  intro s t h
  by_cases hs : s = []
  · subst hs; exact (hempty t h.symm).symm
  by_cases ht : t = []
  · subst ht; exact hempty s h
  refine List.map_injective_iff.mpr hmap ?_
  rw [← hsplit s hs, ← hsplit t ht, h]

end PartitionSpec

/-! ## Segments -/

namespace ObjectPath

/-- One character of a segment in its escaped form. -/
def segmentChar (c : Char) : List Char := if isPlain c then [c] else Text.percentChar c

theorem isPlain_percent : isPlain '%' = false := by decide

theorem isPlain_of_mem_upperHexDigits : ∀ d ∈ Text.upperHexDigits, isPlain d = true :=
  List.all_eq_true.mp (by decide)

theorem segmentChar_ne_nil (c : Char) : segmentChar c ≠ [] := by
  unfold segmentChar
  split
  · simp
  · obtain ⟨rest, h⟩ := Text.percentChar_eq_cons c
    simp [h]

/-- A written segment holds plain characters and `%` only. -/
theorem segmentChar_chars {c d : Char} (h : d ∈ segmentChar c) : d = '%' ∨ isPlain d = true := by
  unfold segmentChar at h
  split at h
  · next hc => exact .inr (by simpa [List.mem_singleton.mp h] using hc)
  · rcases Text.percentChar_chars h with h | h
    · exact .inl h
    · exact .inr (isPlain_of_mem_upperHexDigits d h)

theorem eq_of_segmentChar_prefix {c d : Char} (h : segmentChar c <+: segmentChar d) : c = d := by
  unfold segmentChar at h
  obtain ⟨restc, hcs⟩ := Text.percentChar_eq_cons c
  obtain ⟨restd, hds⟩ := Text.percentChar_eq_cons d
  split at h <;> split at h
  · simpa using h
  · next hc hd =>
    rw [hds, List.cons_prefix_cons] at h
    exact absurd (h.1 ▸ hc) (by simp [isPlain_percent])
  · next hc hd =>
    rw [hcs, List.cons_prefix_cons] at h
    exact absurd (h.1 ▸ hd) (by simp [isPlain_percent])
  · exact Text.eq_of_percentChar_prefix h

/-- Every text but `.` and `..` is written character by character. -/
theorem encodeSegment_eq_flatMap {cs : List Char} (h : cs ≠ ['.'] ∧ cs ≠ ['.', '.']) :
    encodeSegment cs = cs.flatMap segmentChar := by
  unfold encodeSegment
  split
  · exact absurd rfl h.1
  · exact absurd rfl h.2
  · rfl

theorem flatMap_segmentChar_injective : Function.Injective (List.flatMap segmentChar) :=
  Text.flatMap_injective segmentChar_ne_nil fun _ _ ↦ eq_of_segmentChar_prefix

theorem encodeSegment_chars {cs : List Char} {d : Char} (h : d ∈ encodeSegment cs) :
    d = '%' ∨ isPlain d = true := by
  unfold encodeSegment at h
  split at h
  · have hall : ['%', '2', 'E'].all (fun d ↦ d = '%' ∨ isPlain d) = true := by decide
    simpa using List.all_eq_true.mp hall d h
  · have hall : ['%', '2', 'E', '%', '2', 'E'].all (fun d ↦ d = '%' ∨ isPlain d) = true := by decide
    simpa using List.all_eq_true.mp hall d h
  · obtain ⟨c, _, hc⟩ := List.mem_flatMap.mp h
    exact segmentChar_chars hc

theorem encodeSegment_ne_nil {cs : List Char} (h : cs ≠ []) : encodeSegment cs ≠ [] := by
  unfold encodeSegment
  split
  · decide
  · decide
  · cases cs with
    | nil => exact absurd rfl h
    | cons c cs =>
      intro hnil
      exact segmentChar_ne_nil c (List.append_eq_nil_iff.mp hnil).1

/-- The two names with a meaning of their own in a directory tree are never written. -/
theorem encodeSegment_ne_dots (cs : List Char) :
    encodeSegment cs ≠ ['.'] ∧ encodeSegment cs ≠ ['.', '.'] := by
  by_cases h₁ : cs = ['.']
  · subst h₁; decide
  by_cases h₂ : cs = ['.', '.']
  · subst h₂; decide
  rw [encodeSegment_eq_flatMap ⟨h₁, h₂⟩]
  exact ⟨fun h ↦ h₁ (flatMap_segmentChar_injective h), fun h ↦ h₂ (flatMap_segmentChar_injective h)⟩

theorem isPlain_slash : isPlain '/' = false := by decide

theorem slash_notMem_encodeSegment (cs : List Char) : '/' ∉ encodeSegment cs := fun h ↦ by
  rcases encodeSegment_chars h with h | h
  · exact absurd h (by decide)
  · simp [isPlain_slash] at h

/-- A written segment is taken as it stands. -/
theorem checkSegment_encodeSegment {cs : List Char} (h : cs ≠ []) :
    checkSegment (encodeSegment cs) = .ok (String.ofList (encodeSegment cs)) := by
  have hcontrol : (encodeSegment cs).any isControl = false := by
    rw [List.any_eq_false]
    intro d hd
    rcases encodeSegment_chars hd with rfl | hplain
    · decide
    · simp only [isPlain, Bool.and_eq_true, Bool.not_eq_true'] at hplain
      simp [hplain.1.2]
  rw [checkSegment, if_neg (encodeSegment_ne_nil h), if_neg]
  simp [encodeSegment_ne_dots cs, hcontrol]

end ObjectPath

end TableSink
