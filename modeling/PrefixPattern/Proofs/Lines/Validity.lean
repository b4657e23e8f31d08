import PrefixPattern.Proofs.Lines

/-!
# Files of lines that are not UTF-8

Each line is read as text by itself, and a file is an error as soon as one of its lines is none.  No
matter where the lines are cut, this is to say that the file as a whole is no text: the byte of a
line feed is never a part of another character, so that cutting there can neither break a character
nor make up one.

## What is here

* `IsEncoded` — bytes that are the encoding of a text; `isValidUTF8_iff` says that this is what it
  means to be valid UTF-8.
* `isEncoded_iff_forall_splitOn` — bytes encode a text exactly if the pieces between their line
  feeds do.
* `membersOfLines?_eq_none_iff` — one line that is no text is enough for an error, and nothing else
  is one.
* `parseLines_eq_error_iff` — the files that are errors.
-/

set_option autoImplicit false

namespace PrefixPattern

/-! ## Bytes that encode a text -/

/-- The bytes are the encoding of a text. -/
def IsEncoded (bytes : List UInt8) : Prop :=
  ∃ cs, bytes = encode cs

theorem isValidUTF8_iff (content : ByteArray) :
    content.IsValidUTF8 ↔ IsEncoded content.data.toList := by
  refine ⟨?_, ?_⟩
  · rintro ⟨cs, rfl⟩
    exact ⟨cs, toList_utf8Encode cs⟩
  · rintro ⟨cs, hcs⟩
    exact ⟨cs, ByteArray.ext (Array.toList_inj.1 (hcs.trans (toList_utf8Encode cs).symm))⟩

/-- Texts with line feeds between them are one text. -/
theorem isEncoded_intercalate {pieces : List (List UInt8)}
    (h : ∀ piece ∈ pieces, IsEncoded piece) : IsEncoded ([10].intercalate pieces) := by
  induction pieces with
  | nil => exact ⟨[], rfl⟩
  | cons piece rest ih =>
    obtain ⟨⟨cs, rfl⟩, hrest⟩ := List.forall_mem_cons.1 h
    cases rest with
    | nil => exact ⟨cs, by rw [List.intercalate_singleton]⟩
    | cons next rest =>
      obtain ⟨ds, hds⟩ := ih hrest
      refine ⟨cs ++ ['\n'] ++ ds, ?_⟩
      rw [List.intercalate_cons_cons, hds, encode, encode, encode, List.flatMap_append,
        List.flatMap_append]
      rfl

/-- **Cutting at the line feeds keeps texts and makes none.** -/
theorem isEncoded_iff_forall_splitOn {bytes : List UInt8} :
    IsEncoded bytes ↔ ∀ piece ∈ bytes.splitOn 10, IsEncoded piece := by
  refine ⟨?_, fun h => ?_⟩
  · rintro ⟨cs, rfl⟩ piece hpiece
    rw [splitOn_encode] at hpiece
    obtain ⟨part, -, rfl⟩ := List.mem_map.1 hpiece
    exact ⟨part, rfl⟩
  · have hjoin : [10].intercalate (bytes.splitOn 10) = bytes := List.intercalate_splitOn 10
    rw [← hjoin]
    exact isEncoded_intercalate h

/-! ## Lines -/

/-- A last piece without any bytes is no line, and as a text it is the empty one. -/
theorem forall_mem_asLines_iff (pieces : List (List UInt8)) :
    (∀ l ∈ asLines pieces, IsEncoded l.bytes) ↔ ∀ piece ∈ pieces, IsEncoded piece := by
  induction pieces with
  | nil => simp [asLines]
  | cons piece rest ih =>
    cases rest with
    | nil =>
      have hempty : IsEncoded [] := ⟨[], rfl⟩
      rw [asLines]
      split
      · rename_i hpiece
        exact iff_of_true (by simp) (by simpa [hpiece] using hempty)
      · simp
    | cons next rest =>
      rw [asLines_cons (List.cons_ne_nil next rest), List.forall_mem_cons, List.forall_mem_cons, ih]

theorem Line.member?_eq_none_iff {l : Line} : l.member? = none ↔ ¬ IsEncoded l.bytes := by
  have hbytes := isValidUTF8_iff ⟨l.bytes.toArray⟩
  rw [member?, Option.map_eq_none_iff, String.fromUTF8?, ← hbytes]
  simp

/-- One line that is no text is enough, whatever the other lines are. -/
theorem membersOfLines?_eq_none_iff {lines : List Line} {done : List String} :
    membersOfLines? lines done = none ↔ ∃ l ∈ lines, ¬ IsEncoded l.bytes := by
  simp only [← Line.member?_eq_none_iff]
  fun_induction membersOfLines? lines done <;> simp [*]

/-! ## Files -/

/-- **A file of lines is an error exactly if it is not UTF-8 as a whole.**  The error names the path
of the file, there is no other one, and it leaves no members behind. -/
theorem parseLines_eq_error_iff (content : ByteArray) (path : String) :
    (∀ e, parseLines content path = .error e ↔
        e = .io path .invalidUtf8 ∧ ¬ content.IsValidUTF8) ∧
      ((∃ members, parseLines content path = .ok members) ↔ content.IsValidUTF8) := by
  have hnone : membersOfLines? (cutLines content.data.toList [] []) [] = none ↔
      ¬ content.IsValidUTF8 := by
    have hlines := forall_mem_asLines_iff (content.data.toList.splitOn 10)
    rw [membersOfLines?_eq_none_iff, cutLines_eq, isValidUTF8_iff, isEncoded_iff_forall_splitOn,
      ← hlines]
    simp [List.splitOn_eq_splitOnP]
  rw [parseLines]
  cases hread : membersOfLines? (cutLines content.data.toList [] []) [] with
  | some members =>
    have hvalid : content.IsValidUTF8 := by
      rw [hread] at hnone
      simpa using hnone
    simp [hvalid]
  | none =>
    have hinvalid := hnone.1 hread
    simp [hinvalid, eq_comm]

/-- A character that is cut short by a line feed or by the end of the file, one that is written with
more bytes than it takes, and half of a surrogate pair. -/
example :
    parseLines ⟨#[0x61, 0x0A, 0xC3, 0x0A, 0x62]⟩ "x" = .error (.io "x" .invalidUtf8) ∧
      parseLines ⟨#[0x61, 0x0A, 0xE2, 0x82]⟩ "x" = .error (.io "x" .invalidUtf8) ∧
      parseLines ⟨#[0xC0, 0x8A]⟩ "x" = .error (.io "x" .invalidUtf8) ∧
      parseLines ⟨#[0x0A, 0xED, 0xA0, 0x80]⟩ "x" = .error (.io "x" .invalidUtf8) :=
  ⟨rfl, rfl, rfl, rfl⟩

end PrefixPattern
