import PrefixPattern.Proofs.Lines
import PrefixPattern.Proofs.Text.Pieces

/-!
# Strings that can be kept one per line

A file with strings one per line can be laid out in many ways: every line has an end of its own
kind, there may be blank lines, and the last line need not be ended.  None of this can be seen in
what is read.  What can be seen is whether the strings are fit for it: an empty string leaves no
trace, a string with a line feed comes back in pieces, and one with a carriage return at its end
comes back shorter.

## What is here

* `notMem_of_mem_memberTexts`, `mem_kept_iff` — a member that was read is not empty and has no line
  feed.
* `length_memberOfLine_add_le`, `OnePerLine.totalLength_add_le` — carriage returns at the end of
  strings are missing from what is read, on one line and in the whole file.
* `parseLines_eq_self_iff` — a file with strings one per line is read as these strings exactly if
  each of them fits on a line.
-/

set_option autoImplicit false

namespace PrefixPattern

/-! ## What a member can be -/

theorem dropReturn_subset (cs : List Char) : dropReturn cs ⊆ cs := by
  rw [dropReturn]
  split
  · exact List.dropLast_subset cs
  · exact List.Subset.refl cs

theorem memberOfLine_subset (terminated : Bool) (cs : List Char) :
    memberOfLine terminated cs ⊆ cs := by
  rw [memberOfLine]
  refine List.Subset.trans (dropReturn_subset _) ?_
  split
  · exact dropReturn_subset cs
  · exact List.Subset.refl cs

/-- What is left of pieces without a line feed has none either. -/
theorem notMem_of_mem_memberTexts {pieces : List (List Char)} {text : List Char}
    (hpieces : ∀ piece ∈ pieces, '\n' ∉ piece) (h : text ∈ memberTexts pieces) : '\n' ∉ text := by
  fun_induction memberTexts pieces with
  | case1 => cases h
  | case2 piece =>
    obtain rfl := List.mem_singleton.1 h
    exact fun hmem => hpieces _ List.mem_cons_self (memberOfLine_subset _ _ hmem)
  | case3 piece next rest ih =>
    obtain ⟨hpiece, hrest⟩ := List.forall_mem_cons.1 hpieces
    obtain rfl | h := List.mem_cons.1 h
    · exact fun hmem => hpiece (memberOfLine_subset _ _ hmem)
    · exact ih hrest h

theorem mem_kept_iff {texts : List (List Char)} {b : String} :
    b ∈ kept texts ↔ b ≠ "" ∧ b.toList ∈ texts := by
  simp only [kept, List.mem_map, List.mem_filter, decide_eq_true_eq]
  refine ⟨?_, ?_⟩
  · rintro ⟨text, ⟨hmem, hne⟩, rfl⟩
    exact ⟨by simpa using hne, by rwa [String.toList_ofList]⟩
  · rintro ⟨hne, hmem⟩
    exact ⟨b.toList, ⟨hmem, by simpa using hne⟩, String.ofList_toList⟩

/-! ## Carriage returns that are missing -/

theorem length_dropReturn_add (cs : List Char) :
    (dropReturn cs).length + (if cs.getLast? = some '\r' then 1 else 0) = cs.length := by
  rw [dropReturn]
  split
  · rename_i h
    have hne : cs ≠ [] := by
      rintro rfl
      cases h
    have hpos := List.length_pos_iff.2 hne
    rw [List.length_dropLast]
    omega
  · rfl

/-- A carriage return at the end of a string is missing from what is read of its line.  Another one
in front of it may be missing as well. -/
theorem length_memberOfLine_add_le (cs : List Char) (withReturn : Bool) :
    (memberOfLine true (cs ++ if withReturn then ['\r'] else [])).length +
      (if cs.getLast? = some '\r' then 1 else 0) ≤ cs.length := by
  have hcs := length_dropReturn_add cs
  rw [memberOfLine, if_pos rfl]
  cases withReturn with
  | false =>
    have hagain := length_dropReturn_add (dropReturn cs)
    rw [if_neg Bool.false_ne_true, List.append_nil]
    omega
  | true =>
    rw [if_pos rfl, dropReturn_concat, if_pos rfl]
    exact Nat.le_of_eq hcs

/-- **Every carriage return at the end of a string is missing from what is read.** -/
theorem OnePerLine.totalLength_add_le {members : List String} {cs : List Char}
    (h : OnePerLine members cs) (hfeed : ∀ b ∈ members, '\n' ∉ b.toList) :
    totalLength (memberTexts (cs.splitOn '\n')) +
        members.countP (fun b => b.toList.getLast? = some '\r') ≤
      totalLength (members.map String.toList) := by
  induction h with
  | nil => simp [memberTexts, memberOfLine, dropReturn, totalLength]
  | last b =>
    have hb := length_dropReturn_add b.toList
    rw [List.splitOn_eq_singleton (hfeed b List.mem_cons_self), memberTexts, memberOfLine,
      if_neg Bool.false_ne_true]
    simp only [totalLength, List.countP_cons, List.countP_nil, List.map_cons, List.map_nil,
      decide_eq_true_eq]
    omega
  | line b withReturn _ ih =>
    obtain ⟨hb, hmembers⟩ := List.forall_mem_cons.1 hfeed
    have hline := length_memberOfLine_add_le b.toList withReturn
    have hrest := ih hmembers
    rw [memberTexts_line hb]
    simp only [totalLength, List.countP_cons, List.map_cons, decide_eq_true_eq]
    omega
  | blank withReturn _ ih =>
    have hline := length_memberOfLine_add_le [] withReturn
    have hrest := ih hfeed
    rw [← List.nil_append (lineEnd withReturn), memberTexts_line List.not_mem_nil]
    simp only [totalLength, List.length_nil] at hline ⊢
    omega

/-! ## Reading what was written -/

/-- **What is written one per line is read back, whatever the layout**: with every mixture of line
ends, with blank lines in any places and with the last line ended or not, a file with strings one
per line is read as these strings exactly if each of them fits on a line. -/
theorem parseLines_eq_self_iff {members : List String} {text : String}
    (h : OnePerLine members text.toList) (path : String) :
    parseLines text.toUTF8 path = .ok members ↔ ∀ b ∈ members, FitsOnLine b := by
  refine ⟨fun heq b hb => ?_, fun hfits => h.parseLines hfits path⟩
  have hkept : kept (memberTexts (text.toList.splitOn '\n')) = members := by
    rw [parseLines_eq] at heq
    exact Except.ok.inj heq
  have hread : ∀ b ∈ members, b ≠ "" ∧ '\n' ∉ b.toList := by
    intro b hb
    rw [← hkept, mem_kept_iff] at hb
    exact ⟨hb.1, notMem_of_mem_memberTexts (fun _ => notMem_of_mem_splitOn) hb.2⟩
  -- nothing is missing from what was read, so no string has a carriage return at its end
  have hlength : totalLength (members.map String.toList) =
      totalLength (memberTexts (text.toList.splitOn '\n')) := by
    rw [← hkept, totalLength_kept]
  have hbound := h.totalLength_add_le fun b hb => (hread b hb).2
  have hnone : members.countP (fun b => b.toList.getLast? = some '\r') = 0 := by omega
  exact ⟨(hread b hb).1, (hread b hb).2, by simpa using List.countP_eq_zero.1 hnone b hb⟩

/-- Both ends of lines, blank lines of both kinds, blanks and carriage returns inside of strings,
and a last line that is not ended. -/
theorem parseLines_eq_self_iff_mixed :
    OnePerLine ["a\rb", " é ", "\t"] "\r\na\rb\r\n\n é \n\r\n\t".toList ∧
      (∀ b ∈ ["a\rb", " é ", "\t"], FitsOnLine b) ∧
      parseLines "\r\na\rb\r\n\n é \n\r\n\t".toUTF8 "x" = .ok ["a\rb", " é ", "\t"] := by
  have hlines : OnePerLine ["a\rb", " é ", "\t"] "\r\na\rb\r\n\n é \n\r\n\t".toList :=
    .blank true (.line "a\rb" true (.blank false (.line " é " false (.blank true (.last "\t")))))
  have hfits : ∀ b ∈ ["a\rb", " é ", "\t"], FitsOnLine b := by
    simp only [List.forall_mem_cons, List.not_mem_nil, false_implies, implies_true, and_true]
    exact ⟨⟨by decide, by decide, by decide⟩, ⟨by decide, by decide, by decide⟩,
      ⟨by decide, by decide, by decide⟩⟩
  exact ⟨hlines, hfits, (parseLines_eq_self_iff hlines "x").2 hfits⟩

end PrefixPattern
