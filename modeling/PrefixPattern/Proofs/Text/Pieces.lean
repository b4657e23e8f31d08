import Mathlib.Data.List.Basic

/-!
# Texts that are cut at a character

Lines are what is between line feeds, and the names of a path what is between slashes.

## What is here

* `notMem_of_mem_splitOn`, `subset_of_mem_splitOn` — a piece has no separator in it, and nothing
  that the text has not.
* `length_splitOn` — there is one piece more than there are separators.
* `splitOn_ended` — pieces that are each ended by a separator are found again.
-/

set_option autoImplicit false

namespace PrefixPattern

variable {sep : Char} {cs piece : List Char}

/-- The first piece goes on in front of its text, but for a separator. -/
theorem mem_splitOn_cons {c : Char} (h : piece ∈ (c :: cs).splitOn sep) :
    piece = [] ∨ piece ∈ cs.splitOn sep ∨
      c ≠ sep ∧ ∃ more ∈ cs.splitOn sep, piece = c :: more := by
  rw [List.splitOn_cons_eq_if_modifyHead] at h
  split at h
  · rcases List.mem_cons.1 h with hnil | hmem
    · exact Or.inl hnil
    · exact Or.inr (Or.inl hmem)
  · rename_i hc
    obtain ⟨first, rest, hpieces⟩ := List.exists_cons_of_ne_nil (List.splitOn_ne_nil sep cs)
    rw [hpieces, List.modifyHead_cons] at h
    rw [hpieces]
    rcases List.mem_cons.1 h with rfl | hmem
    · exact Or.inr (Or.inr ⟨fun heq => hc (beq_iff_eq.2 heq), first, List.mem_cons_self, rfl⟩)
    · exact Or.inr (Or.inl (List.mem_cons_of_mem _ hmem))

/-- No piece has the character at which the text was cut. -/
theorem notMem_of_mem_splitOn (h : piece ∈ cs.splitOn sep) : sep ∉ piece := by
  induction cs generalizing piece with
  | nil =>
    obtain rfl := List.mem_singleton.1 h
    exact List.not_mem_nil
  | cons c cs ih =>
    rcases mem_splitOn_cons h with rfl | hmem | ⟨hc, more, hmore, rfl⟩
    · exact List.not_mem_nil
    · exact ih hmem
    · rw [List.mem_cons, not_or]
      exact ⟨hc.symm, ih hmore⟩

/-- All characters of a piece are from the text. -/
theorem subset_of_mem_splitOn (h : piece ∈ cs.splitOn sep) : piece ⊆ cs := by
  induction cs generalizing piece with
  | nil =>
    obtain rfl := List.mem_singleton.1 h
    exact List.Subset.refl _
  | cons c cs ih =>
    rcases mem_splitOn_cons h with rfl | hmem | ⟨-, more, hmore, rfl⟩
    · exact List.nil_subset _
    · exact List.subset_cons_of_subset _ (ih hmem)
    · exact List.cons_subset_cons _ (ih hmore)

theorem length_splitOn (sep : Char) (cs : List Char) :
    (cs.splitOn sep).length = cs.count sep + 1 := by
  induction cs with
  | nil => rfl
  | cons c cs ih =>
    rw [List.splitOn_cons_eq_if_modifyHead, List.count_cons]
    split
    · rw [List.length_cons, ih]
    · rw [List.length_modifyHead, ih, Nat.add_zero]

theorem splitOn_ended {pieces : List (List Char)} (h : ∀ piece ∈ pieces, sep ∉ piece) :
    (pieces.flatMap (· ++ [sep])).splitOn sep = pieces ++ [[]] := by
  induction pieces with
  | nil => rfl
  | cons piece rest ih =>
    obtain ⟨hpiece, hrest⟩ := List.forall_mem_cons.1 h
    rw [List.flatMap_cons, List.append_assoc, List.singleton_append,
      List.splitOn_append_cons_self_of_not_mem hpiece, ih hrest]
    rfl

end PrefixPattern
