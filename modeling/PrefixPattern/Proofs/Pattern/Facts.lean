import Mathlib.Data.Set.Card
import PrefixPattern.Proofs.Pattern.Exactness

/-!
# What a pattern tells about its set

A pattern is more than its text: it says whether the empty string is a member, and how many members
there are.  The first is read off the root of the trie and the second off a counter beside it, while
the text comes from a walk over all nodes.  This file says that the three agree, with the list of
strings and with each other.

## What is here

* `Pattern.compile_eq_emptyMember_iff`, `Pattern.compile_eq_emptySet_iff`,
  `Pattern.exists_compile_eq_ok_iff` — the three outcomes of a compilation.
* `Pattern.matchesEmpty_iff`, `Pattern.members_eq_card` — what is told, in terms of the list.
* `Pattern.setOf_isFound` — the texts that a pattern is found in are a finite set.
* `Pattern.compile_facts` — outcomes, facts and text together.
-/

set_option autoImplicit false

namespace PrefixPattern
namespace Pattern

variable {l : List String} {o : CompileOptions} {p : Pattern}

/-! ## The three outcomes -/

/-- An empty string that is rejected is reported wherever it stands, and before anything else. -/
theorem compile_eq_emptyMember_iff :
    compile l o = .error .emptyMember ↔ "" ∈ l ∧ o.emptyMember = .reject := by
  rw [compile_eq]
  split
  · rename_i h
    exact iff_of_true rfl h
  · rename_i h
    refine iff_of_false ?_ h
    split <;> simp

/-- A list without strings has no empty one either, so no other error can come first. -/
theorem compile_eq_emptySet_iff : compile l o = .error .emptySet ↔ l = [] := by
  rw [compile_eq]
  split
  · rename_i h
    refine iff_of_false (by simp) ?_
    rintro rfl
    exact absurd h.1 List.not_mem_nil
  · split
    · rename_i hl
      exact iff_of_true rfl hl
    · rename_i hl
      exact iff_of_false (by simp) hl

theorem exists_compile_eq_ok_iff :
    (∃ p, compile l o = .ok p) ↔ l ≠ [] ∧ ¬ ("" ∈ l ∧ o.emptyMember = .reject) := by
  rw [← compile_eq_emptyMember_iff (l := l), Ne, ← compile_eq_emptySet_iff (o := o)]
  rcases compile l o with (_ | _) | p <;> simp

/-! ## What is told of the set -/

theorem matchesEmpty_iff (h : compile l o = .ok p) : p.matchesEmpty = true ↔ "" ∈ l := by
  rw [eq_ofTrie_of_compile h]
  exact Trie.root_contains_ofList l []

/-- The counter of the trie has counted every string once. -/
theorem members_eq_card (h : compile l o = .ok p) : p.members = l.toFinset.card := by
  rw [eq_ofTrie_of_compile h]
  exact (Trie.represents_ofList l).size_eq

/-- **The texts that a pattern is found in are the strings of the list.** -/
theorem setOf_isFound (h : compile l o = .ok p) :
    {t : String | (expression l o.forceWrap).isFound t.toList = true} = ↑l.toFinset := by
  ext t
  rw [Set.mem_ofPred_eq, Regex.isFound_iff_found, found_expression (ne_nil_of_compile h),
    List.coe_toFinset, Set.mem_ofPred_eq]

/-- **What a compilation tells is so.**  Which of its three outcomes it has is seen from the list.
If there is a pattern, it can be read; it is found in the empty text just if it says so, and in as
many different texts as it says. -/
theorem compile_facts (l : List String) (o : CompileOptions) :
    (compile l o = .error .emptyMember ↔ "" ∈ l ∧ o.emptyMember = .reject) ∧
      (compile l o = .error .emptySet ↔ l = []) ∧
      ((∃ p, compile l o = .ok p) ↔ l ≠ [] ∧ ¬ ("" ∈ l ∧ o.emptyMember = .reject)) ∧
      ∀ p, compile l o = .ok p →
        (p.matchesEmpty = true ↔ "" ∈ l) ∧ p.members = l.toFinset.card ∧
          ∃ r, Regex.parse? p.anchored.toList = some r ∧
            (p.matchesEmpty = true ↔ r.isFound [] = true) ∧
            {t : String | r.isFound t.toList = true}.encard = p.members := by
  refine ⟨compile_eq_emptyMember_iff, compile_eq_emptySet_iff, exists_compile_eq_ok_iff,
    fun p hp => ⟨matchesEmpty_iff hp, members_eq_card hp, _, parse?_of_compile hp, ?_, ?_⟩⟩
  · have hempty : "" ∈ {t : String | (expression l o.forceWrap).isFound t.toList = true} ↔
        "" ∈ l := by
      rw [setOf_isFound hp, List.coe_toFinset, Set.mem_ofPred_eq]
    rw [matchesEmpty_iff hp, ← hempty]
    rfl
  · rw [setOf_isFound hp, Set.encard_coe_eq_coe_finsetCard, members_eq_card hp]

/-- The empty string comes last and twice, and the others are prefixes of each other. -/
theorem compile_facts_hard :
    ∃ p, compile ["a)", "a", "", "a)b", "a", ""] { emptyMember := .optional } = .ok p ∧
      p.matchesEmpty = true ∧ p.members = 4 ∧
      ∃ r, Regex.parse? p.anchored.toList = some r ∧ r.isFound [] = true ∧
        {t : String | r.isFound t.toList = true}.encard = 4 := by
  obtain ⟨-, -, hok, hfacts⟩ :=
    compile_facts ["a)", "a", "", "a)b", "a", ""] { emptyMember := .optional }
  obtain ⟨p, hp⟩ := hok.2 ⟨by simp, by simp⟩
  obtain ⟨hempty, hmembers, r, hr, hfound, hcard⟩ := hfacts p hp
  have hmatches : p.matchesEmpty = true := hempty.2 (by simp)
  have hfour : p.members = 4 := by rw [hmembers]; decide
  rw [hfour] at hcard
  exact ⟨p, hp, hmatches, hfour, r, hr, hfound.1 hmatches, hcard⟩

end Pattern
end PrefixPattern
