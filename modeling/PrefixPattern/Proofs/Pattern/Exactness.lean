import PrefixPattern.Proofs.Fragment.Reading
import PrefixPattern.Proofs.Regex.Search

/-!
# A compiled pattern matches its set and nothing else

The three layers meet here: the set that a trie holds, the text that is written for it, and what
that text matches when it is read again.

## What is here

* `Pattern.expression` — the expression that an anchored pattern is read as, from the strings alone;
  `Pattern.parse?_of_compile` says that it is.
* `Pattern.found_expression` — the expression is found in the strings of the list and in no others.
* `Pattern.compile_exact` — both together, for every list and all options.
-/

set_option autoImplicit false

namespace PrefixPattern

namespace Pattern

variable {l : List String} {o : CompileOptions} {p : Pattern}

/-- The expression of the strings of a list, as their pattern is read. -/
def expression (l : List String) (force : Bool) : Regex :=
  .anchored ((Trie.ofList l).root.items force)

theorem ne_nil_of_compile (h : compile l o = .ok p) : l ≠ [] := by
  rintro rfl
  simp [compile_eq] at h

/-- What is written for a list of strings. -/
theorem toList_fragment_of_compile (h : compile l o = .ok p) :
    p.fragment.toList = (Trie.ofList l).root.text o.forceWrap := by
  rw [eq_ofTrie_of_compile h]
  exact Node.toList_fragment _ _

/-- An anchored pattern can be read, however deep it is. -/
theorem parse?_of_compile (h : compile l o = .ok p) :
    Regex.parse? p.anchored.toList = some (expression l o.forceWrap) := by
  rw [eq_ofTrie_of_compile h]
  exact Node.parse?_anchor_fragment (Trie.ofList l).root o.forceWrap

/-- The root of the trie of a list that is not empty is terminal or goes on. -/
theorem live_root (hl : l ≠ []) :
    (Trie.ofList l).root.terminal = true ∨ (Trie.ofList l).root.branches ≠ .nil := by
  obtain ⟨s, rest, rfl⟩ := List.exists_cons_of_ne_nil hl
  refine Node.live_of_contains (w := s.toList) ?_
  rw [Trie.root_contains_ofList, String.ofList_toList]
  exact List.mem_cons_self

/-- **The expression is found in the strings of the list and in no others.** -/
theorem found_expression (hl : l ≠ []) (force : Bool) (t : String) :
    (expression l force).Found t.toList ↔ t ∈ l := by
  rw [expression, Regex.found_anchored,
    Node.matches_items (Trie.sound_ofList l) (live_root hl), Trie.root_contains_ofList,
    String.ofList_toList]

/-- **Compilation is exact.**  Whatever the strings are and however they are compiled, the anchored
pattern can be read, and both what it means and what the search finds is the set of the strings. -/
theorem compile_exact (h : compile l o = .ok p) :
    ∃ r, Regex.parse? p.anchored.toList = some r ∧
      ∀ t : String, (r.Found t.toList ↔ t ∈ l) ∧ (r.isFound t.toList = true ↔ t ∈ l) := by
  refine ⟨_, parse?_of_compile h, fun t => ?_⟩
  rw [Regex.isFound_iff_found]
  exact ⟨found_expression (ne_nil_of_compile h) _ t, found_expression (ne_nil_of_compile h) _ t⟩

/-- Prefixes of each other, operators, a line feed and the empty string, all in one set. -/
theorem compile_exact_hard :
    ∃ p, compile ["a", "", "a|", "a|(\n)?"]
        { forceWrap := true, emptyMember := .optional } = .ok p ∧
      ∃ r, Regex.parse? p.anchored.toList = some r ∧
        ∀ t : String, (r.Found t.toList ↔ t ∈ ["a", "", "a|", "a|(\n)?"]) ∧
          (r.isFound t.toList = true ↔ t ∈ ["a", "", "a|", "a|(\n)?"]) := by
  have h := compile_eq ["a", "", "a|", "a|(\n)?"] { forceWrap := true, emptyMember := .optional }
  rw [if_neg (by decide), if_neg (by decide)] at h
  exact ⟨_, h, compile_exact h⟩

end Pattern
end PrefixPattern
