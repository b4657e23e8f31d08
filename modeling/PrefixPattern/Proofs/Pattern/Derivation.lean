import PrefixPattern.Proofs.Fragment.Grammar
import PrefixPattern.Proofs.Pattern.Exactness

/-!
# The derivation of a compiled pattern

A compiled pattern has exactly one derivation in the grammar of fragments, and no group of it could
be spared unless it was asked for.

## What is here

* `Pattern.root_branches_eq_nil_iff` — there is nothing to group just where the only string is the
  empty one.
* `Pattern.compile_derivation` — the derivation of a compiled pattern, for every list and all
  options.
-/

set_option autoImplicit false

namespace PrefixPattern
namespace Pattern

variable {l : List String} {o : CompileOptions} {p : Pattern}

/-- The root of the trie of a list is a leaf just where the only string is the empty one. -/
theorem root_branches_eq_nil_iff (hl : l ≠ []) :
    (Trie.ofList l).root.branches = .nil ↔ ∀ s, s ∈ l ↔ s = "" := by
  have hroot : ∀ w, (Trie.ofList l).root.contains w = true ↔ String.ofList w ∈ l :=
    Trie.root_contains_ofList l
  refine ⟨?_, ?_⟩
  · intro hleaf
    have hempty : ∀ s ∈ l, s = "" := by
      intro s hs
      rw [← String.ofList_toList (s := s), ← hroot] at hs
      exact String.toList_inj.1 (Node.eq_nil_of_leaf hleaf hs)
    obtain ⟨s, rest, rfl⟩ := List.exists_cons_of_ne_nil hl
    refine fun u => ⟨hempty u, ?_⟩
    rintro rfl
    exact hempty s List.mem_cons_self ▸ List.mem_cons_self
  · intro honly
    by_contra hne
    obtain ⟨c, w, hw⟩ := Node.exists_contains_cons (Trie.sound_ofList l) hne
    have hcons : String.ofList (c :: w) = "" := (honly _).1 ((hroot _).1 hw)
    simpa using congrArg String.toList hcons

/-- **A compiled pattern has one derivation, and a tidy one.**  In every group of it the branches
ascend, and there are several of them or they may be left out.  Only where a group is forced may the
pattern begin with one that has a single branch, and it is an empty group just where the only string
is the empty one. -/
theorem compile_derivation (h : compile l o = .ok p) :
    ∃ d : Grammar.Whole, (∀ e : Grammar.Whole, e.text = p.fragment.toList ↔ e = d) ∧
      d.Tidy o.forceWrap ∧ (d = .unit ↔ o.forceWrap = true ∧ ∀ s, s ∈ l ↔ s = "") := by
  obtain ⟨d, htext, htidy, hunit⟩ :=
    Node.exists_whole (Trie.sound_ofList l) o.forceWrap
  rw [toList_fragment_of_compile h]
  refine ⟨d, fun e => ⟨fun he => ?_, fun he => he ▸ htext⟩, htidy, ?_⟩
  · exact Grammar.Whole.text_inj (he.trans htext.symm)
  · rw [hunit, root_branches_eq_nil_iff (ne_nil_of_compile h), and_comm]

/-- Signs of the grammar among the strings, and strings that go on from each other. -/
theorem compile_derivation_hard :
    ∃ p, compile ["", "(a|b)?", "(a|b)", "\\", "é"]
        { forceWrap := true, emptyMember := .optional } = .ok p ∧
      ∃ d : Grammar.Whole, (∀ e : Grammar.Whole, e.text = p.fragment.toList ↔ e = d) ∧
        d.Tidy true ∧
        (d = .unit ↔ true = true ∧ ∀ s, s ∈ ["", "(a|b)?", "(a|b)", "\\", "é"] ↔ s = "") := by
  have h := compile_eq ["", "(a|b)?", "(a|b)", "\\", "é"]
    { forceWrap := true, emptyMember := .optional }
  rw [if_neg (by decide), if_neg (by decide)] at h
  exact ⟨_, h, compile_derivation h⟩

end Pattern
end PrefixPattern
