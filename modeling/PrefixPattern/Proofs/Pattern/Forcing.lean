import PrefixPattern.Proofs.Pattern.Derivation
import PrefixPattern.Proofs.Pattern.Facts

/-!
# Patterns with and without a forced group

A set can be compiled with its outermost group forced or not.  Forcing puts parentheses around the
whole fragment where it would not be a group anyway, and does nothing elsewhere; no row further down
is written in another way.  Which sets have a fragment that is no group can be seen from their
strings.

## What is here

* `Branches.grouping_force_eq` — what forcing does to the grouping of one row.
* `Node.text_force_of_bare`, `Node.text_force_of_grouped` — what it does to the text of a node.
* `Pattern.IsUngrouped`, `Pattern.grouping_root_eq_bare_iff` — the sets without a group around them.
* `Pattern.compile_forced` — a set compiled in both ways.
-/

set_option autoImplicit false

namespace PrefixPattern

/-- Forcing makes a group of a bare row, and leaves any other row as it is. -/
theorem Branches.grouping_force_eq (row : Branches) (t : Bool) :
    row.grouping t true =
      if row.grouping t false = .bare then .group else row.grouping t false := by
  cases row with
  | nil => rfl
  | cons c u below next => cases next <;> cases t <;> rfl

namespace Node

variable {n : Node}

/-- A forced row is a group, and so is one that would be a group anyway. -/
theorem grouping_force_ne_bare_iff (n : Node) (force : Bool) :
    n.grouping force ≠ .bare ↔ force = true ∨ n.grouping false ≠ .bare := by
  cases force with
  | false => simp
  | true =>
    rw [grouping, Branches.grouping_force_eq, ← grouping]
    split <;> simp [*]

/-- Forcing puts parentheses around a bare fragment. -/
theorem text_force_of_bare (h : n.grouping false = .bare) :
    n.text true = '(' :: (n.text false ++ [')']) := by
  have hforce : n.grouping true = .group := by
    rw [grouping, Branches.grouping_force_eq, ← grouping, if_pos h]
  rw [text, text, hforce, h]
  simp [Grouping.enclose, Grouping.opening, Grouping.closing]

/-- A fragment that has its group is not changed by forcing. -/
theorem text_force_of_grouped (h : n.grouping false ≠ .bare) : n.text true = n.text false := by
  have hforce : n.grouping true = n.grouping false := by
    rw [grouping, Branches.grouping_force_eq, ← grouping, if_neg h]
  rw [text, text, hforce]

end Node

namespace Pattern

/-- The strings leave nothing to group at the beginning: the only one is the empty one, or they all
begin with the same character. -/
def IsUngrouped (l : List String) : Prop :=
  (∀ s, s ∈ l ↔ s = "") ∨ ∃ c, ∀ s ∈ l, s.toList.head? = some c

variable {l : List String}

/-- All strings begin with a character just where the trie has one branch and the empty string is
no member. -/
theorem exists_head_iff (hne : (Trie.ofList l).root.branches ≠ .nil) :
    (∃ c, ∀ s ∈ l, s.toList.head? = some c) ↔
      ¬ ((Trie.ofList l).root.terminal = true ∨ 1 < (Trie.ofList l).root.branches.chars.length) := by
  have hroot := Trie.standsFor_root l
  rw [hroot.terminal_iff, ← hroot.card_continuations, not_or]
  refine ⟨?_, ?_⟩
  · rintro ⟨c, hc⟩
    refine ⟨fun hempty => by simpa using hc _ hempty, ?_⟩
    have hsub : continuations l [] ⊆ {c} := by
      intro d hd
      obtain ⟨v, hv⟩ := mem_continuations.1 hd
      simpa using hc _ hv
    exact not_lt.2 (Finset.card_le_card hsub)
  · rintro ⟨hempty, hcard⟩
    obtain ⟨c, v, hv⟩ := Node.exists_contains_cons hroot.sound hne
    have hc : c ∈ continuations l [] := mem_continuations.2 ⟨v, (hroot.contains_iff _).1 hv⟩
    refine ⟨c, fun s hs => ?_⟩
    cases hs' : s.toList with
    | nil => exact absurd (by rwa [← hs', String.ofList_toList]) hempty
    | cons d w =>
      have hd : d ∈ continuations l [] := by
        refine mem_continuations.2 ⟨w, ?_⟩
        rwa [List.nil_append, ← hs', String.ofList_toList]
      rw [List.head?_cons, Finset.card_le_one.1 (not_lt.1 hcard) d hd c hc]

/-- **The sets without a group around them** are known from their strings. -/
theorem grouping_root_eq_bare_iff (hl : l ≠ []) :
    (Trie.ofList l).root.grouping false = .bare ↔ IsUngrouped l := by
  rw [IsUngrouped, ← root_branches_eq_nil_iff hl]
  by_cases hnil : (Trie.ofList l).root.branches = .nil
  · refine iff_of_true ?_ (Or.inl hnil)
    rw [Node.grouping, hnil]
    rfl
  · rw [Node.grouping_eq_bare_iff hnil, or_iff_right hnil, exists_head_iff hnil]
    simp

/-- **Forcing changes the outside alone.**  If a set can be compiled at all, then it can be compiled
with its group forced and without; the forced fragment is the other one in parentheses where that
has no group around it, and the same text elsewhere.  All that is told of the set is the same, and
so are the texts that are found. -/
theorem compile_forced {policy : EmptyMember} {force : Bool} {r : Pattern}
    (h : compile l ⟨force, policy⟩ = .ok r) :
    ∃ u w, compile l ⟨false, policy⟩ = .ok u ∧ compile l ⟨true, policy⟩ = .ok w ∧
      (IsUngrouped l → w.fragment = "(" ++ u.fragment ++ ")") ∧
      (¬ IsUngrouped l → w.fragment = u.fragment) ∧
      w.matchesEmpty = u.matchesEmpty ∧ w.members = u.members ∧
      ∃ e f, Regex.parse? u.anchored.toList = some e ∧ Regex.parse? w.anchored.toList = some f ∧
        ∀ t : String, (e.Found t.toList ↔ f.Found t.toList) ∧
          e.isFound t.toList = f.isFound t.toList := by
  obtain ⟨hl, hempty⟩ := exists_compile_eq_ok_iff.1 ⟨r, h⟩
  have hok : ∀ b, compile l ⟨b, policy⟩ = .ok (ofTrie (Trie.ofList l) b) := fun b => by
    rw [compile_eq, if_neg hempty, if_neg hl]
  have hbare := grouping_root_eq_bare_iff hl
  obtain ⟨e, he, hfound⟩ := compile_exact (hok false)
  obtain ⟨f, hf, hfound'⟩ := compile_exact (hok true)
  refine ⟨_, _, hok false, hok true, fun hu => ?_, fun hg => ?_, rfl, rfl, e, f, he, hf, fun t => ?_⟩
  · rw [← String.toList_inj, toList_fragment_of_compile (hok true),
      Node.text_force_of_bare (hbare.2 hu)]
    simp [ofTrie, Node.toList_fragment]
  · rw [← String.toList_inj, toList_fragment_of_compile (hok true),
      toList_fragment_of_compile (hok false), Node.text_force_of_grouped (mt hbare.1 hg)]
  · refine ⟨(hfound t).1.trans (hfound' t).1.symm, ?_⟩
    rw [Bool.eq_iff_iff, (hfound t).2, (hfound' t).2]

/-- Members that begin alike, with a sign behind the first character. -/
theorem compile_forced_alike :
    ∃ u w, compile ["a)", "a|b", "a"] {} = .ok u ∧ compile ["a)", "a|b", "a"] .wrapped = .ok w ∧
      w.fragment = "(" ++ u.fragment ++ ")" ∧ w.matchesEmpty = u.matchesEmpty ∧
      w.members = u.members ∧
      ∃ e f, Regex.parse? u.anchored.toList = some e ∧ Regex.parse? w.anchored.toList = some f ∧
        ∀ t : String, (e.Found t.toList ↔ f.Found t.toList) ∧
          e.isFound t.toList = f.isFound t.toList := by
  have h := compile_eq ["a)", "a|b", "a"] {}
  rw [if_neg (by decide), if_neg (by decide)] at h
  obtain ⟨u, w, hu, hw, hforced, -, hrest⟩ := compile_forced h
  exact ⟨u, w, hu, hw, hforced (Or.inr ⟨'a', by simp⟩), hrest⟩

end Pattern
end PrefixPattern
