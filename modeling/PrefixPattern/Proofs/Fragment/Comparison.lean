import PrefixPattern.Proofs.Fragment.Order
import PrefixPattern.Proofs.Pattern.Exactness
import PrefixPattern.Proofs.Trie.Comparison

/-!
# Equal trees, equal texts

Two tries are equal just if they have come from the same strings.  The same is so of any two of
their nodes and the strings behind their prefixes, and there the fragments can be compared as well:
different nodes are never written as the same text.

## What is here

* `Node.eq_of_fragment_eq` — nodes with the same fragment are equal, if both lead to a word.
* `SameBehind` — the strings of two lists go on in the same ways behind two prefixes.
* `Node.tfae_same` — nodes of tries that are equal, hold the same, or are written as the same text.
* `Trie.comparison_exact` — these for tries whose rows ascend, and for tries whose rows come in any
  order.
-/

set_option autoImplicit false

namespace PrefixPattern

namespace Node

/-- **Different nodes are written differently.**  A node that leads to no word is written like one
that leads to the empty word alone, so both have to lead to one. -/
theorem eq_of_fragment_eq {a b : Node} (ha : a.Sound) (hb : b.Sound)
    (hla : a.terminal = true ∨ a.branches ≠ .nil) (hlb : b.terminal = true ∨ b.branches ≠ .nil)
    {force : Bool} (h : a.fragment force = b.fragment force) : a = b := by
  have hread : Regex.anchored (a.items force) = Regex.anchored (b.items force) := by
    have hparse := parse?_anchor_fragment a force
    rw [h, parse?_anchor_fragment] at hparse
    exact (Option.some.inj hparse).symm
  refine eq_of_contains ha hb fun w => ?_
  calc a.contains w = true ↔ (Regex.anchored (a.items force)).Found w := by
        rw [Regex.found_anchored, matches_items ha hla]
    _ ↔ (Regex.anchored (b.items force)).Found w := by rw [hread]
    _ ↔ b.contains w = true := by rw [Regex.found_anchored, matches_items hb hlb]

end Node

/-- The strings of two lists go on in the same ways behind two prefixes. -/
def SameBehind (l : List String) (p : List Char) (m : List String) (q : List Char) : Prop :=
  ∀ w : List Char, String.ofList (p ++ w) ∈ l ↔ String.ofList (q ++ w) ∈ m

namespace Node

variable {l m : List String} {p q : List Char} {a b : Node}

/-- Nodes are equal just if the same strings go on behind their prefixes. -/
theorem same_iff_sameBehind (ha : (Trie.ofList l).root.at? p = some a)
    (hb : (Trie.ofList m).root.at? q = some b) : a.same b = true ↔ SameBehind l p m q := by
  have hstandsa : a.StandsFor l p := (Trie.standsFor_root l).of_at? ha
  have hstandsb : b.StandsFor m q := (Trie.standsFor_root m).of_at? hb
  rw [same_iff]
  refine ⟨?_, fun h => eq_of_contains hstandsa.sound hstandsb.sound fun w => ?_⟩
  · rintro rfl w
    rw [← hstandsa.contains_iff, hstandsb.contains_iff]
  · rw [hstandsa.contains_iff, hstandsb.contains_iff]
    exact h w

/-- **Nodes that are equal, hold the same, or are written as the same text**, are so all at once. -/
theorem tfae_same (hl : l ≠ []) (hm : m ≠ []) (ha : (Trie.ofList l).root.at? p = some a)
    (hb : (Trie.ofList m).root.at? q = some b) (force : Bool) :
    [a.same b = true, SameBehind l p m q, a.fragment force = b.fragment force].TFAE := by
  tfae_have 1 ↔ 2 := same_iff_sameBehind ha hb
  tfae_have 1 → 3 := fun h => by rw [same_iff.1 h]
  tfae_have 3 → 1 := fun h => same_iff.2 <|
    eq_of_fragment_eq (sound_of_at? (Trie.sound_ofList l) ha) (sound_of_at? (Trie.sound_ofList m) hb)
      ((Trie.grown_ofList l).live_of_at? ha (Or.inr hl))
      ((Trie.grown_ofList m).live_of_at? hb (Or.inr hm)) h
  tfae_finish

end Node

namespace Trie

theorem beq_ofList_iff (l m : List String) :
    (ofList l == ofList m) = true ↔ ∀ s, s ∈ l ↔ s ∈ m := by
  rw [beq_iff_eq]
  refine ⟨fun h s => ?_, ofList_congr⟩
  rw [← contains_ofList, h, contains_ofList]

/-- **Comparing tries is comparing sets.**  Two tries are equal just if they have come from the same
strings.  If there are any strings, then two nodes are equal just if the same strings go on behind
their prefixes, and just if they are written as the same text, forced or not.  All this is so of
rows in ascending order, and of rows in any order. -/
theorem comparison_exact (l m : List String) :
    ((ofList l == ofList m) = true ↔ ∀ s, s ∈ l ↔ s ∈ m) ∧
      (l ≠ [] → m ≠ [] → ∀ p q a b, (ofList l).root.at? p = some a →
        (ofList m).root.at? q = some b → ∀ force,
          [a.same b = true, SameBehind l p m q, a.fragment force = b.fragment force].TFAE) ∧
      ∀ t u, Grown l t → Grown m u →
        (t.alike u = true ↔ ∀ s, s ∈ l ↔ s ∈ m) ∧
        (l ≠ [] → m ≠ [] → ∀ p q a b, t.root.at? p = some a → u.root.at? q = some b → ∀ force,
          [a.alike b = true, SameBehind l p m q, a.written force = b.written force].TFAE) := by
  refine ⟨beq_ofList_iff l m, fun hl hm p q a b ha hb force => Node.tfae_same hl hm ha hb force,
    fun t u ht hu => ⟨?_, fun hl hm p q a b ha hb force => ?_⟩⟩
  · rw [ht.alike_eq hu, beq_ofList_iff]
  · obtain ⟨hscattera, hplacea⟩ := ht.at?_sorted ha
    obtain ⟨hscatterb, hplaceb⟩ := hu.at?_sorted hb
    have hsorted := Node.tfae_same hl hm hplacea hplaceb force
    rwa [← String.toList_inj, Node.toList_fragment, Node.toList_fragment,
      ← Node.written_eq hscattera, ← Node.written_eq hscatterb,
      ← Node.alike_eq_same hscattera hscatterb] at hsorted

/-- Two lists with the same endings behind different characters, and a trie with a row that
descends next to one of the same strings with a row that ascends. -/
theorem comparison_exact_shared :
    (∃ a b, (ofList ["xab", "xa", "c"]).root.at? ['x'] = some a ∧
      (ofList ["ya", "yab"]).root.at? ['y'] = some b ∧ a.same b = true ∧
      SameBehind ["xab", "xa", "c"] ['x'] ["ya", "yab"] ['y'] ∧
      ∀ force, a.fragment force = b.fragment force) ∧
    let t : Trie := ⟨⟨false, .cons 'b' true .nil (.cons 'a' true .nil .nil)⟩, 2⟩
    t ≠ ofList ["a", "b"] ∧ t.alike (ofList ["a", "b"]) = true ∧
      ∀ force, t.root.written force = (ofList ["a", "b"]).root.written force := by
  refine ⟨?_, ?_⟩
  · let n : Node := ⟨false, .cons 'a' true (.cons 'b' true .nil .nil) .nil⟩
    have hx : (ofList ["xab", "xa", "c"]).root.at? ['x'] = some n := by decide +kernel
    have hy : (ofList ["ya", "yab"]).root.at? ['y'] = some n := by decide +kernel
    have hall := (comparison_exact _ _).2.1 (by decide) (by decide) _ _ _ _ hx hy
    have hsame : n.same n = true := Node.same_iff.2 rfl
    exact ⟨n, n, hx, hy, hsame, ((hall false).out 0 1).1 hsame,
      fun force => ((hall force).out 0 2).1 hsame⟩
  · intro t
    have hfirst : (ofList ["b"]).root = ⟨false, .cons 'b' true .nil .nil⟩ := by decide +kernel
    have hroot : (ofList ["b"]).root.Inserts ['a'] t.root := by
      rw [hfirst]
      refine .along .here (by decide) fun d => ?_
      by_cases ha : d = 'a'
      · subst ha
        rfl
      · simp [Branches.find?, ha]
    have hgrown : Grown ["b", "a"] t := .insert (grown_ofList ["b"]) ⟨hroot, by decide +kernel⟩
    obtain ⟨hsets, hnodes⟩ := (comparison_exact _ _).2.2 t _ hgrown (grown_ofList ["a", "b"])
    have hall := hnodes (by decide) (by decide) [] [] _ _ rfl rfl
    have hbehind : SameBehind ["b", "a"] [] ["a", "b"] [] := fun w => by simp [or_comm]
    exact ⟨by decide +kernel, hsets.2 fun s => by simp [or_comm],
      fun force => ((hall force).out 1 2).1 hbehind⟩

end Trie
end PrefixPattern
