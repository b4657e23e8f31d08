import Mathlib.Data.Finset.Card
import PrefixPattern.Pattern

/-!
# The set of words that a trie holds

`Node.contains` follows a word down from a node.  This file says what insertion does to it, and from
that what the trie of a list of strings holds and counts.

## What is here

* `Branches.find?_put`, `Node.contains_cons` — one step down a row.
* `Node.contains_insert` — insertion adds the inserted word and no other.
* `Trie.insertNew_eq` — the walk that adds a string finds out whether it is new.
* `Trie.Represents t S` — the trie `t` holds exactly the finite set `S` and knows its cardinality;
  `Trie.represents_insert` keeps it, and `Trie.represents_ofList` has it of the trie of any list.
* `Trie.gather_eq`, `Pattern.compile_eq` — compilation with its three outcomes told apart by the
  list alone.
-/

set_option autoImplicit false

namespace PrefixPattern

namespace Branches

/-- A row leads where it was told to, and elsewhere as before. -/
theorem find?_put (c : Char) (n : Node) (row : Branches) (d : Char) :
    (row.put c n).find? d = if d = c then some n else row.find? d := by
  induction row with
  | nil => simp [put, find?]
  | cons e t below next _ ih =>
    rw [put]
    split
    · rw [find?]
    · split
      · rename_i hce
        subst hce
        simp only [find?]
        split <;> rfl
      · rename_i hce
        simp only [find?, ih]
        by_cases hde : d = e
        · have hdc : d ≠ c := fun h => hce (h ▸ hde)
          rw [if_pos hde, if_neg hdc, if_pos hde]
        · rw [if_neg hde, if_neg hde]

end Branches

namespace Node

@[simp] theorem contains_nil (n : Node) : n.contains [] = n.terminal := rfl

@[simp] theorem contains_empty (w : List Char) : empty.contains w = false := by
  cases w <;> rfl

/-- What a node holds below a character is what its child for that character holds. -/
theorem contains_cons (n : Node) (c : Char) (w : List Char) :
    n.contains (c :: w) = (n.child c).contains w := by
  rw [contains, at?, child]
  cases n.branches.find? c with
  | none => simp
  | some next => simp [contains]

/-- A node that holds a word is terminal or goes on. -/
theorem live_of_contains {n : Node} {w : List Char} (h : n.contains w = true) :
    n.terminal = true ∨ n.branches ≠ .nil := by
  cases w with
  | nil => exact Or.inl h
  | cons c w =>
    refine Or.inr fun hnil => ?_
    rw [contains_cons, child, hnil, Branches.find?, Option.getD_none, contains_empty] at h
    cases h

theorem child_put (t : Bool) (row : Branches) (c : Char) (m : Node) (d : Char) :
    child ⟨t, row.put c m⟩ d = if d = c then m else child ⟨t, row⟩ d := by
  simp only [child, Branches.find?_put]
  split <;> rfl

/-- **Insertion adds one word.**  No other word becomes a member, and none is lost. -/
theorem contains_insert (n : Node) (w v : List Char) :
    (n.insert w).contains v = true ↔ v = w ∨ n.contains v = true := by
  induction w generalizing n v with
  | nil =>
    cases v with
    | nil => simp [insert_nil]
    | cons d v => rw [insert_nil, contains_cons, contains_cons]; simp [child]
  | cons c w ih =>
    rw [insert_cons]
    cases v with
    | nil => simp
    | cons d v =>
      rw [contains_cons, contains_cons, child_put]
      by_cases hdc : d = c
      · subst hdc
        rw [if_pos rfl, ih]
        simp
      · rw [if_neg hdc]
        simp [hdc, child]

/-- The walk to the end of a word, which makes the nodes that are missing, ends at a terminal node
just where the word was there before. -/
theorem terminal_descend (n : Node) (w : List Char) (passed : List (Node × Char)) :
    (n.descend w passed).2.terminal = n.contains w := by
  induction w generalizing n passed with
  | nil => rfl
  | cons c w ih => rw [descend, ih, contains_cons]

end Node

namespace Trie

/-- **The one walk along a string** tells whether it is a member, and adds it if it is not. -/
theorem insertNew_eq (t : Trie) (s : String) :
    t.insertNew s =
      if t.contains s then (false, t) else (true, ⟨t.root.insert s.toList, t.size + 1⟩) := by
  rw [contains, ← Node.terminal_descend t.root s.toList []]
  rfl

/-- The trie holds exactly the strings of a finite set, and knows how many they are. -/
structure Represents (t : Trie) (S : Finset String) : Prop where
  contains_iff : ∀ s, t.contains s = true ↔ s ∈ S
  size_eq : t.size = S.card

theorem represents_empty : empty.Represents ∅ where
  contains_iff s := by simp [contains, empty]
  size_eq := rfl

theorem contains_insert (t : Trie) (s u : String) :
    (t.insert s).contains u = true ↔ u = s ∨ t.contains u = true := by
  rw [insert, insertNew_eq]
  by_cases h : t.contains s = true
  · rw [if_pos h]
    refine ⟨?_, ?_⟩
    · exact Or.inr
    · rintro (rfl | hu)
      · exact h
      · exact hu
  · rw [if_neg h]
    simp only [contains, Node.contains_insert, String.toList_inj]

/-- **Insertion is insertion into the set**, for the members and for their number. -/
theorem represents_insert {t : Trie} {S : Finset String} (h : t.Represents S) (s : String) :
    (t.insert s).Represents (Insert.insert s S) where
  contains_iff u := by rw [contains_insert, h.contains_iff, Finset.mem_insert]
  size_eq := by
    rw [insert, insertNew_eq]
    by_cases hs : t.contains s = true
    · rw [if_pos hs, Finset.insert_eq_of_mem ((h.contains_iff s).1 hs)]
      exact h.size_eq
    · have hnew : s ∉ S := fun hmem => hs ((h.contains_iff s).2 hmem)
      rw [if_neg hs, Finset.card_insert_of_notMem hnew, ← h.size_eq]

theorem represents_foldl {t : Trie} {S : Finset String} (h : t.Represents S) (l : List String) :
    (l.foldl insert t).Represents (S ∪ l.toFinset) := by
  induction l generalizing t S with
  | nil => simpa using h
  | cons s l ih =>
    have hstep := ih (represents_insert h s)
    rwa [Finset.insert_union, ← Finset.union_insert, ← List.toFinset_cons] at hstep

/-- The trie of a list holds the strings of the list. -/
theorem represents_ofList (l : List String) : (ofList l).Represents l.toFinset := by
  have h := represents_foldl represents_empty l
  rwa [Finset.empty_union] at h

theorem contains_ofList (l : List String) (s : String) :
    (ofList l).contains s = true ↔ s ∈ l := by
  rw [(represents_ofList l).contains_iff, List.mem_toFinset]

theorem root_ofList_singleton (s : String) : (ofList [s]).root = Node.empty.insert s.toList := by
  simp [ofList, insert, insertNew_eq, contains, empty]

theorem isEmpty_ofList (l : List String) : (ofList l).isEmpty = true ↔ l = [] := by
  rw [isEmpty, beq_iff_eq, (represents_ofList l).size_eq, Finset.card_eq_zero,
    List.toFinset_eq_empty_iff]

/-- Gathering fails exactly when an empty string is there and is rejected, wherever it stands. -/
theorem gather_eq (policy : EmptyMember) (l : List String) (t : Trie) :
    gather policy l t =
      if "" ∈ l ∧ policy = .reject then .error .emptyMember else .ok (l.foldl insert t) := by
  induction l generalizing t with
  | nil => simp [gather]
  | cons s l ih =>
    rw [gather]
    by_cases h : s = "" ∧ policy = .reject
    · rw [if_pos h, if_pos ⟨by simp [h.1], h.2⟩]
    · rw [if_neg h, ih]
      congr 1
      simp only [List.mem_cons, eq_iff_iff, and_congr_left_iff]
      intro hp
      exact ⟨Or.inr, fun hmem => hmem.resolve_left fun hs => h ⟨hs.symm, hp⟩⟩

end Trie

/-- Which of its three outcomes a compilation has depends on the list alone. -/
theorem Pattern.compile_eq (l : List String) (o : CompileOptions) :
    Pattern.compile l o =
      if "" ∈ l ∧ o.emptyMember = .reject then .error .emptyMember
      else if l = [] then .error .emptySet
      else .ok (Pattern.ofTrie (Trie.ofList l) o.forceWrap) := by
  rw [Pattern.compile, Trie.gather_eq]
  by_cases h : "" ∈ l ∧ o.emptyMember = .reject
  · rw [if_pos h, if_pos h]
  · rw [if_neg h, if_neg h]
    by_cases hl : l = []
    · rw [if_pos hl]
      exact if_pos ((Trie.isEmpty_ofList l).2 hl)
    · rw [if_neg hl]
      exact if_neg fun he => hl ((Trie.isEmpty_ofList l).1 he)

theorem Pattern.eq_ofTrie_of_compile {l : List String} {o : CompileOptions} {p : Pattern}
    (h : Pattern.compile l o = .ok p) : p = Pattern.ofTrie (Trie.ofList l) o.forceWrap := by
  rw [Pattern.compile_eq] at h
  split at h
  · cases h
  · split at h
    · cases h
    · exact (Except.ok.inj h).symm

end PrefixPattern
