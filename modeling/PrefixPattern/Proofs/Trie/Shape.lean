import Mathlib.Data.Char
import PrefixPattern.Proofs.Trie.Membership

/-!
# The shape of a trie

A tree that insertion builds has its rows in ascending order, and every way down it ends at a
member. Such a tree is determined by the words that it holds, so neither the order nor the
repetitions in which the words came in can be seen in it.

## What is here

* `Branches.Sound`, `Node.Sound` — the invariant; `Node.sound_insert` keeps it and
  `Trie.sound_ofList` has it of the trie of any list.
* `Branches.Spells` — the words along a row by recursion on the tree, and `Node.contains_iff`, which
  says that a node holds those and, if it is terminal, the empty word.
* `Branches.eq_of_spells`, `Node.eq_of_contains` — sound trees with the same words are equal.
* `Trie.ofList_congr` — two lists of the same strings have the same trie.
-/

set_option autoImplicit false

namespace PrefixPattern

namespace Branches

/-- The row ascends, no branch ends in front of a member, and the same holds below. -/
def Sound : Branches → Prop
  | nil => True
  | cons c t below next =>
    (t = true ∨ below ≠ nil) ∧ (∀ d ∈ next.chars, c < d) ∧ Sound below ∧ Sound next

/-- The words that lead along the row to a terminal node. -/
def Spells : Branches → List Char → Prop
  | nil, _ => False
  | cons c t below next, w =>
    (∃ v, w = c :: v ∧ (v = [] ∧ t = true ∨ Spells below v)) ∨ Spells next w

/-! ## The invariant -/

theorem mem_chars_put {c d : Char} {n : Node} {row : Branches} :
    d ∈ (row.put c n).chars ↔ d = c ∨ d ∈ row.chars := by
  induction row with
  | nil => simp [put, chars]
  | cons e t below next _ ih =>
    rw [put]
    split
    · simp [chars]
    · split
      · rename_i hce
        subst hce
        simp [chars]
      · simp only [chars, List.mem_cons, ih]
        tauto

theorem put_ne_nil (c : Char) (n : Node) (row : Branches) : row.put c n ≠ nil := by
  cases row with
  | nil => simp [put]
  | cons d t below next => rw [put]; split <;> [simp; (split <;> simp)]

theorem sound_put {c : Char} {n : Node} {row : Branches} (hrow : row.Sound)
    (hn : n.branches.Sound) (hlive : n.terminal = true ∨ n.branches ≠ nil) :
    (row.put c n).Sound := by
  induction row with
  | nil => exact ⟨hlive, by simp [chars], hn, trivial⟩
  | cons e t below next _ ih =>
    obtain ⟨hl, hasc, hb, hnext⟩ := hrow
    rw [put]
    split
    · rename_i hlt
      refine ⟨hlive, ?_, hn, hl, hasc, hb, hnext⟩
      intro d hd
      rcases List.mem_cons.1 hd with rfl | hd
      · exact hlt
      · exact lt_trans hlt (hasc d hd)
    · split
      · rename_i hce
        subst hce
        exact ⟨hlive, hasc, hn, hnext⟩
      · rename_i hge hne
        refine ⟨hl, ?_, hb, ih hnext⟩
        intro d hd
        rcases mem_chars_put.1 hd with rfl | hd
        · exact lt_of_le_of_ne (not_lt.1 hge) (Ne.symm hne)
        · exact hasc d hd

theorem sound_of_find? {row : Branches} (h : row.Sound) {c : Char} {m : Node}
    (hm : row.find? c = some m) : m.branches.Sound := by
  induction row with
  | nil => cases hm
  | cons e t below next _ ih =>
    rw [find?] at hm
    split at hm
    · cases hm
      exact h.2.2.1
    · exact ih h.2.2.2 hm

/-! ## The words along a row -/

theorem not_spells_nil (row : Branches) : ¬ row.Spells [] := by
  induction row with
  | nil => exact id
  | cons c t below next _ ih =>
    rintro (⟨v, hv, _⟩ | h)
    · cases hv
    · exact ih h

theorem mem_chars_of_spells {row : Branches} {c : Char} {v : List Char}
    (h : row.Spells (c :: v)) : c ∈ row.chars := by
  induction row with
  | nil => exact h.elim
  | cons d t below next _ ih =>
    rcases h with ⟨u, hu, _⟩ | h
    · cases hu
      exact List.mem_cons_self
    · exact List.mem_cons_of_mem _ (ih h)

/-- In a sound row every branch leads to a member. -/
theorem exists_spells_of_mem {row : Branches} (h : row.Sound) {c : Char} (hc : c ∈ row.chars) :
    ∃ v, row.Spells (c :: v) := by
  induction row generalizing c with
  | nil => cases hc
  | cons d t below next ihb ihn =>
    obtain ⟨hlive, -, hb, hnext⟩ := h
    rcases List.mem_cons.1 hc with rfl | hc
    · cases below with
      | nil => exact ⟨[], Or.inl ⟨[], rfl, Or.inl ⟨rfl, hlive.resolve_right fun hne => hne rfl⟩⟩⟩
      | cons e u low more =>
        obtain ⟨v, hv⟩ := ihb hb List.mem_cons_self
        exact ⟨e :: v, Or.inl ⟨e :: v, rfl, Or.inr hv⟩⟩
    · obtain ⟨v, hv⟩ := ihn hnext hc
      exact ⟨v, Or.inr hv⟩

/-- In a sound row the first branch has the words that begin with its character to itself. -/
theorem spells_cons_head {c : Char} {t : Bool} {below next : Branches}
    (h : (cons c t below next).Sound) {v : List Char} :
    (cons c t below next).Spells (c :: v) ↔ v = [] ∧ t = true ∨ below.Spells v := by
  refine ⟨?_, ?_⟩
  · rintro (⟨u, hu, hv⟩ | hv)
    · cases hu
      exact hv
    · exact absurd (h.2.1 c (mem_chars_of_spells hv)) (lt_irrefl c)
  · exact fun hv => Or.inl ⟨v, rfl, hv⟩

/-- The words of the other branches are the ones that begin otherwise. -/
theorem spells_cons_tail {c : Char} {t : Bool} {below next : Branches}
    (h : (cons c t below next).Sound) {w : List Char} :
    next.Spells w ↔ (cons c t below next).Spells w ∧ ∀ v, w ≠ c :: v := by
  refine ⟨?_, ?_⟩
  · intro hw
    refine ⟨Or.inr hw, ?_⟩
    rintro v rfl
    exact absurd (h.2.1 c (mem_chars_of_spells hw)) (lt_irrefl c)
  · rintro ⟨⟨v, hv, _⟩ | hw, hne⟩
    · exact absurd hv (hne v)
    · exact hw

/-- The least character of a sound row is the least first character of its words. -/
theorem head_le_of_spells {c : Char} {t : Bool} {below next : Branches}
    (h : (cons c t below next).Sound) {d : Char} {v : List Char}
    (hv : (cons c t below next).Spells (d :: v)) : c ≤ d := by
  rcases List.mem_cons.1 (mem_chars_of_spells hv) with rfl | hd
  · exact le_refl _
  · exact le_of_lt (h.2.1 d hd)

/-- **Sound rows with the same words are equal.** -/
theorem eq_of_spells {a b : Branches} (ha : a.Sound) (hb : b.Sound)
    (h : ∀ w, a.Spells w ↔ b.Spells w) : a = b := by
  induction a generalizing b with
  | nil =>
    cases b with
    | nil => rfl
    | cons d u below next =>
      obtain ⟨v, hv⟩ := exists_spells_of_mem hb List.mem_cons_self
      exact ((h _).2 hv).elim
  | cons c t below next ihb ihn =>
    obtain ⟨v, hv⟩ := exists_spells_of_mem ha List.mem_cons_self
    cases b with
    | nil => exact ((h _).1 hv).elim
    | cons d u below' next' =>
      obtain ⟨v', hv'⟩ := exists_spells_of_mem hb List.mem_cons_self
      have hcd : c = d :=
        le_antisymm (head_le_of_spells ha ((h _).2 hv')) (head_le_of_spells hb ((h _).1 hv))
      subst hcd
      have hhead : ∀ v,
          (v = [] ∧ t = true ∨ below.Spells v) ↔ (v = [] ∧ u = true ∨ below'.Spells v) :=
        fun v => by rw [← spells_cons_head ha, ← spells_cons_head hb, h]
      have htu : t = u := by
        have hnil := hhead []
        simp only [true_and, not_spells_nil, or_false] at hnil
        exact Bool.eq_iff_iff.2 hnil
      have hbelow : below = below' := by
        refine ihb ha.2.2.1 hb.2.2.1 fun w => ?_
        cases w with
        | nil => simp [not_spells_nil]
        | cons e w => simpa using hhead (e :: w)
      have hnext : next = next' := by
        refine ihn ha.2.2.2 hb.2.2.2 fun w => ?_
        rw [spells_cons_tail ha, spells_cons_tail hb, h]
      rw [htu, hbelow, hnext]

end Branches

namespace Node

/-- What is below the node is a sound row. -/
def Sound (n : Node) : Prop := n.branches.Sound

theorem sound_child {n : Node} (h : n.Sound) (c : Char) : (n.child c).Sound := by
  rw [child]
  cases hm : n.branches.find? c with
  | none => exact trivial
  | some m => exact Branches.sound_of_find? h hm

/-- Insertion keeps a tree sound, and leaves a node that is terminal or goes on. -/
theorem sound_insert {n : Node} (h : n.Sound) (w : List Char) :
    (n.insert w).Sound ∧ ((n.insert w).terminal = true ∨ (n.insert w).branches ≠ .nil) := by
  induction w generalizing n with
  | nil => exact ⟨h, Or.inl rfl⟩
  | cons c w ih =>
    obtain ⟨hs, hl⟩ := ih (sound_child h c)
    rw [insert_cons]
    exact ⟨Branches.sound_put h hs hl, Or.inr (Branches.put_ne_nil _ _ _)⟩

/-- A node holds the words along its row and, if it is terminal, the empty word. -/
theorem contains_iff {n : Node} (h : n.Sound) (w : List Char) :
    n.contains w = true ↔ w = [] ∧ n.terminal = true ∨ n.branches.Spells w := by
  obtain ⟨t, row⟩ := n
  induction row generalizing t w with
  | nil => cases w <;> simp [contains_cons, child, Branches.find?, Branches.Spells]
  | cons d u below next ihb ihn =>
    cases w with
    | nil => simp [Branches.not_spells_nil]
    | cons c v =>
      by_cases hcd : c = d
      · subst hcd
        rw [Branches.spells_cons_head h, contains_cons, child]
        simpa [Branches.find?] using ihb v u h.2.2.1
      · have hnext := ihn (c :: v) t h.2.2.2
        have htail := Branches.spells_cons_tail h (w := c :: v)
        rw [contains_cons, child] at hnext ⊢
        rw [Branches.find?, if_neg hcd, hnext]
        simp only [htail]
        simp [hcd]

/-- **A sound tree is determined by its words.** -/
theorem eq_of_contains {m n : Node} (hm : m.Sound) (hn : n.Sound)
    (h : ∀ w, m.contains w = true ↔ n.contains w = true) : m = n := by
  have hterm : m.terminal = n.terminal := Bool.eq_iff_iff.2 (h [])
  have hrow : m.branches = n.branches := by
    refine Branches.eq_of_spells hm hn fun w => ?_
    cases w with
    | nil => simp [Branches.not_spells_nil]
    | cons c v => simpa [contains_iff hm, contains_iff hn] using h (c :: v)
  cases m
  cases n
  simp_all

end Node

namespace Trie

theorem sound_foldl {t : Trie} (h : t.root.Sound) (l : List String) :
    (l.foldl insert t).root.Sound := by
  induction l generalizing t with
  | nil => exact h
  | cons s l ih =>
    refine ih ?_
    rw [insert, insertNew_eq]
    split
    · exact h
    · exact (Node.sound_insert h _).1

theorem sound_ofList (l : List String) : (ofList l).root.Sound :=
  sound_foldl (show Trie.empty.root.Sound from trivial) l

theorem root_contains_ofList (l : List String) (w : List Char) :
    (ofList l).root.contains w = true ↔ String.ofList w ∈ l := by
  rw [← contains_ofList, contains, String.toList_ofList]

/-- **Order and repetition leave no trace**: lists of the same strings have the same trie. -/
theorem ofList_congr {l m : List String} (h : ∀ s, s ∈ l ↔ s ∈ m) : ofList l = ofList m := by
  have hroot : (ofList l).root = (ofList m).root :=
    Node.eq_of_contains (sound_ofList l) (sound_ofList m) fun w => by
      rw [root_contains_ofList, root_contains_ofList, h]
  have hsize : (ofList l).size = (ofList m).size := by
    rw [(represents_ofList l).size_eq, (represents_ofList m).size_eq]
    exact congrArg Finset.card (Finset.ext fun s => by simp [h])
  cases hl : ofList l
  cases hm : ofList m
  simp_all

end Trie
end PrefixPattern
