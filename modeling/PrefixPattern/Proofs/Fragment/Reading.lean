import PrefixPattern.Proofs.Regex.Language
import PrefixPattern.Proofs.Trie.Shape

/-!
# Reading the fragment of a node

The text of a fragment is flat; the tree that it was written from comes back when it is read as an
expression.

## What is here

* `Grouping.items`, `Branches.items`, `Node.items` — the items that a fragment stands for, by
  recursion on the tree.
* `Branches.resume_text` — reading the text of a row adds the branches of the row to the group
  around it.
* `Node.readsAs_text` — a fragment is read as its items, wherever it stands.
* `Node.matches_items` — and these match the words that the node holds.

A row is only ever written bare when it has at most one branch; this is why a `|` never reaches the
group around a fragment.
-/

set_option autoImplicit false

namespace PrefixPattern

open Regex (ReadsAs resume)

/-- The items that branches become in their grouping. -/
def Grouping.items (g : Grouping) (branches : List (List Regex)) : List Regex :=
  match g with
  | bare => branches.flatten
  | group => [.group true (Regex.ofBranches branches)]
  | optional => [.rep .optional (.group true (Regex.ofBranches branches))]

/-- The items of each branch of a row. -/
def Branches.items : Branches → List (List Regex)
  | nil => []
  | cons c t below next => (.lit c :: (below.grouping t false).items below.items) :: next.items

/-- The items that the fragment of a node stands for. -/
def Node.items (n : Node) (force : Bool) : List Regex :=
  (n.grouping force).items n.branches.items

namespace Branches

/-- A row is bare only if it has at most one branch. -/
theorem addBranches_items_of_bare {row : Branches} {t force : Bool}
    (h : row.grouping t force = .bare) (g : OpenGroup) :
    g.addBranches row.items = g.addItems row.items.flatten := by
  cases row with
  | nil => rfl
  | cons c u below next =>
    cases next with
    | nil => simp [items, OpenGroup.addBranches]
    | cons d v low more =>
      rw [grouping] at h
      split at h <;> cases h

/-- The text of a row does not begin with a question mark. -/
theorem head?_text_append {row : Branches} {rest : List Char} (h : rest.head? ≠ some '?') :
    (row.text ++ rest).head? ≠ some '?' := by
  cases row with
  | nil => exact h
  | cons c t below next =>
    rw [text, List.append_assoc, List.append_assoc, List.append_assoc]
    exact Regex.head?_literal_append c _

/-! ## Reading -/

/-- If the text of a row is read as its branches, then in parentheses it is read as a group,
whatever follows. -/
theorem resume_group {row : Branches}
    (hrow : ∀ rest, rest.head? ≠ some '?' → ∀ g around,
      resume (row.text ++ rest) g around = resume rest (g.addBranches row.items) around)
    (rest : List Char) (g : OpenGroup) (around : List OpenGroup) :
    resume ('(' :: (row.text ++ ')' :: rest)) g around =
      resume rest (g.push (.group true (Regex.ofBranches row.items))) around := by
  rw [Regex.resume_open _ _ (head?_text_append (by simp)), hrow _ (by simp), Regex.resume_close,
    OpenGroup.captures_addBranches, OpenGroup.close_addBranches_empty]

/-- If the text of a row is read as its branches, then with its grouping around it is read as the
items that they become. -/
theorem resume_enclose {row : Branches} {t force : Bool}
    (hrow : ∀ rest, rest.head? ≠ some '?' → ∀ g around,
      resume (row.text ++ rest) g around = resume rest (g.addBranches row.items) around) :
    ReadsAs ((row.grouping t force).enclose row.text) ((row.grouping t force).items row.items) := by
  intro rest h g around
  rw [Grouping.enclose, List.append_assoc, List.append_assoc]
  cases hg : row.grouping t force with
  | bare =>
    rw [Grouping.opening, Grouping.closing, List.nil_append, List.nil_append, hrow rest h,
      addBranches_items_of_bare hg]
    rfl
  | group => exact resume_group hrow rest g around
  | optional =>
    have hmark := Regex.resume_repetition g around .optional
      (.group true (Regex.ofBranches row.items)) h
    exact (resume_group hrow _ g around).trans hmark

/-- **The text of a row is read as its branches.** -/
theorem resume_text (row : Branches) (rest : List Char) (h : rest.head? ≠ some '?') (g : OpenGroup)
    (around : List OpenGroup) :
    resume (row.text ++ rest) g around = resume rest (g.addBranches row.items) around := by
  induction row generalizing rest g around with
  | nil => rfl
  | cons c t below next ihb ihn =>
    have hbelow : ReadsAs ((below.grouping t false).enclose below.text)
        ((below.grouping t false).items below.items) := resume_enclose ihb
    rw [text, List.append_assoc, List.append_assoc, List.append_assoc, Regex.resume_literal]
    cases next with
    | nil =>
      rw [separator, text, List.nil_append, List.nil_append, hbelow rest h, items, items,
        OpenGroup.addBranches, OpenGroup.addItems_cons]
    | cons d u low more =>
      rw [separator, List.singleton_append, hbelow _ (by simp), Regex.resume_bar, ihn rest h]
      simp only [items, OpenGroup.addBranches, OpenGroup.addItems_cons]

end Branches

namespace Node

/-- **A fragment is read as its items**, wherever it stands. -/
theorem readsAs_text (n : Node) (force : Bool) : ReadsAs (n.text force) (n.items force) :=
  Branches.resume_enclose (Branches.resume_text n.branches)

/-- The anchored fragment of a node can be read. -/
theorem parse?_anchor_fragment (n : Node) (force : Bool) :
    Regex.parse? (anchor (n.fragment force)).toList = some (Regex.anchored (n.items force)) := by
  refine Regex.ReadsAs.parse?_anchor ?_
  rw [toList_fragment]
  exact readsAs_text n force

end Node

/-! ## Matching -/

variable {p w s : List Char}

open Regex (Matches ofItems ofBranches)

namespace Branches

/-- A row with a branch is optional exactly below a terminal node. -/
theorem grouping_eq_optional_iff {row : Branches} (hne : row ≠ nil) (t force : Bool) :
    row.grouping t force = .optional ↔ t = true := by
  cases row with
  | nil => exact absurd rfl hne
  | cons c u below next => cases next <;> cases t <;> cases force <;> simp [grouping]

/-- If the branches of a row match its words, then in their grouping they match these and, below a
terminal node, the empty word. -/
theorem matches_grouping {row : Branches} {t force : Bool} (hlive : t = true ∨ row ≠ nil)
    (hrow : (∃ b ∈ row.items, Matches (ofItems b) p w s) ↔ row.Spells w) :
    Matches (ofItems ((row.grouping t force).items row.items)) p w s ↔
      w = [] ∧ t = true ∨ row.Spells w := by
  cases row with
  | nil =>
    have ht : t = true := hlive.resolve_right fun h => h rfl
    cases force <;>
      simp [grouping, Grouping.items, items, Spells, ofItems, ofBranches, Regex.chain, ht]
  | cons c u below next =>
    have hne : (cons c u below next).items ≠ [] := List.cons_ne_nil _ _
    have hopt : (cons c u below next).grouping t force = .optional ↔ t = true :=
      grouping_eq_optional_iff (by simp) t force
    cases hg : (cons c u below next).grouping t force with
    | bare =>
      have ht : t = false := by simpa [hg] using hopt
      cases next with
      | nil => simpa [Grouping.items, items, ht] using hrow
      | cons d v low more => rw [grouping, ht] at hg; cases hg
    | group =>
      have ht : t = false := by simpa [hg] using hopt
      rw [← hrow, ht]
      simp [Grouping.items, ofItems, Regex.chain, Regex.matches_ofBranches hne]
    | optional =>
      have ht : t = true := hopt.1 hg
      rw [← hrow, ht]
      simp [Grouping.items, ofItems, Regex.chain, Regex.matches_optional,
        Regex.matches_ofBranches hne]

/-- **The branches of a sound row match its words.** -/
theorem matches_items {row : Branches} (h : row.Sound) :
    (∃ b ∈ row.items, Matches (ofItems b) p w s) ↔ row.Spells w := by
  induction row generalizing p w s with
  | nil => simp [items, Spells]
  | cons c t below next ihb ihn =>
    obtain ⟨hlive, -, hb, hnext⟩ := h
    have hhead : Matches (ofItems (.lit c :: (below.grouping t false).items below.items)) p w s ↔
        ∃ v, w = c :: v ∧ (v = [] ∧ t = true ∨ below.Spells v) := by
      rw [Regex.matches_ofItems_cons]
      refine ⟨?_, ?_⟩
      · rintro ⟨u, v, rfl, hu, hv⟩
        obtain rfl := Regex.matches_lit.1 hu
        exact ⟨v, rfl, (matches_grouping hlive (ihb hb)).1 hv⟩
      · rintro ⟨v, rfl, hv⟩
        exact ⟨[c], v, rfl, .lit, (matches_grouping hlive (ihb hb)).2 hv⟩
    simp only [items, List.mem_cons, exists_eq_or_imp, hhead, ihn hnext, Spells]

end Branches

/-- **The items of a fragment match the words that the node holds**, wherever they stand. -/
theorem Node.matches_items {n : Node} (h : n.Sound)
    (hlive : n.terminal = true ∨ n.branches ≠ .nil) (force : Bool) :
    Matches (ofItems (n.items force)) p w s ↔ n.contains w = true := by
  rw [Node.contains_iff h]
  exact Branches.matches_grouping hlive (Branches.matches_items h)

end PrefixPattern
