import PrefixPattern.Fragment
import PrefixPattern.Proofs.Trie.Scattered

/-!
# Writing rows that come in any order

A fragment does not depend on the order in which the branches of a node are kept, if they are put in
order as the node is written.

## What is here

* `Node.assemble` — what a node is written as, from the texts of its branches.
* `byChar` — the branches of one row in ascending order of their characters.
* `Node.written` — writing a node from rows in any order, each put in order when its turn comes.
* `Node.written_eq` — this is the text of the node with all its rows in ascending order.
-/

set_option autoImplicit false

namespace PrefixPattern

/-! ## Putting a row in order -/

/-- Pairs in ascending order of their characters. -/
def byChar {α : Type} (l : List (Char × α)) : List (Char × α) :=
  l.mergeSort fun a b => a.1 ≤ b.1

theorem pairwise_byChar {α : Type} (l : List (Char × α)) :
    (byChar l).Pairwise fun a b => decide (a.1 ≤ b.1) = true := by
  refine List.pairwise_mergeSort (fun a b c hab hbc => ?_) (fun a b => ?_) l
  · rw [decide_eq_true_iff] at hab hbc ⊢
    exact le_trans hab hbc
  · rw [Bool.or_eq_true, decide_eq_true_iff, decide_eq_true_iff]
    exact le_total a.1 b.1

/-- **Where no character is repeated, the order in which the pairs come leaves no trace.** -/
theorem byChar_congr {α : Type} {l m : List (Char × α)} (h : l.Perm m)
    (hnodup : (l.map Prod.fst).Nodup) : byChar l = byChar m := by
  have hl : (byChar l).Perm l := List.mergeSort_perm l _
  have hm : (byChar m).Perm l := (List.mergeSort_perm m _).trans h.symm
  refine List.Perm.eq_of_pairwise ?_ (pairwise_byChar l) (pairwise_byChar m) (hl.trans hm.symm)
  intro a b ha hb hab hba
  rw [decide_eq_true_iff] at hab hba
  exact List.inj_on_of_nodup_map hnodup (hl.subset ha) (hm.subset hb) (le_antisymm hab hba)

/-! ## Writing -/

/-- What a node is written as, from the texts of its branches. -/
def Node.assemble (terminal force : Bool) : List (List Char) → List Char
  | [] => if force then ['(', ')'] else []
  | [e] =>
    if terminal then '(' :: (e ++ [')', '?'])
    else if force then '(' :: (e ++ [')'])
    else e
  | e :: f :: rest =>
    '(' :: (['|'].intercalate (e :: f :: rest) ++ if terminal then [')', '?'] else [')'])

/-- The texts of the branches of a row, each with its character, in the order of the row.  The rows
below are put in order. -/
def Branches.written : Branches → List (Char × List Char)
  | nil => []
  | cons c t below next =>
    (c, Literal.ofChar c ++ Node.assemble t false ((byChar below.written).map Prod.snd)) ::
      next.written

/-- The text of a node, whose own row is put in order like those below it. -/
def Node.written (n : Node) (force : Bool) : List Char :=
  assemble n.terminal force ((byChar n.branches.written).map Prod.snd)

namespace Branches

theorem map_fst_written (row : Branches) : row.written.map Prod.fst = row.chars := by
  induction row with
  | nil => rfl
  | cons c t below next _ ih => rw [written, List.map_cons, ih, chars]

theorem written_put {c : Char} {n : Node} {row : Branches} (hc : c ∉ row.chars) :
    (row.put c n).written.Perm ((c, Literal.ofChar c ++ n.written false) :: row.written) := by
  induction row with
  | nil => exact List.Perm.refl _
  | cons d u below next _ ih =>
    obtain ⟨hcd, hnext⟩ := not_or.1 (mt List.mem_cons.2 hc)
    rw [put, if_neg hcd]
    split
    · exact List.Perm.refl _
    · rw [written, written]
      exact ((ih hnext).cons _).trans (List.Perm.swap _ _ _)

/-- Putting all rows in order puts their texts in another order and changes none of them. -/
theorem written_sorted {row : Branches} (h : row.Scattered) :
    row.sorted.written.Perm row.written := by
  induction row with
  | nil => exact List.Perm.refl _
  | cons c t below next ihb ihn =>
    obtain ⟨-, hc, hb, hn⟩ := h
    have hmem : c ∉ next.sorted.chars := by rwa [mem_chars_sorted]
    have hnodup : (below.sorted.written.map Prod.fst).Nodup := by
      rw [map_fst_written]
      exact nodup_chars (sound_sorted hb)
    have hbelow : Node.written ⟨t, below.sorted⟩ false = Node.written ⟨t, below⟩ false := by
      rw [Node.written, Node.written, byChar_congr (ihb hb) hnodup]
    -- the text of the branch is the same as before, and only its place in the row is another
    have hput := written_put (n := ⟨t, below.sorted⟩) hmem
    rw [hbelow] at hput
    exact hput.trans ((ihn hn).cons _)

/-! ## Rows in ascending order -/

theorem byChar_written {row : Branches} (h : row.Sound) : byChar row.written = row.written := by
  refine List.mergeSort_of_pairwise ?_
  induction row with
  | nil => exact List.Pairwise.nil
  | cons c t below next _ ih =>
    refine List.Pairwise.cons (fun a ha => ?_) (ih h.2.2.2)
    rw [decide_eq_true_iff]
    refine le_of_lt (h.2.1 a.1 ?_)
    rw [← map_fst_written]
    exact List.mem_map_of_mem ha

/-- The grouping of a row is the one that the texts of its branches are put together with. -/
theorem enclose_eq_assemble {row : Branches} {texts : List (List Char)} (t force : Bool)
    (hlength : texts.length = row.chars.length) (htext : row.text = ['|'].intercalate texts) :
    (row.grouping t force).enclose row.text = Node.assemble t force texts := by
  rw [htext]
  rcases row with _ | ⟨c, u, below, _ | ⟨d, v, low, more⟩⟩
  · obtain rfl : texts = [] := List.length_eq_zero_iff.1 hlength
    cases force <;> rfl
  · obtain ⟨e, rfl⟩ : ∃ e, texts = [e] := List.length_eq_one_iff.1 hlength
    cases t <;> cases force <;>
      simp [grouping, Grouping.enclose, Grouping.opening, Grouping.closing, Node.assemble]
  · obtain ⟨e, f, rest, rfl⟩ : ∃ e f rest, texts = e :: f :: rest := by
      rcases texts with _ | ⟨e, _ | ⟨f, rest⟩⟩
      · cases hlength
      · cases hlength
      · exact ⟨e, f, rest, rfl⟩
    cases t <;> cases force <;>
      simp [grouping, Grouping.enclose, Grouping.opening, Grouping.closing, Node.assemble]

theorem length_map_snd_written (row : Branches) :
    (row.written.map Prod.snd).length = row.chars.length := by
  rw [← map_fst_written, List.length_map, List.length_map]

/-- The text of a row in ascending order is that of its branches, separated by `|`. -/
theorem text_eq_intercalate {row : Branches} (h : row.Sound) :
    row.text = ['|'].intercalate (row.written.map Prod.snd) := by
  induction row with
  | nil => rfl
  | cons c t below next ihb ihn =>
    obtain ⟨-, -, hb, hn⟩ := h
    rw [text, enclose_eq_assemble t false (length_map_snd_written below) (ihb hb), ihn hn, written,
      byChar_written hb]
    cases next with
    | nil => simp [separator, written]
    | cons d u low more => simp [separator, written, List.intercalate_cons_cons]

end Branches

/-- **The order of the rows leaves no trace in the text.** -/
theorem Node.written_eq {n : Node} (h : n.branches.Scattered) (force : Bool) :
    n.written force = n.sorted.text force := by
  have hsound : n.sorted.branches.Sound := Branches.sound_sorted h
  have hnodup : (n.sorted.branches.written.map Prod.fst).Nodup := by
    rw [Branches.map_fst_written]
    exact Branches.nodup_chars hsound
  have hperm : n.sorted.branches.written.Perm n.branches.written := Branches.written_sorted h
  rw [written, ← byChar_congr hperm hnodup, Branches.byChar_written hsound, text, grouping,
    Branches.enclose_eq_assemble _ _ (Branches.length_map_snd_written _)
      (Branches.text_eq_intercalate hsound)]
  rfl

end PrefixPattern
