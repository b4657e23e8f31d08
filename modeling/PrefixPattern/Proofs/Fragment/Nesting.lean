import PrefixPattern.Proofs.Fragment.Reading
import PrefixPattern.Proofs.Trie.Prefixes

/-!
# How deep a fragment is nested

The tree that a fragment is read as is deep where groups lie inside groups, and these lie at the
grouping points along a member.  Its nesting is therefore the greatest number of levels that any one
member passes.

## What is here

* `Regex.nesting_ofItems_le_iff`, `Regex.nesting_ofBranches_le_iff` — a sequence or a list of
  alternatives is one level around each of its parts, if there are several.
* `levels` — the levels around the end of a word, counted from the strings of the list alone.
* `Node.nestedAs` — the items of a fragment are as deep as the deepest word of its node;
  `Node.nesting_items_le_iff` has the same of the whole fragment.

All statements bound the nesting by a number `k`, for every `k`, since a bound can be asked of each
part on its own and a maximum cannot.
-/

set_option autoImplicit false

namespace PrefixPattern

/-! ## Sequences and alternatives -/

namespace Regex

/-- The level that a list of parts adds: one if there are several. -/
def joint {α : Type} (parts : List α) : Nat :=
  if 2 ≤ parts.length then 1 else 0

/-- The expression is neither a sequence nor a list of alternatives. -/
def isUnit (r : Regex) : Bool :=
  !r.isSeq && !r.isAlt

theorem isSeq_of_isUnit {r : Regex} (h : r.isUnit = true) : r.isSeq = false := by
  simp only [isUnit, Bool.and_eq_true, Bool.not_eq_true'] at h
  exact h.1

theorem isAlt_of_isUnit {r : Regex} (h : r.isUnit = true) : r.isAlt = false := by
  simp only [isUnit, Bool.and_eq_true, Bool.not_eq_true'] at h
  exact h.2

/-- A spine counts once, however long it is. -/
theorem nesting_chain_le_iff {join : Regex → Regex → Regex} {goesOn : Regex → Bool}
    (hjoin : ∀ r s, nesting (join r s) =
      max (nesting r + 1) (if goesOn s then nesting s else nesting s + 1))
    (hon : ∀ r s, goesOn (join r s) = true) {parts : List Regex}
    (hparts : ∀ x ∈ parts, goesOn x = false) {k : Nat} :
    (chain join parts).nesting ≤ k ↔ ∀ x ∈ parts, x.nesting + joint parts ≤ k := by
  induction parts with
  | nil => simp [chain, nesting]
  | cons x parts ih =>
    cases parts with
    | nil => simp [chain, joint]
    | cons y rest =>
      have hrest : (if goesOn (chain join (y :: rest)) then (chain join (y :: rest)).nesting
          else (chain join (y :: rest)).nesting + 1) ≤ k ↔
          ∀ z ∈ y :: rest, z.nesting + 1 ≤ k := by
        cases rest with
        | nil =>
          have hy : goesOn y = false := hparts y (by simp)
          simp [chain, hy]
        | cons z rest =>
          have hspine : goesOn (chain join (y :: z :: rest)) = true := hon _ _
          rw [if_pos hspine, ih fun u hu => hparts u (List.mem_cons_of_mem _ hu)]
          simp [joint]
      rw [chain, hjoin, Nat.max_le, hrest]
      simp [joint]

theorem nesting_ofItems_le_iff {items : List Regex} (h : ∀ x ∈ items, x.isUnit = true) {k : Nat} :
    (ofItems items).nesting ≤ k ↔ ∀ x ∈ items, x.nesting + joint items ≤ k :=
  nesting_chain_le_iff (fun _ _ => rfl) (fun _ _ => rfl) fun x hx => isSeq_of_isUnit (h x hx)

theorem isAlt_ofItems {items : List Regex} (h : ∀ x ∈ items, x.isUnit = true) :
    (ofItems items).isAlt = false := by
  match items, h with
  | [], _ => rfl
  | [x], h => exact isAlt_of_isUnit (h x List.mem_cons_self)
  | x :: y :: rest, _ => rfl

theorem nesting_ofBranches_le_iff {branches : List (List Regex)}
    (h : ∀ b ∈ branches, ∀ x ∈ b, x.isUnit = true) {k : Nat} :
    (ofBranches branches).nesting ≤ k ↔
      ∀ b ∈ branches, (ofItems b).nesting + joint branches ≤ k := by
  have hparts : ∀ r ∈ branches.map ofItems, r.isAlt = false := by
    intro r hr
    obtain ⟨b, hb, rfl⟩ := List.mem_map.1 hr
    exact isAlt_ofItems (h b hb)
  rw [ofBranches, nesting_chain_le_iff (fun _ _ => rfl) (fun _ _ => rfl) hparts]
  simp [joint]

/-- The anchors put two levels around what they hold: their own sequence and a group. -/
theorem nesting_anchored (items : List Regex) :
    (anchored items).nesting = (ofItems items).nesting + 2 := by
  simp [anchored, nesting, isSeq]

end Regex

open Regex (ofItems ofBranches joint)

/-! ## The items of a fragment -/

namespace Grouping

theorem isUnit_items {g : Grouping} {branches : List (List Regex)}
    (h : ∀ b ∈ branches, ∀ x ∈ b, x.isUnit = true) : ∀ x ∈ g.items branches, x.isUnit = true := by
  cases g with
  | bare =>
    intro x hx
    obtain ⟨b, hb, hxb⟩ := List.mem_flatten.1 hx
    exact h b hb x hxb
  | group | optional =>
    intro x hx
    obtain rfl := List.mem_singleton.1 hx
    rfl

end Grouping

namespace Branches

theorem isUnit_items (row : Branches) : ∀ b ∈ row.items, ∀ x ∈ b, x.isUnit = true := by
  induction row with
  | nil => simp [items]
  | cons c t below next ihb ihn =>
    intro b hb x hx
    rcases List.mem_cons.1 hb with rfl | hb
    · rcases List.mem_cons.1 hx with rfl | hx
      · rfl
      · exact Grouping.isUnit_items ihb x hx
    · exact ihn b hb x hx

theorem length_items (row : Branches) : row.items.length = row.chars.length := by
  induction row with
  | nil => rfl
  | cons c t below next _ ih => rw [items, chars, List.length_cons, List.length_cons, ih]

/-- The branches of a sound row, by the characters that lead to them. -/
theorem forall_mem_items {row : Branches} (h : row.Sound) {P : List Regex → Prop} :
    (∀ b ∈ row.items, P b) ↔ ∀ c m, row.find? c = some m → P (.lit c :: m.items false) := by
  induction row with
  | nil => simp [items, find?]
  | cons c t below next _ ih =>
    have hc : next.find? c = none := by
      rw [Option.eq_none_iff_forall_ne_some]
      intro m hm
      exact lt_irrefl c (h.2.1 c (mem_chars_iff_find?.2 ⟨m, hm⟩))
    rw [items, List.forall_mem_cons, ih h.2.2.2]
    refine ⟨?_, ?_⟩
    · rintro ⟨hhead, htail⟩ d m hm
      rw [find?] at hm
      split at hm
      · rename_i hdc
        cases hm
        rw [hdc]
        exact hhead
      · exact htail d m hm
    · intro hall
      refine ⟨hall c ⟨t, below⟩ (by rw [find?, if_pos rfl]), fun d m hm => hall d m ?_⟩
      have hdc : d ≠ c := by
        rintro rfl
        rw [hc] at hm
        cases hm
      rw [find?, if_neg hdc]
      exact hm

end Branches

theorem Node.isUnit_items (n : Node) (force : Bool) : ∀ x ∈ n.items force, x.isUnit = true :=
  Grouping.isUnit_items (Branches.isUnit_items n.branches)

/-! ## Levels along a word -/

section Levels

variable (l : List String) (force : Bool)

/-- The levels that the group at a prefix puts around what comes behind the next character: the
group itself, its question mark, its list of alternatives, and the sequence that a branch is
unless it ends with that character. -/
def levelsAt (p : List Char) (last : Bool) : Nat :=
  if IsGroupingPoint l force p then
    1 + (if String.ofList p ∈ l then 1 else 0) + (if 1 < (continuations l p).card then 1 else 0) +
      (if last then 0 else 1)
  else 0

/-- The levels around the end of a word that goes on from a prefix. -/
def levels : List Char → List Char → Nat
  | _, [] => 0
  | p, c :: w => levelsAt l force p w.isEmpty + levels (p ++ [c]) w

/-- The levels around the end of a string in the anchored fragment of a list: two of the anchors,
one more if the fragment is a sequence, and those of its groups. -/
def depth (s : String) : Nat :=
  2 + (if IsGroupingPoint l force [] ∨ s.toList.length < 2 then 0 else 1) +
    levels l force [] s.toList

end Levels

theorem le_levelsAt_of_point {l : List String} {force : Bool} {p : List Char}
    (h : IsGroupingPoint l force p) (last : Bool) :
    1 + (if last then 0 else 1) ≤ levelsAt l force p last := by
  rw [levelsAt, if_pos h]
  omega

theorem le_levelsAt_of_mem {l : List String} {force : Bool} {p : List Char}
    (h : String.ofList p ∈ l) (last : Bool) :
    2 + (if last then 0 else 1) ≤ levelsAt l force p last := by
  have hpoint : IsGroupingPoint l force p := Or.inl h
  rw [levelsAt, if_pos hpoint, if_pos h]
  omega

/-- A bound that can be asked of each element can be asked of it after adding a number. -/
theorem add_le_iff_of_le_iff {ι : Type} {S : ι → Prop} {f : ι → Nat} {x : Nat} (hne : ∃ i, S i)
    (h : ∀ k, x ≤ k ↔ ∀ i, S i → f i ≤ k) (a k : Nat) :
    x + a ≤ k ↔ ∀ i, S i → f i + a ≤ k := by
  obtain ⟨i, hi⟩ := hne
  by_cases hak : a ≤ k
  · have hx : x + a ≤ k ↔ x ≤ k - a := by omega
    rw [hx, h]
    refine forall₂_congr fun j _ => ?_
    omega
  · refine iff_of_false (by omega) fun hall => ?_
    have := hall i hi
    omega

namespace Node

/-- What holds of the empty word holds of all words of a node if it does of those behind each
branch. -/
theorem forall_contains_iff {n : Node} {P : List Char → Prop} (hnil : P []) :
    (∀ w, n.contains w = true → P w) ↔
      ∀ c m, n.branches.find? c = some m → ∀ v, m.contains v = true → P (c :: v) := by
  refine ⟨?_, ?_⟩
  · intro h c m hm v hv
    exact h (c :: v) (contains_cons_iff.2 ⟨m, hm, hv⟩)
  · intro h w hw
    cases w with
    | nil => exact hnil
    | cons c v =>
      obtain ⟨m, hm, hv⟩ := contains_cons_iff.1 hw
      exact h c m hm v hv

/-- The same where there is one branch only. -/
theorem forall_contains_iff_of_bare {n m : Node} {c : Char} {P : List Char → Prop} (hnil : P [])
    (hfind : ∀ d m', n.branches.find? d = some m' ↔ d = c ∧ m' = m) :
    (∀ w, n.contains w = true → P w) ↔ ∀ v, m.contains v = true → P (c :: v) := by
  rw [forall_contains_iff hnil]
  refine ⟨?_, ?_⟩
  · intro h
    exact h c m ((hfind c m).2 ⟨rfl, rfl⟩)
  · intro h d m' hm'
    obtain ⟨rfl, rfl⟩ := (hfind d m').1 hm'
    exact h

/-- A bare row has one branch, and its items are those of that branch. -/
theorem items_of_bare {n : Node} {f : Bool} (hne : n.branches ≠ .nil) (hg : n.grouping f = .bare) :
    ∃ c m, (∀ d m', n.branches.find? d = some m' ↔ d = c ∧ m' = m) ∧
      n.items f = .lit c :: m.items false := by
  obtain ⟨t, row⟩ := n
  cases row with
  | nil => exact absurd rfl hne
  | cons c u below next =>
    cases next with
    | cons d v low more => rw [grouping, Branches.grouping] at hg; split at hg <;> cases hg
    | nil =>
      refine ⟨c, ⟨u, below⟩, fun d m' => ?_, ?_⟩
      · simp [Branches.find?, eq_comm]
      · rw [items, hg]
        exact List.append_nil _

theorem items_of_leaf {n : Node} (h : n.branches = .nil) : n.items false = [] := by
  rw [items, grouping, h]
  rfl

theorem items_ne_nil {n : Node} (h : n.branches ≠ .nil) (force : Bool) : n.items force ≠ [] := by
  obtain ⟨t, row⟩ := n
  cases row with
  | nil => exact absurd rfl h
  | cons c u below next =>
    rw [items]
    cases (grouping ⟨t, .cons c u below next⟩ force) <;> simp [Grouping.items, Branches.items]

/-- A grouped row is one item, one level deeper than its branches and two if it is optional. -/
theorem nesting_items_of_grouped {n : Node} {f : Bool} (hne : n.branches ≠ .nil)
    (hg : n.grouping f ≠ .bare) {k : Nat} :
    (∀ x ∈ n.items f, x.nesting ≤ k) ↔
      (ofBranches n.branches.items).nesting + (1 + if n.terminal = true then 1 else 0) ≤ k := by
  have hopt := Branches.grouping_eq_optional_iff hne n.terminal f
  rw [items]
  cases h : n.grouping f with
  | bare => exact absurd h hg
  | group =>
    rw [grouping] at h
    have ht : ¬ n.terminal = true := fun ht => by
      rw [hopt.2 ht] at h
      cases h
    rw [if_neg ht]
    exact List.forall_mem_singleton
  | optional =>
    rw [if_pos (hopt.1 h)]
    exact List.forall_mem_singleton

/-- A row that goes on is bare just where there is nothing to group. -/
theorem grouping_eq_bare_iff {n : Node} {f : Bool} (hne : n.branches ≠ .nil) :
    n.grouping f = .bare ↔
      ¬ (n.terminal = true ∨ 1 < n.branches.chars.length ∨ f = true) := by
  obtain ⟨t, row⟩ := n
  cases row with
  | nil => exact absurd rfl hne
  | cons c u below next =>
    cases next <;> cases t <;> cases f <;> simp [grouping, Branches.grouping, Branches.chars]

theorem isGroupingPoint_iff_grouping {n : Node} {l : List String} {force : Bool} {p : List Char}
    (h : n.StandsFor l p) {f : Bool} (hf : f = true ↔ p = [] ∧ force = true)
    (hne : n.branches ≠ .nil) : IsGroupingPoint l force p ↔ n.grouping f ≠ .bare := by
  rw [h.isGroupingPoint_iff, ← hf, Ne, grouping_eq_bare_iff hne, not_not]

/-- The items of the node are as deep as its deepest word behind the prefix. -/
def NestedAs (l : List String) (force : Bool) (n : Node) (f : Bool) (p : List Char) : Prop :=
  ∀ k, (∀ x ∈ n.items f, x.nesting ≤ k) ↔ ∀ w, n.contains w = true → levels l force p w ≤ k

variable {n m : Node} {l : List String} {force : Bool} {p : List Char}

/-- A branch is one level deeper than the items of its node, unless it is a single character. -/
theorem nesting_branch_le_iff (h : m.Sound) (hm : NestedAs l force m false p) (c : Char) (k : Nat) :
    (ofItems (.lit c :: m.items false)).nesting ≤ k ↔
      ∀ v, m.contains v = true → (if v.isEmpty then 0 else 1) + levels l force p v ≤ k := by
  have hunit : ∀ x ∈ Regex.lit c :: m.items false, x.isUnit = true := by
    intro x hx
    rcases List.mem_cons.1 hx with rfl | hx
    · rfl
    · exact m.isUnit_items false x hx
  rw [Regex.nesting_ofItems_le_iff hunit, List.forall_mem_cons]
  by_cases hnil : m.branches = .nil
  · rw [items_of_leaf hnil]
    refine iff_of_true (by simp [Regex.nesting, joint]) fun v hv => ?_
    rw [eq_nil_of_leaf hnil hv]
    exact Nat.zero_le _
  · obtain ⟨x, rest, hx⟩ := List.exists_cons_of_ne_nil (items_ne_nil hnil false)
    obtain ⟨d, v, hv⟩ := exists_contains_cons h hnil
    have hjoint : joint (Regex.lit c :: m.items false) = 1 := by simp [joint, hx]
    rw [hjoint]
    -- the bound for the node leaves one level for the sequence, so there has to be one
    cases k with
    | zero =>
      refine iff_of_false (fun hle => absurd hle.1 (by simp)) fun hall => ?_
      have := hall _ hv
      simp at this
    | succ k =>
      have hk : (∀ x ∈ m.items false, x.nesting + 1 ≤ k + 1) ↔
          ∀ w, m.contains w = true → levels l force p w ≤ k := by
        rw [← hm k]
        simp
      rw [hk, and_iff_right (by simp [Regex.nesting])]
      refine forall₂_congr fun w _ => ?_
      cases w with
      | nil => simp [levels]
      | cons e w => simp; omega

/-- Several branches, or one, in a group: one level for each thing written around them. -/
theorem nestedAs_of_grouped (h : n.StandsFor l p) {f : Bool} (hf : f = true ↔ p = [] ∧ force = true)
    (hne : n.branches ≠ .nil) (hg : n.grouping f ≠ .bare)
    (hchild : ∀ c m, n.branches.find? c = some m → NestedAs l force m false (p ++ [c])) :
    NestedAs l force n f p := by
  intro k
  have hpoint : IsGroupingPoint l force p := (isGroupingPoint_iff_grouping h hf hne).2 hg
  -- from the outside in: the group and its question mark, the alternatives, then each branch
  have hbranches : n.branches.items ≠ [] := by
    cases hrow : n.branches with
    | nil => exact absurd hrow hne
    | cons c u below next => exact List.cons_ne_nil _ _
  have hrow : ∀ k, (ofBranches n.branches.items).nesting ≤ k ↔
      ∀ b, b ∈ n.branches.items → (ofItems b).nesting + joint n.branches.items ≤ k := fun k =>
    Regex.nesting_ofBranches_le_iff n.branches.isUnit_items
  rw [nesting_items_of_grouped hne hg,
    add_le_iff_of_le_iff (List.exists_mem_of_ne_nil _ hbranches) hrow,
    Branches.forall_mem_items h.sound,
    forall_contains_iff (P := (levels l force p · ≤ k)) (Nat.zero_le _)]
  refine forall₂_congr fun c m => forall_congr' fun hm => ?_
  have hms : m.StandsFor l (p ++ [c]) := h.of_find? hm
  have hword : ∃ v, m.contains v = true :=
    exists_contains hms.sound (Branches.live_of_find? h.sound hm)
  rw [Nat.add_assoc, add_le_iff_of_le_iff hword (nesting_branch_le_iff hms.sound (hchild c m hm) c)]
  refine forall₂_congr fun v _ => ?_
  have hjoint : joint n.branches.items = if 1 < (continuations l p).card then 1 else 0 := by
    rw [joint, Branches.length_items, h.card_continuations]
    rfl
  have hopt : (if n.terminal = true then 1 else 0) = if String.ofList p ∈ l then 1 else 0 := by
    simp only [h.terminal_iff]
  rw [levels, levelsAt, if_pos hpoint, hjoint, hopt]
  omega

/-- A single chain is as deep as what it leads to. -/
theorem nestedAs_of_bare (h : n.StandsFor l p) {f : Bool} (hf : f = true ↔ p = [] ∧ force = true)
    (hne : n.branches ≠ .nil) (hg : n.grouping f = .bare)
    (hchild : ∀ c m, n.branches.find? c = some m → NestedAs l force m false (p ++ [c])) :
    NestedAs l force n f p := by
  intro k
  have hpoint : ¬ IsGroupingPoint l force p := fun hp =>
    (isGroupingPoint_iff_grouping h hf hne).1 hp hg
  obtain ⟨c, m, hfind, hitems⟩ := items_of_bare hne hg
  have hm : n.branches.find? c = some m := (hfind c m).2 ⟨rfl, rfl⟩
  have hlit : Regex.nesting (.lit c) ≤ k := Nat.zero_le _
  rw [hitems, List.forall_mem_cons, and_iff_right hlit, hchild c m hm k,
    forall_contains_iff_of_bare (P := (levels l force p · ≤ k)) (Nat.zero_le _) hfind]
  refine forall₂_congr fun v _ => ?_
  have hat : levelsAt l force p v.isEmpty = 0 := if_neg hpoint
  rw [levels, hat, Nat.zero_add]

/-- **The items of a fragment are as deep as the deepest word of the node.**  The one exception is
the empty group that is forced on a leaf. -/
theorem nestedAs (h : n.StandsFor l p) {f : Bool} (hf : f = true ↔ p = [] ∧ force = true)
    (hleaf : n.branches = .nil → f = false) : NestedAs l force n f p := by
  induction n using child_induction generalizing p f with
  | step n ih =>
    by_cases hne : n.branches = .nil
    · intro k
      rw [hleaf hne, items_of_leaf hne]
      refine iff_of_true (by simp) fun w hw => ?_
      rw [eq_nil_of_leaf hne hw]
      exact Nat.zero_le _
    · have hchild : ∀ c m, n.branches.find? c = some m → NestedAs l force m false (p ++ [c]) :=
        fun c m hm => ih c m hm (h.of_find? hm) (by simp) fun _ => rfl
      by_cases hg : n.grouping f = .bare
      · exact nestedAs_of_bare h hf hne hg hchild
      · exact nestedAs_of_grouped h hf hne hg hchild

theorem joint_items_of_grouped {f : Bool} (hg : n.grouping f ≠ .bare) : joint (n.items f) = 0 := by
  rw [items]
  cases h : n.grouping f with
  | bare => exact absurd h hg
  | group | optional => rfl

/-- The whole fragment of a root, which is a sequence only if it has no group around it. -/
theorem nesting_items_le_iff (h : n.StandsFor l []) (hleaf : n.branches = .nil → force = false)
    {k : Nat} :
    (ofItems (n.items force)).nesting ≤ k ↔ ∀ w, n.contains w = true →
      (if IsGroupingPoint l force [] ∨ w.length < 2 then 0 else 1) + levels l force [] w ≤ k := by
  have hforce : force = true ↔ ([] : List Char) = [] ∧ force = true := by simp
  have hroot : NestedAs l force n force [] := nestedAs h hforce hleaf
  by_cases hne : n.branches = .nil
  · rw [hleaf hne, items_of_leaf hne]
    refine iff_of_true (Nat.zero_le _) fun w hw => ?_
    rw [eq_nil_of_leaf hne hw]
    simp [levels]
  · by_cases hg : n.grouping force = .bare
    · have hpoint : ¬ IsGroupingPoint l force [] := fun hp =>
        (isGroupingPoint_iff_grouping h hforce hne).1 hp hg
      obtain ⟨c, m, hfind, hitems⟩ := items_of_bare hne hg
      have hm : n.branches.find? c = some m := (hfind c m).2 ⟨rfl, rfl⟩
      have hms : m.StandsFor l ([] ++ [c]) := h.of_find? hm
      have hdeep : NestedAs l force m false ([] ++ [c]) := nestedAs hms (by simp) fun _ => rfl
      -- the fragment is a branch without anything around it
      rw [hitems, nesting_branch_le_iff hms.sound hdeep,
        forall_contains_iff_of_bare (by simp [levels]) hfind]
      refine forall₂_congr fun v _ => ?_
      have hat : levelsAt l force [] v.isEmpty = 0 := if_neg hpoint
      have hlen : (c :: v).length < 2 ↔ v.isEmpty = true := by cases v <;> simp
      rw [levels, hat, Nat.zero_add]
      simp only [hpoint, hlen, false_or]
    · have hpoint : IsGroupingPoint l force [] := (isGroupingPoint_iff_grouping h hforce hne).2 hg
      rw [Regex.nesting_ofItems_le_iff (n.isUnit_items force), joint_items_of_grouped hg]
      simpa [hpoint] using hroot k

end Node

end PrefixPattern
