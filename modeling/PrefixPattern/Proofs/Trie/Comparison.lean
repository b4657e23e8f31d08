import PrefixPattern.Proofs.Trie.Growth

/-!
# Comparing trees whose rows come in any order

Where a row is kept in a hash table, two trees are compared with a list of pairs of nodes still to
be compared.  Of each pair the marks and the numbers of children have to agree, and every child of
the first node has to have its counterpart below the second one, with which it is put on the list.
That the second node has no other children follows from the numbers.

## What is here

* `Branches.pairUp`, `Node.alikeAll`, `Node.alike`, `Trie.alike` — the comparison.
* `Node.sorted_eq_iff` — two trees are equal up to the order of their rows if their marks agree and
  the same characters lead to trees that are.
* `Branches.forall_pairUp_iff` — what one round of the comparison does to the pairs on the list.
* `Node.alike_iff` — so the comparison tells whether two trees are equal up to the order of rows.
* `Trie.Grown.at?_sorted`, `Trie.Grown.alike_eq` — what this means for tries, in whatever order
  their rows are.
-/

set_option autoImplicit false

namespace PrefixPattern

/-! ## The comparison -/

/-- Put each child of a row on a list, together with its counterpart in another row, if there is one
for each. -/
def Branches.pairUp (other : Branches) :
    Branches → List (Node × Node) → Option (List (Node × Node))
  | nil, pending => some pending
  | cons c t below next, pending =>
    match other.find? c with
    | some m => pairUp other next ((⟨t, below⟩, m) :: pending)
    | none => none

/-- Nothing but the nodes of the row is put on the list. -/
theorem Branches.uncounted_pairUp {other row : Branches} {pending pairs : List (Node × Node)}
    (h : other.pairUp row pending = some pairs) :
    Node.uncounted (pairs.map Prod.fst) =
      row.nodeCount + Node.uncounted (pending.map Prod.fst) := by
  induction row generalizing pending with
  | nil =>
    cases h
    rw [nodeCount, Nat.zero_add]
  | cons c t below next _ ih =>
    rw [pairUp] at h
    split at h
    · rw [ih h, nodeCount]
      simp only [Node.uncounted, List.map_cons, List.sum_cons, Node.nodeCount_eq]
      omega
    · cases h

namespace Node

/-- Whether the two nodes of every pair on the list are equal. -/
def alikeAll : List (Node × Node) → Bool
  | [] => true
  | (a, b) :: rest =>
    if a.terminal ≠ b.terminal ∨ a.branches.chars.length ≠ b.branches.chars.length then false
    else
      match _h : b.branches.pairUp a.branches rest with
      | some pairs => alikeAll pairs
      | none => false
termination_by pending => uncounted (pending.map Prod.fst)
decreasing_by
  have hfirst : a.nodeCount = 1 + a.branches.nodeCount := nodeCount_eq a
  rw [Branches.uncounted_pairUp _h]
  simp only [uncounted, List.map_cons, List.sum_cons, hfirst]
  omega

/-- Two nodes are equal, with all that is below them. -/
def alike (a b : Node) : Bool :=
  alikeAll [(a, b)]

end Node

/-- Two tries are equal. -/
def Trie.alike (t u : Trie) : Bool :=
  t.root.alike u.root && t.size == u.size

/-! ## Equality up to the order of rows -/

namespace Branches

theorem length_chars_sorted {row : Branches} (h : row.Scattered) :
    row.sorted.chars.length = row.chars.length := by
  refine ((List.perm_ext_iff_of_nodup (nodup_chars (sound_sorted h)) ?_).2 fun c => ?_).length_eq
  · exact (scattered_iff.1 h).1
  · exact mem_chars_sorted

end Branches

namespace Node

theorem scattered_of_find? {n m : Node} (h : n.branches.Scattered) {c : Char}
    (hm : n.branches.find? c = some m) : m.branches.Scattered :=
  ((Branches.scattered_iff.1 h).2 c m hm).2

/-- In every place of a tree there is, up to the order of rows, the same node as before. -/
theorem at?_sorted (n : Node) (w : List Char) : n.sorted.at? w = (n.at? w).map sorted := by
  induction w generalizing n with
  | nil => rfl
  | cons c w ih =>
    rw [at?_cons, at?_cons, sorted, Branches.find?_sorted]
    cases n.branches.find? c with
    | none => rfl
    | some m => exact ih m

theorem scattered_of_at? {n m : Node} (h : n.branches.Scattered) {w : List Char}
    (hm : n.at? w = some m) : m.branches.Scattered := by
  induction w generalizing n with
  | nil =>
    cases hm
    exact h
  | cons c w ih =>
    rw [at?_cons, Option.bind_eq_some_iff] at hm
    obtain ⟨next, hnext, hm⟩ := hm
    exact ih (scattered_of_find? h hnext) hm

/-- **Trees are equal up to the order of their rows** if their marks agree, and the same characters
lead to trees that are. -/
theorem sorted_eq_iff {a b : Node} (ha : a.branches.Scattered) (hb : b.branches.Scattered) :
    a.sorted = b.sorted ↔ a.terminal = b.terminal ∧
      ∀ c, (a.branches.find? c).map sorted = (b.branches.find? c).map sorted := by
  refine ⟨fun h => ⟨?_, fun c => ?_⟩, fun ⟨hmark, hfind⟩ => ?_⟩
  · exact show a.sorted.terminal = b.sorted.terminal from congrArg terminal h
  · rw [← Branches.find?_sorted, ← Branches.find?_sorted]
    exact congrArg (fun n => n.branches.find? c) h
  · refine eq_of_contains (Branches.sound_sorted ha) (Branches.sound_sorted hb) fun w => ?_
    cases w with
    | nil => exact iff_of_eq (congrArg (· = true) hmark)
    | cons c v =>
      rw [contains_cons_iff, contains_cons_iff, sorted, Branches.find?_sorted, hfind, sorted,
        Branches.find?_sorted]

end Node

/-! ## One round -/

namespace Branches

variable {other row : Branches} {pending pairs : List (Node × Node)}

/-- Pairing up fails just where a child has no counterpart. -/
theorem pairUp_eq_none_iff :
    other.pairUp row pending = none ↔ ∃ c ∈ row.chars, other.find? c = none := by
  induction row generalizing pending with
  | nil => simp [pairUp, chars]
  | cons c t below next _ ih =>
    rw [pairUp]
    cases hc : other.find? c with
    | none => simp [chars, hc]
    | some m =>
      rw [chars, List.exists_mem_cons_iff, or_iff_right (by simp [hc])]
      exact ih

/-- The pairs on the list afterwards are the ones before and one for each character. -/
theorem forall_pairUp_iff (hrow : row.chars.Nodup) (h : other.pairUp row pending = some pairs)
    (P : Node → Node → Prop) : (∀ x ∈ pairs, P x.1 x.2) ↔
      (∀ c a b, row.find? c = some a → other.find? c = some b → P a b) ∧
        ∀ x ∈ pending, P x.1 x.2 := by
  induction row generalizing pending with
  | nil =>
    cases h
    simp [find?]
  | cons d t below next _ ih =>
    obtain ⟨hd, hnext⟩ := List.nodup_cons.1 hrow
    rw [pairUp] at h
    split at h
    · rename_i m hm
      rw [ih hnext h, List.forall_mem_cons, ← and_assoc]
      refine and_congr_left fun _ => ⟨?_, ?_⟩
      · rintro ⟨hothers, hfirst⟩ c a b ha hb
        rw [find?] at ha
        split at ha
        · rename_i hcd
          cases ha
          rw [hcd, hm] at hb
          cases hb
          exact hfirst
        · exact hothers c a b ha hb
      · intro hall
        refine ⟨fun c a b ha hb => hall c a b ?_ hb, hall d _ m (by rw [find?, if_pos rfl]) hm⟩
        have hcd : c ≠ d := by
          rintro rfl
          exact hd (mem_chars_iff_find?.2 ⟨a, ha⟩)
        rw [find?, if_neg hcd]
        exact ha
    · cases h

end Branches

namespace Node

variable {a b : Node}

/-- **The numbers of children are enough for the other direction.**  If every character of one row
is in another row that is as long, then every character of that one is in the first. -/
theorem exists_find?_of_length_eq (ha : a.branches.chars.Nodup)
    (hlen : a.branches.chars.length = b.branches.chars.length)
    (hsub : ∀ c ∈ a.branches.chars, b.branches.find? c ≠ none) {c : Char}
    (hc : a.branches.find? c = none) : b.branches.find? c = none := by
  have hsubset : a.branches.chars ⊆ b.branches.chars := fun d hd =>
    Branches.mem_chars_iff_find?.2 (Option.ne_none_iff_exists'.1 (hsub d hd))
  have hperm : a.branches.chars.Perm b.branches.chars :=
    (List.subperm_of_subset ha hsubset).perm_of_length_le hlen.ge
  by_contra hsome
  have hmem : c ∈ a.branches.chars := hperm.symm.subset
    (Branches.mem_chars_iff_find?.2 (Option.ne_none_iff_exists'.1 hsome))
  obtain ⟨m, hm⟩ := Branches.mem_chars_iff_find?.1 hmem
  rw [hc] at hm
  cases hm

/-- The list holds pairs of trees in which no row repeats a character. -/
def Comparable (pending : List (Node × Node)) : Prop :=
  ∀ x ∈ pending, x.1.branches.Scattered ∧ x.2.branches.Scattered

/-- **A round keeps the question**: the two nodes of the first pair are equal up to the order of
rows just if those of the pairs are that take its place. -/
theorem forall_sorted_eq_iff {rest pairs : List (Node × Node)} (h : Comparable ((a, b) :: rest))
    (hmark : a.terminal = b.terminal)
    (hlen : a.branches.chars.length = b.branches.chars.length)
    (hpairs : b.branches.pairUp a.branches rest = some pairs) :
    Comparable pairs ∧ ((∀ x ∈ pairs, x.1.sorted = x.2.sorted) ↔
      ∀ x ∈ (a, b) :: rest, x.1.sorted = x.2.sorted) := by
  obtain ⟨⟨ha, hb⟩, hrest⟩ := List.forall_mem_cons.1 h
  have hnodup : a.branches.chars.Nodup := (Branches.scattered_iff.1 ha).1
  have hsub : ∀ c ∈ a.branches.chars, b.branches.find? c ≠ none := by
    intro c hc hnone
    have hfail : b.branches.pairUp a.branches rest = none :=
      Branches.pairUp_eq_none_iff.2 ⟨c, hc, hnone⟩
    rw [hpairs] at hfail
    cases hfail
  refine ⟨(Branches.forall_pairUp_iff hnodup hpairs
    (fun m k => m.branches.Scattered ∧ k.branches.Scattered)).2
      ⟨fun c m k hm hk => ⟨scattered_of_find? ha hm, scattered_of_find? hb hk⟩, hrest⟩, ?_⟩
  rw [Branches.forall_pairUp_iff hnodup hpairs (fun m k => m.sorted = k.sorted),
    List.forall_mem_cons, sorted_eq_iff ha hb]
  refine and_congr_left fun _ => ⟨fun hall => ⟨hmark, fun c => ?_⟩, fun hall c m k hm hk => ?_⟩
  · cases hm : a.branches.find? c with
    | none => rw [exists_find?_of_length_eq hnodup hlen hsub hm]
    | some m =>
      obtain ⟨k, hk⟩ := Option.ne_none_iff_exists'.1
        (hsub c (Branches.mem_chars_iff_find?.2 ⟨m, hm⟩))
      rw [hk, Option.map_some, Option.map_some, hall c m k hm hk]
  · have heq := hall.2 c
    rw [hm, hk] at heq
    exact Option.some.inj heq

/-! ## The whole comparison -/

/-- **The comparison tells which trees are equal**, up to the order of their rows. -/
theorem alikeAll_iff {pending : List (Node × Node)} (h : Comparable pending) :
    alikeAll pending = true ↔ ∀ x ∈ pending, x.1.sorted = x.2.sorted := by
  fun_induction alikeAll pending with
  | case1 => simp
  | case2 a b rest hdiffer =>
    refine iff_of_false (by simp) fun hall => ?_
    obtain ⟨ha, hb⟩ := h (a, b) List.mem_cons_self
    have heq : a.sorted = b.sorted := hall (a, b) List.mem_cons_self
    rcases hdiffer with hmark | hlen
    · exact hmark ((sorted_eq_iff ha hb).1 heq).1
    · refine hlen ?_
      rw [← Branches.length_chars_sorted ha, ← Branches.length_chars_sorted hb]
      exact congrArg (fun n => n.branches.chars.length) heq
  | case3 a b rest hagree pairs hpairs ih =>
    obtain ⟨hmark, hlen⟩ : a.terminal = b.terminal ∧ _ := by simpa using hagree
    obtain ⟨hcomparable, hround⟩ := forall_sorted_eq_iff h hmark hlen hpairs
    rw [ih hcomparable, hround]
  | case4 a b rest _ hnone =>
    refine iff_of_false (by simp) fun hall => ?_
    obtain ⟨ha, hb⟩ := h (a, b) List.mem_cons_self
    obtain ⟨c, hc, hmissing⟩ := Branches.pairUp_eq_none_iff.1 hnone
    obtain ⟨m, hm⟩ := Branches.mem_chars_iff_find?.1 hc
    have heq := ((sorted_eq_iff ha hb).1 (hall (a, b) List.mem_cons_self)).2 c
    rw [hm, hmissing] at heq
    cases heq

theorem alike_iff (ha : a.branches.Scattered) (hb : b.branches.Scattered) :
    a.alike b = true ↔ a.sorted = b.sorted := by
  rw [alike, alikeAll_iff (List.forall_mem_singleton.2 ⟨ha, hb⟩), List.forall_mem_singleton]

/-- Up to the order of rows, the comparison is that of the trees in ascending order. -/
theorem alike_eq_same (ha : a.branches.Scattered) (hb : b.branches.Scattered) :
    a.alike b = a.sorted.same b.sorted := by
  rw [Bool.eq_iff_iff, alike_iff ha hb, same_iff]

end Node

namespace Trie

namespace Grown

variable {l m : List String} {t u : Trie}

/-- A trie has, up to the order of rows, the nodes of the one whose rows ascend. -/
theorem at?_sorted (h : Grown l t) {p : List Char} {a : Node} (ha : t.root.at? p = some a) :
    a.branches.Scattered ∧ (ofList l).root.at? p = some a.sorted := by
  refine ⟨Node.scattered_of_at? h.resembles.scattered ha, ?_⟩
  rw [← h.resembles.root, Node.at?_sorted, ha]
  rfl

/-- Up to the order of rows, comparing two tries is comparing those whose rows ascend. -/
theorem alike_eq (ht : Grown l t) (hu : Grown m u) : t.alike u = (ofList l == ofList m) := by
  rw [alike, Node.alike_eq_same ht.resembles.scattered hu.resembles.scattered, ht.resembles.root,
    hu.resembles.root, ht.resembles.size, hu.resembles.size, Bool.eq_iff_iff]
  cases ofList l
  cases ofList m
  simp [Node.same_iff]

end Grown
end Trie
end PrefixPattern
