import PrefixPattern.Proofs.Trie.Scattered

/-!
# The places of a tree

Every node of a tree has its place, the word that leads to it.  Where no row repeats a character,
the places are all different, so a number of nodes is a number of words.

## What is here

* `Branches.places`, `Node.places` — the nodes of a tree, each with its place.
* `Node.mem_places_iff`, `Node.nodup_places` — these are the nodes that `Node.at?` finds, each once.
* `Node.length_places` — they are as many as `Node.nodeCount` says.
* `Node.countP_places_eq_card` — the nodes of one kind are as many as the words that lead to one.
-/

set_option autoImplicit false

namespace PrefixPattern

namespace Branches

/-- The nodes that the branches lead to, at any depth, each with the word that leads to it. -/
def places : Branches → List (List Char × Node)
  | nil => []
  | cons c t below next =>
    ((([], ⟨t, below⟩) :: below.places).map fun x => (c :: x.1, x.2)) ++ next.places

theorem length_places (row : Branches) : row.places.length = row.nodeCount := by
  induction row with
  | nil => rfl
  | cons c t below next ihb ihn =>
    rw [places, List.length_append, List.length_map, List.length_cons, ihb, ihn, nodeCount]
    omega

/-- The nodes of one kind behind a row, counted branch by branch. -/
theorem countP_places_cons (kind : Node → Bool) (c : Char) (t : Bool) (below next : Branches) :
    (cons c t below next).places.countP (fun x => kind x.2) =
      (kind ⟨t, below⟩).toNat + below.places.countP (fun x => kind x.2) +
        next.places.countP (fun x => kind x.2) := by
  rw [places, List.countP_append, List.countP_map, List.countP_cons, Nat.add_comm (kind _).toNat]
  congr 2
  cases hkind : kind ⟨t, below⟩ <;> simp [hkind]

/-- Every place begins with a character of the row. -/
theorem exists_cons_of_mem_places {row : Branches} {x : List Char × Node} (h : x ∈ row.places) :
    ∃ c ∈ row.chars, ∃ w, x.1 = c :: w := by
  induction row with
  | nil => cases h
  | cons c t below next _ ihn =>
    rcases List.mem_append.1 h with h | h
    · obtain ⟨y, -, rfl⟩ := List.mem_map.1 h
      exact ⟨c, List.mem_cons_self, y.1, rfl⟩
    · obtain ⟨d, hd, w, hw⟩ := ihn h
      exact ⟨d, List.mem_cons_of_mem c hd, w, hw⟩

theorem ne_nil_of_mem_places {row : Branches} {x : List Char × Node} (h : x ∈ row.places) :
    x.1 ≠ [] := by
  obtain ⟨c, -, w, hw⟩ := exists_cons_of_mem_places h
  rw [hw]
  exact List.cons_ne_nil c w

end Branches

namespace Node

/-- The node and all nodes below it, each with the word that leads to it. -/
def places (n : Node) : List (List Char × Node) :=
  ([], n) :: n.branches.places

theorem length_places (n : Node) : n.places.length = n.nodeCount := by
  rw [places, List.length_cons, Branches.length_places, nodeCount_eq, Nat.add_comm]

/-- The nodes of one kind, the first one counted apart. -/
theorem countP_places (kind : Node → Bool) (n : Node) :
    n.places.countP (fun x => kind x.2) =
      (kind n).toNat + n.branches.places.countP (fun x => kind x.2) := by
  rw [places, List.countP_cons, Nat.add_comm]
  cases hkind : kind n <;> simp

theorem cons_mem_places_iff {n : Node} {c : Char} {v : List Char} {m : Node} :
    (c :: v, m) ∈ n.places ↔ (c :: v, m) ∈ n.branches.places := by
  rw [places, List.mem_cons]
  exact or_iff_right (by simp)

theorem nil_mem_places_iff {n m : Node} : ([], m) ∈ n.places ↔ m = n := by
  rw [places, List.mem_cons, or_iff_left fun hmem => Branches.ne_nil_of_mem_places hmem rfl]
  simp

/-- **The places are the words that lead to a node**, each with that node. -/
theorem mem_places_iff {n : Node} (h : n.branches.Scattered) {w : List Char} {m : Node} :
    (w, m) ∈ n.places ↔ n.at? w = some m := by
  obtain ⟨t, row⟩ := n
  -- the branches of a row have marks of their own, so the induction has to be for all of them
  induction row generalizing t w with
  | nil =>
    cases w with
    | nil => simp [nil_mem_places_iff, at?, eq_comm]
    | cons c v => simp [cons_mem_places_iff, Branches.places, at?_cons, Branches.find?]
  | cons d u below next ihb ihn =>
    obtain ⟨-, hd, hb, hn⟩ := h
    cases w with
    | nil => simp [nil_mem_places_iff, at?, eq_comm]
    | cons c v =>
      have hfirst : (c :: v, m) ∈ (places ⟨u, below⟩).map (fun x => (d :: x.1, x.2)) ↔
          d = c ∧ at? ⟨u, below⟩ v = some m := by
        rw [← ihb u hb, List.mem_map]
        simp [Prod.ext_iff, and_comm]
      have hothers := ihn t hn (w := c :: v)
      rw [cons_mem_places_iff, at?_cons] at hothers
      rw [cons_mem_places_iff, Branches.places, List.mem_append, ← places.eq_1 ⟨u, below⟩, hfirst,
        hothers, at?_cons, Branches.find?]
      by_cases hcd : c = d
      · subst hcd
        have hnone : next.find? c = none := by
          by_contra hsome
          exact hd (Branches.mem_chars_iff_find?.2 (Option.ne_none_iff_exists'.1 hsome))
        simp [hnone]
      · simp [hcd, Ne.symm hcd]

/-- The places along the row of a node are all its places but its own. -/
theorem mem_branches_places_iff {n : Node} (h : n.branches.Scattered) {w : List Char} {m : Node} :
    (w, m) ∈ n.branches.places ↔ n.at? w = some m ∧ w ≠ [] := by
  rw [← mem_places_iff h]
  cases w with
  | nil => exact iff_of_false (fun hmem => Branches.ne_nil_of_mem_places hmem rfl) (by simp)
  | cons c v => simp [cons_mem_places_iff]

/-- **No two nodes have the same place.** -/
theorem nodup_places {n : Node} (h : n.branches.Scattered) : (n.places.map Prod.fst).Nodup := by
  obtain ⟨t, row⟩ := n
  induction row generalizing t with
  | nil => exact List.nodup_singleton _
  | cons d u below next ihb ihn =>
    obtain ⟨-, hd, hb, hn⟩ := h
    have hfirst : (((places ⟨u, below⟩).map fun x => (d :: x.1, x.2)).map Prod.fst).Nodup := by
      have hmap := (ihb u hb).map (List.cons_injective (a := d))
      rwa [List.map_map] at hmap ⊢
    rw [places, List.map_cons, List.nodup_cons]
    refine ⟨fun hnil => ?_, ?_⟩
    · obtain ⟨x, hx, hx'⟩ := List.mem_map.1 hnil
      exact Branches.ne_nil_of_mem_places hx hx'
    · rw [Branches.places, List.map_append]
      refine hfirst.append (List.nodup_cons.1 (ihn t hn)).2 fun w hw hw' => ?_
      obtain ⟨x, hx, rfl⟩ := List.mem_map.1 hw'
      obtain ⟨c, hc, v, hv⟩ := Branches.exists_cons_of_mem_places hx
      rw [hv, List.map_map] at hw
      obtain ⟨y, -, hy⟩ := List.mem_map.1 hw
      exact hd ((List.cons.inj hy).1 ▸ hc)

/-- **The nodes of one kind are as many as the words that lead to one.** -/
theorem countP_places_eq_card {n : Node} (h : n.branches.Scattered) (kind : Node → Bool)
    {ws : Finset (List Char)} (hws : ∀ w, w ∈ ws ↔ ∃ m, n.at? w = some m ∧ kind m = true) :
    n.places.countP (fun x => kind x.2) = ws.card := by
  have hnodup : ((n.places.filter fun x => kind x.2).map Prod.fst).Nodup :=
    (nodup_places h).sublist (List.filter_sublist.map Prod.fst)
  have hset : ((n.places.filter fun x => kind x.2).map Prod.fst).toFinset = ws := by
    ext w
    rw [List.mem_toFinset, hws]
    simp [mem_places_iff h]
  rw [List.countP_eq_length_filter, ← hset, List.toFinset_card_of_nodup hnodup, List.length_map]

end Node
end PrefixPattern
