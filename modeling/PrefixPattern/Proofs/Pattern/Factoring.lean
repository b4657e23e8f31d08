import PrefixPattern.Proofs.Fragment.Marks
import PrefixPattern.Proofs.Pattern.Forcing
import PrefixPattern.Proofs.Trie.Growth

/-!
# What a set shares is written once

A fragment has one literal for each prefix of its strings, however many of them have it.  How many
bars, question marks and groups there are can be told from the strings as well, so nothing in a
fragment is written twice and nothing is left out.

## What is here

* `prefixes`, `GoesOn`, `HasGroup` — the prefixes of the strings of a list, those that are proper
  ones, and those behind which a group is written without being forced.
* `Node.StandsFor.isLeaf_iff`, `Node.StandsFor.grouping_eq_optional_iff`,
  `Node.StandsFor.grouping_ne_bare_iff` — the same questions, asked at the node of a prefix.
* `Trie.countP_places_eq_card`, `Trie.countP_places_eq_card_strings` — the nodes of one kind,
  counted as prefixes and as strings.
* `Pattern.compile_factored` — the literals and the signs of a compiled pattern.
-/

set_option autoImplicit false

namespace PrefixPattern

/-! ## Prefixes -/

/-- The prefixes of the strings of a list. -/
def prefixes (l : List String) : Finset (List Char) :=
  (l.flatMap fun s => s.toList.inits).toFinset

theorem mem_prefixes {l : List String} {w : List Char} :
    w ∈ prefixes l ↔ ∃ s ∈ l, w <+: s.toList := by
  simp [prefixes]

/-- The word is a proper prefix of a string of the list. -/
def GoesOn (l : List String) (w : List Char) : Prop :=
  ∃ s ∈ l, w <+: s.toList ∧ w ≠ s.toList

instance (l : List String) (w : List Char) : Decidable (GoesOn l w) :=
  inferInstanceAs (Decidable (∃ s ∈ l, _))

/-- The word is a proper prefix, and a string of the list itself or followed by several characters. -/
def HasGroup (l : List String) (w : List Char) : Prop :=
  GoesOn l w ∧ (String.ofList w ∈ l ∨ 1 < (continuations l w).card)

instance (l : List String) (w : List Char) : Decidable (HasGroup l w) :=
  inferInstanceAs (Decidable (_ ∧ _))

variable {l : List String}

namespace Node.StandsFor

variable {n : Node} {w : List Char}

theorem goesOn_iff (h : n.StandsFor l w) : GoesOn l w ↔ n.branches ≠ .nil := by
  refine ⟨?_, fun hne => ?_⟩
  · rintro ⟨s, hs, ⟨v, hv⟩, hne⟩ hnil
    have hword : n.contains v = true := by rwa [h.contains_iff, hv, String.ofList_toList]
    rw [eq_nil_of_leaf hnil hword, List.append_nil] at hv
    exact hne hv
  · obtain ⟨c, v, hv⟩ := exists_contains_cons h.sound hne
    refine ⟨_, (h.contains_iff _).1 hv, ?_, ?_⟩
    · rw [String.toList_ofList]
      exact List.prefix_append w (c :: v)
    · simp

/-- A leaf is the node of a string that is no proper prefix of another. -/
theorem isLeaf_iff (h : n.StandsFor l w) (hlive : n.terminal = true ∨ n.branches ≠ .nil) :
    n.isLeaf = true ↔ String.ofList w ∈ l ∧ ¬ GoesOn l w := by
  rw [h.goesOn_iff, ← h.terminal_iff, Node.isLeaf_iff, not_not]
  exact ⟨fun hnil => ⟨hlive.resolve_right (not_not.2 hnil), hnil⟩, And.right⟩

/-- The row of a node is optional if its prefix is a string and goes on. -/
theorem grouping_eq_optional_iff (h : n.StandsFor l w) (force : Bool) :
    n.grouping force = .optional ↔ String.ofList w ∈ l ∧ GoesOn l w := by
  rw [h.goesOn_iff, ← h.terminal_iff]
  by_cases hnil : n.branches = .nil
  · rw [grouping, hnil]
    cases force <;> simp [Branches.grouping]
  · rw [grouping, Branches.grouping_eq_optional_iff hnil]
    simp [hnil]

/-- The row of a node is a group, optional or not, if there is something to group. -/
theorem grouping_ne_bare_iff (h : n.StandsFor l w) : n.grouping false ≠ .bare ↔ HasGroup l w := by
  rw [HasGroup, h.goesOn_iff, ← h.terminal_iff, h.card_continuations]
  by_cases hnil : n.branches = .nil
  · rw [grouping, hnil]
    simp [Branches.grouping]
  · rw [Ne, grouping_eq_bare_iff hnil, not_not]
    simp [hnil]

end Node.StandsFor

/-! ## Counting nodes as prefixes -/

namespace Trie

/-- In the trie of a list that is not empty, every prefix has its node, which is live. -/
theorem mem_prefixes_iff (hl : l ≠ []) {w : List Char} :
    w ∈ prefixes l ↔ ∃ n, (ofList l).root.at? w = some n := by
  rw [(grown_ofList l).exists_at?_iff, mem_prefixes, or_iff_right_of_imp]
  rintro rfl
  obtain ⟨s, hs⟩ := List.exists_mem_of_ne_nil l hl
  exact ⟨s, hs, List.nil_prefix⟩

/-- **The nodes of one kind are as many as the prefixes that they stand for.** -/
theorem countP_places_eq_card (hl : l ≠ []) (kind : Node → Bool) (P : List Char → Prop)
    [DecidablePred P] (h : ∀ n w, n.StandsFor l w → (n.terminal = true ∨ n.branches ≠ .nil) →
      (kind n = true ↔ P w)) :
    (ofList l).root.places.countP (fun x => kind x.2) = ((prefixes l).filter P).card := by
  have hgrown : Grown l (ofList l) := grown_ofList l
  have hkind : ∀ n w, (ofList l).root.at? w = some n → (kind n = true ↔ P w) := fun n w hn =>
    h n w ((standsFor_root l).of_at? hn) (hgrown.live_of_at? hn (Or.inr hl))
  refine Node.countP_places_eq_card hgrown.resembles.scattered kind fun w => ?_
  rw [Finset.mem_filter, mem_prefixes_iff hl]
  refine ⟨?_, ?_⟩
  · rintro ⟨⟨n, hn⟩, hw⟩
    exact ⟨n, hn, (hkind n w hn).2 hw⟩
  · rintro ⟨n, hn, hn'⟩
    exact ⟨⟨n, hn⟩, (hkind n w hn).1 hn'⟩

/-- **The same where they stand for strings.** -/
theorem countP_places_eq_card_strings (hl : l ≠ []) (kind : Node → Bool) (P : List Char → Prop)
    [DecidablePred P] (h : ∀ n w, n.StandsFor l w → (n.terminal = true ∨ n.branches ≠ .nil) →
      (kind n = true ↔ String.ofList w ∈ l ∧ P w)) :
    (ofList l).root.places.countP (fun x => kind x.2) =
      (l.toFinset.filter fun s => P s.toList).card := by
  have hset : (prefixes l).filter (fun w => String.ofList w ∈ l ∧ P w) =
      (l.toFinset.filter fun s => P s.toList).image String.toList := by
    ext w
    simp only [Finset.mem_filter, Finset.mem_image, List.mem_toFinset, mem_prefixes]
    refine ⟨?_, ?_⟩
    · rintro ⟨-, hw, hP⟩
      exact ⟨_, ⟨hw, by rwa [String.toList_ofList]⟩, String.toList_ofList⟩
    · rintro ⟨s, ⟨hs, hP⟩, rfl⟩
      exact ⟨⟨s, hs, List.prefix_rfl⟩, by rwa [String.ofList_toList], hP⟩
  have hinj : Function.Injective String.toList := fun _ _ => String.toList_inj.1
  rw [countP_places_eq_card hl kind _ h, hset, Finset.card_image_of_injective _ hinj]

end Trie

/-! ## Compiled patterns -/

namespace Pattern

variable {o : CompileOptions} {p : Pattern}

/-- A word that is not empty has an end. -/
theorem forall₂_getLast? {places : List (List Char × Node)} (h : ∀ x ∈ places, x.1 ≠ []) :
    List.Forall₂ (fun c w => w.getLast? = some c) (places.filterMap fun x => x.1.getLast?)
      (places.map Prod.fst) := by
  induction places with
  | nil => exact .nil
  | cons x rest ih =>
    obtain ⟨hx, hrest⟩ := List.forall_mem_cons.1 h
    have hlast := List.getLast?_eq_some_getLast hx
    simp only [List.filterMap_cons, hlast, List.map_cons]
    exact .cons hlast (ih hrest)

/-- **The literals of a compiled pattern are the ends of the prefixes of its strings**, and each of
these has one. -/
theorem exists_prefixes_of_literals (h : compile l o = .ok p) :
    ∃ ws : List (List Char), ws.Nodup ∧ (∀ w, w ∈ ws ↔ w ∈ prefixes l ∧ w ≠ []) ∧
      List.Forall₂ (fun c w => w.getLast? = some c) (literals p.fragment.toList) ws := by
  have hscattered := (Trie.grown_ofList l).resembles.scattered
  refine ⟨(Trie.ofList l).root.branches.places.map Prod.fst,
    (List.nodup_cons.1 (Node.nodup_places hscattered)).2, fun w => ?_, ?_⟩
  · rw [Trie.mem_prefixes_iff (ne_nil_of_compile h), List.mem_map]
    simp [Node.mem_branches_places_iff hscattered]
  · rw [toList_fragment_of_compile h, Node.literals_text]
    exact forall₂_getLast? fun x hx => Branches.ne_nil_of_mem_places hx

/-- A compiled pattern has one bar less than there are strings that are no proper prefixes. -/
theorem count_bar_fragment (h : compile l o = .ok p) :
    (marks p.fragment.toList).count (.sign '|') + 1 =
      (l.toFinset.filter fun s => ¬ GoesOn l s.toList).card := by
  rw [toList_fragment_of_compile h, Node.count_bar_text]
  exact Trie.countP_places_eq_card_strings (ne_nil_of_compile h) Node.isLeaf _
    fun n w hn hlive => hn.isLeaf_iff hlive

/-- It has a question mark for each of the others. -/
theorem count_mark_fragment (h : compile l o = .ok p) :
    (marks p.fragment.toList).count (.sign '?') =
      (l.toFinset.filter fun s => GoesOn l s.toList).card := by
  have hroot : ((Trie.ofList l).root.grouping o.forceWrap = .optional) =
      ((Trie.ofList l).root.grouping false = .optional) := by
    rw [(Trie.standsFor_root l).grouping_eq_optional_iff,
      (Trie.standsFor_root l).grouping_eq_optional_iff]
  have hsigns : ∀ g : Grouping, (marks g.opening).count (.sign '?') +
      (marks g.closing).count (.sign '?') = (decide (g = .optional)).toNat := by
    intro g
    cases g <;> rfl
  have hkind := Trie.countP_places_eq_card_strings (ne_nil_of_compile h)
    (fun n => decide (n.grouping false = .optional)) (GoesOn l)
    fun n w hn _ => by rw [decide_eq_true_iff, hn.grouping_eq_optional_iff]
  rw [toList_fragment_of_compile h, Node.count_sign_text (by decide) hsigns, ← hkind,
    Node.countP_places fun n => decide (n.grouping false = .optional)]
  simp only [hroot]

/-- It has a group behind every prefix that has something to group, and perhaps a forced one. -/
theorem count_group_fragment {c : Char} (hc : c ∈ ['(', ')']) (h : compile l o = .ok p) :
    (marks p.fragment.toList).count (.sign c) = ((prefixes l).filter (HasGroup l)).card +
      if o.forceWrap = true ∧ ¬ HasGroup l [] then 1 else 0 := by
  have hsigns : ∀ g : Grouping, (marks g.opening).count (.sign c) +
      (marks g.closing).count (.sign c) = (decide (g ≠ .bare)).toNat := by
    intro g
    rcases List.mem_pair.1 hc with rfl | rfl <;> cases g <;> rfl
  have hbar : c ≠ '|' := by
    rintro rfl
    exact absurd hc (by decide)
  have hkind := Trie.countP_places_eq_card (ne_nil_of_compile h)
    (fun n => decide (n.grouping false ≠ .bare)) (HasGroup l)
    fun n w hn _ => by rw [decide_eq_true_iff, hn.grouping_ne_bare_iff]
  -- only the first row can be forced, and it makes a difference only where it has no group yet
  have hroot : (decide ((Trie.ofList l).root.grouping o.forceWrap ≠ .bare)).toNat =
      (decide ((Trie.ofList l).root.grouping false ≠ .bare)).toNat +
        if o.forceWrap = true ∧ ¬ HasGroup l [] then 1 else 0 := by
    simp only [Node.grouping_force_ne_bare_iff _ o.forceWrap,
      (Trie.standsFor_root l).grouping_ne_bare_iff]
    by_cases hempty : HasGroup l [] <;> cases o.forceWrap <;> simp [hempty]
  rw [toList_fragment_of_compile h, Node.count_sign_text hbar hsigns, ← hkind,
    Node.countP_places fun n => decide (n.grouping false ≠ .bare), hroot, Nat.add_right_comm]

/-- **A set is written with nothing twice.**  The fragment has a literal for every prefix of the
strings but the empty one.  It has a bar between the strings that no other one goes on from, and a
question mark for every string that another one goes on from.  It has a group behind every prefix
that goes on and is a string itself or followed by several characters, and one around it where this
is forced. -/
theorem compile_factored (h : compile l o = .ok p) :
    (∃ ws : List (List Char), ws.Nodup ∧ (∀ w, w ∈ ws ↔ w ∈ prefixes l ∧ w ≠ []) ∧
        List.Forall₂ (fun c w => w.getLast? = some c) (literals p.fragment.toList) ws) ∧
      (literals p.fragment.toList).length = ((prefixes l).erase []).card ∧
      (marks p.fragment.toList).count (.sign '|') + 1 =
        (l.toFinset.filter fun s => ¬ GoesOn l s.toList).card ∧
      (marks p.fragment.toList).count (.sign '?') =
        (l.toFinset.filter fun s => GoesOn l s.toList).card ∧
      ∀ c ∈ ['(', ')'], (marks p.fragment.toList).count (.sign c) =
        ((prefixes l).filter (HasGroup l)).card +
          if o.forceWrap = true ∧ ¬ HasGroup l [] then 1 else 0 := by
  obtain ⟨ws, hnodup, hmem, hends⟩ := exists_prefixes_of_literals h
  refine ⟨⟨ws, hnodup, hmem, hends⟩, ?_, count_bar_fragment h, count_mark_fragment h,
    fun c hc => count_group_fragment hc h⟩
  have hset : (prefixes l).erase [] = ws.toFinset := by
    ext w
    rw [Finset.mem_erase, List.mem_toFinset, hmem, and_comm]
  rw [hends.length_eq, hset, List.toFinset_card_of_nodup hnodup]

/-- Members made of signs, one of them the beginning of two others, with a forced group. -/
theorem compile_factored_signs :
    ∃ p, compile ["(?", "(", "(|"] .wrapped = .ok p ∧
      (literals p.fragment.toList).length = 3 ∧
      (marks p.fragment.toList).count (.sign '|') = 1 ∧
      (marks p.fragment.toList).count (.sign '?') = 1 ∧
      (marks p.fragment.toList).count (.sign '(') = 2 := by
  have h := compile_eq ["(?", "(", "(|"] .wrapped
  rw [if_neg (by decide), if_neg (by decide)] at h
  obtain ⟨-, hliterals, hbars, hmarks, hgroups⟩ := compile_factored h
  refine ⟨_, h, hliterals.trans (by decide), ?_, hmarks.trans (by decide),
    (hgroups '(' (by decide)).trans (by decide)⟩
  exact Nat.succ.inj (hbars.trans (by decide))

end Pattern
end PrefixPattern
