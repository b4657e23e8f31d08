import PrefixPattern.Proofs.Fragment.Characters
import PrefixPattern.Proofs.Pattern.Exactness
import PrefixPattern.Proofs.Regex.Parentheses

/-!
# Forced groups can be repeated

A pattern with its group forced is one unit: a repetition written behind it repeats all of it.  A
single character written behind a pattern that is not one unit would repeat its last character, or
its last group.

## What is here

* `Branches.balanced_text` — a row closes just the parentheses that it opens, at every depth and
  with parentheses among its literals.
* `Regex.IsOneGroup` — a text that is one group, and perhaps a question mark behind it.
* `Node.exists_readsAs_repeated` — a forced fragment with a repetition behind it is read as that
  repetition of the whole.
* `Pattern.repeated_exact` — both for every compiled pattern, with what the repetition matches.

A fragment that ends in a question mark already takes another one as a sign of preference and not as
a repetition.  It means the same, since what may be left out once need not be left out twice.
-/

set_option autoImplicit false

namespace PrefixPattern

open Regex (Balanced ReadsAs Matches ofItems resume)

/-! ## Parentheses -/

/-- **The text of a row closes just the parentheses that it opens.** -/
theorem Branches.balanced_text (row : Branches) : Balanced row.text := by
  have hpieces : Piecewise Balanced := {
    nil := Regex.balanced_nil
    append := fun ha hb => ha.append hb
    literal := Regex.balanced_literal
    group := fun hrow => hrow.group
    bar := Regex.balanced_char (by decide)
    mark := Regex.balanced_char (by decide) }
  exact hpieces.text row

/-- The text begins with a parenthesis, and behind the one that closes it there is nothing but
perhaps a question mark. -/
def Regex.IsOneGroup (text : List Char) : Prop :=
  ∃ inside tail, text = '(' :: (inside ++ ')' :: tail) ∧
    behindGroup (inside ++ ')' :: tail) 0 = some tail ∧ (tail = [] ∨ tail = ['?'])

theorem Regex.isOneGroup_of_balanced {inside tail : List Char} (h : Balanced inside)
    (htail : tail = [] ∨ tail = ['?']) : IsOneGroup ('(' :: (inside ++ ')' :: tail)) :=
  ⟨inside, tail, rfl, by rw [h]; rfl, htail⟩

/-! ## Forced fragments -/

namespace Node

/-- A forced fragment has a group around its row, which is optional or not. -/
theorem grouping_force (n : Node) : n.grouping true = .group ∨ n.grouping true = .optional := by
  obtain ⟨t, row⟩ := n
  cases row with
  | nil => exact Or.inl rfl
  | cons c u below next => cases next <;> cases t <;> simp [grouping, Branches.grouping]

theorem text_of_group {n : Node} {force : Bool} (h : n.grouping force = .group) :
    n.text force = '(' :: (n.branches.text ++ [')']) := by
  rw [text, h]
  rfl

theorem text_of_optional {n : Node} {force : Bool} (h : n.grouping force = .optional) :
    n.text force = '(' :: (n.branches.text ++ [')', '?']) := by
  rw [text, h]
  rfl

/-- A forced fragment is one group. -/
theorem isOneGroup_text (n : Node) : Regex.IsOneGroup (n.text true) := by
  have hrow : Balanced n.branches.text := n.branches.balanced_text
  rcases n.grouping_force with h | h
  · rw [text_of_group h]
    exact Regex.isOneGroup_of_balanced hrow (Or.inl rfl)
  · rw [text_of_optional h]
    exact Regex.isOneGroup_of_balanced hrow (Or.inr rfl)

/-- What a row in parentheses is read as. -/
def rowGroup (n : Node) : Regex :=
  .group true (Regex.ofBranches n.branches.items)

theorem resume_rowGroup (n : Node) (rest : List Char) (g : OpenGroup) (around : List OpenGroup) :
    resume ('(' :: (n.branches.text ++ ')' :: rest)) g around =
      resume rest (g.push n.rowGroup) around :=
  Branches.resume_group (Branches.resume_text n.branches) rest g around

/-- **A repetition behind a forced fragment repeats all of it.** -/
theorem exists_readsAs_repeated (n : Node) (k : Repetition) :
    ∃ y, ReadsAs (n.text true ++ [k.symbol]) [y] ∧
      ∀ p w s, Matches y p w s ↔ Matches (.rep k (ofItems (n.items true))) p w s := by
  rcases n.grouping_force with h | h
  · have hitems : n.items true = [n.rowGroup] := by
      rw [items, h]
      rfl
    refine ⟨.rep k n.rowGroup, ?_, fun p w s => by rw [hitems]; rfl⟩
    intro rest hrest g around
    have htext : n.text true ++ [k.symbol] ++ rest =
        '(' :: (n.branches.text ++ ')' :: k.symbol :: rest) := by
      rw [text_of_group h]
      simp
    rw [htext, resume_rowGroup, Regex.resume_repetition _ _ k _ hrest]
    rfl
  · have hitems : n.items true = [.rep .optional n.rowGroup] := by
      rw [items, h]
      rfl
    have htext : ∀ rest, n.text true ++ [k.symbol] ++ rest =
        '(' :: (n.branches.text ++ ')' :: '?' :: k.symbol :: rest) := by
      intro rest
      rw [text_of_optional h]
      simp
    cases k with
    | optional =>
      refine ⟨.rep .optional n.rowGroup, ?_, fun p w s => ?_⟩
      · intro rest hrest g around
        rw [htext, resume_rowGroup]
        exact Regex.resume_lazy g around n.rowGroup rest
      · have hone : ofItems (n.items true) = .rep .optional n.rowGroup := by
          rw [hitems]
          rfl
        rw [hone, Regex.matches_optional, Regex.matches_optional, Regex.matches_optional]
        simp
    | star | plus =>
      refine ⟨.rep _ (.rep .optional n.rowGroup), ?_, fun p w s => by rw [hitems]; rfl⟩
      intro rest hrest g around
      rw [htext, resume_rowGroup]
      refine .trans (Regex.resume_repetition g around .optional n.rowGroup ?_)
        (Regex.resume_repetition g around _ _ hrest)
      simp [Repetition.symbol]

end Node

/-! ## Compiled patterns -/

namespace Pattern

variable {l : List String} {o : CompileOptions} {p : Pattern}

/-- The text is made of strings of the list, as many as the repetition allows. -/
def IsRepeated (l : List String) (k : Repetition) (t : String) : Prop :=
  ∃ ms : List String, (∀ m ∈ ms, m ∈ l) ∧ k.Allows ms.length ∧ t = String.join ms

/-- Words of the root one after the other are strings of the list one after the other. -/
theorem exists_words_iff {k : Repetition} {t : String} :
    (∃ ws : List (List Char), (∀ w ∈ ws, (Trie.ofList l).root.contains w = true) ∧
      k.Allows ws.length ∧ t.toList = ws.flatten) ↔ IsRepeated l k t := by
  refine ⟨?_, ?_⟩
  · rintro ⟨ws, hws, hk, ht⟩
    refine ⟨ws.map String.ofList, ?_, by simpa using hk, ?_⟩
    · intro m hm
      obtain ⟨w, hw, rfl⟩ := List.mem_map.1 hm
      exact (Trie.root_contains_ofList l w).1 (hws w hw)
    · rw [← String.toList_inj, String.toList_join, ht, List.flatMap_map]
      simp
  · rintro ⟨ms, hms, hk, rfl⟩
    refine ⟨ms.map String.toList, ?_, by simpa using hk, ?_⟩
    · intro w hw
      obtain ⟨m, hm, rfl⟩ := List.mem_map.1 hw
      rw [Trie.root_contains_ofList, String.ofList_toList]
      exact hms m hm
    · rw [String.toList_join, List.flatMap_def]

/-- **A pattern with its group forced is one unit.**  Its text is a single group, and a repetition
written behind it repeats the whole set: the texts that are found are made of strings of the list,
as many as the repetition allows. -/
theorem repeated_exact (h : compile l o = .ok p) (hforce : o.forceWrap = true) :
    Regex.IsOneGroup p.fragment.toList ∧
      ∀ k : Repetition, ∃ r, Regex.parse? (anchor (p.fragment.push k.symbol)).toList = some r ∧
        ∀ t : String, (r.Found t.toList ↔ IsRepeated l k t) ∧
          (r.isFound t.toList = true ↔ IsRepeated l k t) := by
  have htext : p.fragment.toList = (Trie.ofList l).root.text true := by
    rw [toList_fragment_of_compile h, hforce]
  refine ⟨by rw [htext]; exact Node.isOneGroup_text _, fun k => ?_⟩
  obtain ⟨y, hread, hmatch⟩ := (Trie.ofList l).root.exists_readsAs_repeated k
  have hfragment : ReadsAs (p.fragment.push k.symbol).toList [y] := by
    rwa [String.toList_push, htext]
  have hwords : ∀ q w s, Matches (ofItems ((Trie.ofList l).root.items true)) q w s ↔
      (Trie.ofList l).root.contains w = true := fun q w s =>
    Node.matches_items (Trie.sound_ofList l) (live_root (ne_nil_of_compile h)) true
  have hfound : ∀ t : String, (Regex.anchored [y]).Found t.toList ↔ IsRepeated l k t := by
    intro t
    rw [Regex.found_anchored]
    exact (hmatch _ _ _).trans ((Regex.matches_repetition hwords).trans exists_words_iff)
  refine ⟨_, hfragment.parse?_anchor, fun t => ⟨hfound t, ?_⟩⟩
  rw [Regex.isFound_iff_found]
  exact hfound t

/-- Parentheses, operators and the empty string among the members. -/
theorem repeated_exact_hard :
    ∃ p, compile ["", "(", "(a)*", "\\)", "b"] { forceWrap := true, emptyMember := .optional } =
        .ok p ∧
      Regex.IsOneGroup p.fragment.toList ∧
      ∀ k : Repetition, ∃ r, Regex.parse? (anchor (p.fragment.push k.symbol)).toList = some r ∧
        ∀ t : String, (r.Found t.toList ↔ IsRepeated ["", "(", "(a)*", "\\)", "b"] k t) ∧
          (r.isFound t.toList = true ↔ IsRepeated ["", "(", "(a)*", "\\)", "b"] k t) := by
  have h := compile_eq ["", "(", "(a)*", "\\)", "b"]
    { forceWrap := true, emptyMember := .optional }
  rw [if_neg (by decide), if_neg (by decide)] at h
  exact ⟨_, h, repeated_exact h rfl⟩

end Pattern
end PrefixPattern
