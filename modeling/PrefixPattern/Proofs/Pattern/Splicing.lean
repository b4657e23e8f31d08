import Mathlib.Data.List.Forall2
import PrefixPattern.Proofs.Pattern.Exactness

/-!
# Patterns spliced into larger ones

A pattern is made to be written next to other pattern text: between literal prefixes and suffixes,
or next to other patterns.  Nothing is put between the pieces, so it has to be seen that none of
them is read differently because of its neighbours.

## What is here

* `Splice` — a piece of a larger pattern: an escaped literal, or a compiled pattern together with
  what it was compiled from.  `Splice.text` is what is written for it, `Splice.items` what that is
  read as, and `Splice.Means` which strings it stands for.
* `Splice.readsAs_flatMap` — the texts of pieces next to each other are read as the items of the
  pieces, one after the other.
* `Splice.matches_flatMap` — and these match one string for each piece, in order.
* `Splice.spliced_exact` — both together, for every list of pieces.

The only character that could change what is in front of it is a question mark, and no piece begins
with one (`Splice.head?_text`).
-/

set_option autoImplicit false

namespace PrefixPattern

open Regex (ReadsAs Matches ofItems)

/-- The fragment of a node does not begin with a question mark. -/
theorem Node.head?_text (n : Node) (force : Bool) : (n.text force).head? ≠ some '?' := by
  rw [text, Grouping.enclose, List.append_assoc]
  cases n.grouping force with
  | bare => exact Branches.head?_text_append (by simp [Grouping.closing])
  | group | optional => simp [Grouping.opening]

/-- A piece of a larger pattern. -/
inductive Splice where
  /-- a text that stands for itself -/
  | literal (w : String)
  /-- the fragment of a string set -/
  | compiled (l : List String) (o : CompileOptions) (p : Pattern) (h : Pattern.compile l o = .ok p)

namespace Splice

/-- The pattern text of a piece. -/
def text : Splice → String
  | literal w => Literal.escape w
  | compiled _ _ p _ => p.fragment

/-- The items that a piece is read as. -/
def items : Splice → List Regex
  | literal w => w.toList.map .lit
  | compiled l o _ _ => (Trie.ofList l).root.items o.forceWrap

/-- The piece stands for the string. -/
def Means : Splice → String → Prop
  | literal w, s => s = w
  | compiled l _ _ _, s => s ∈ l

/-- The text is made of one string for each piece, in order. -/
def Spell (pieces : List Splice) (t : String) : Prop :=
  ∃ ws : List String, List.Forall₂ Means pieces ws ∧ t = String.join ws

/-! ## Reading -/

/-- Each piece by itself is read as its items. -/
theorem readsAs_text (x : Splice) : ReadsAs x.text.toList x.items := by
  cases x with
  | literal w => exact Regex.readsAs_escape w
  | compiled l o p h =>
    rw [text, Pattern.toList_fragment_of_compile h]
    exact Node.readsAs_text _ _

/-- No piece begins with a question mark. -/
theorem head?_text (x : Splice) : x.text.toList.head? ≠ some '?' := by
  cases x with
  | literal w =>
    rw [text, Literal.toList_escape]
    cases w.toList with
    | nil => simp
    | cons c v =>
      rw [Literal.ofList_cons]
      exact Regex.head?_literal_append c _
  | compiled l o p h =>
    rw [text, Pattern.toList_fragment_of_compile h]
    exact Node.head?_text _ _

theorem head?_flatMap_text (pieces : List Splice) :
    (pieces.flatMap fun x => x.text.toList).head? ≠ some '?' := by
  induction pieces with
  | nil => simp
  | cons x pieces ih => exact Regex.head?_append_ne x.head?_text ih

/-- **Pieces next to each other are read piece by piece.** -/
theorem readsAs_flatMap (pieces : List Splice) :
    ReadsAs (pieces.flatMap fun x => x.text.toList) (pieces.flatMap items) := by
  induction pieces with
  | nil => exact Regex.readsAs_nil
  | cons x pieces ih => exact x.readsAs_text.append ih (head?_flatMap_text pieces)

/-! ## Matching -/

variable {p w s : List Char}

/-- The items of a piece match the strings that it stands for. -/
theorem matches_items (x : Splice) :
    Matches (ofItems x.items) p w s ↔ x.Means (String.ofList w) := by
  cases x with
  | literal v =>
    rw [items, Regex.matches_lits, Means, ← String.toList_inj, String.toList_ofList]
  | compiled l o q h =>
    rw [items, Node.matches_items (Trie.sound_ofList l)
      (Pattern.live_root (Pattern.ne_nil_of_compile h)), Trie.root_contains_ofList, Means]

/-- **The items of several pieces match one string for each of them, in order.** -/
theorem matches_flatMap (pieces : List Splice) :
    Matches (ofItems (pieces.flatMap items)) p w s ↔ Spell pieces (String.ofList w) := by
  induction pieces generalizing p w with
  | nil =>
    rw [List.flatMap_nil, Regex.matches_ofItems_nil, Spell]
    simp [← String.toList_inj]
  | cons x pieces ih =>
    rw [List.flatMap_cons, Regex.matches_ofItems_append]
    simp only [matches_items, ih]
    refine ⟨?_, ?_⟩
    · rintro ⟨u, v, rfl, hu, ws, hws, hv⟩
      refine ⟨String.ofList u :: ws, .cons hu hws, ?_⟩
      rw [String.ofList_append, hv, String.join_cons]
    · rintro ⟨ws, hws, hw⟩
      obtain ⟨v, rest, hv, hrest, rfl⟩ := List.forall₂_cons_left_iff.1 hws
      refine ⟨v.toList, (String.join rest).toList, ?_, by rwa [String.ofList_toList], rest, hrest,
        String.ofList_toList⟩
      rw [← String.toList_append, ← String.join_cons, ← hw, String.toList_ofList]

/-! ## Larger patterns -/

/-- **A pattern of pieces is read and matched piece by piece.**  Each piece is read as its own
items, whatever its neighbours are; and what is found, by the meaning of the pattern as by the
search, is the texts that are made of one string for each piece, in order. -/
theorem spliced_exact (pieces : List Splice) :
    Regex.parse? (anchor (String.join (pieces.map text))).toList =
        some (.anchored (pieces.flatMap items)) ∧
      ∀ t : String,
        ((Regex.anchored (pieces.flatMap items)).Found t.toList ↔ Spell pieces t) ∧
        ((Regex.anchored (pieces.flatMap items)).isFound t.toList = true ↔ Spell pieces t) := by
  have hread : ReadsAs (String.join (pieces.map text)).toList (pieces.flatMap items) := by
    rw [String.toList_join, List.flatMap_map]
    exact readsAs_flatMap pieces
  have hfound : ∀ t : String,
      (Regex.anchored (pieces.flatMap items)).Found t.toList ↔ Spell pieces t := by
    intro t
    rw [Regex.found_anchored, matches_flatMap, String.ofList_toList]
  refine ⟨hread.parse?_anchor, fun t => ⟨hfound t, ?_⟩⟩
  rw [Regex.isFound_iff_found]
  exact hfound t

/-- Three sets next to each other and between literals that need escapes: the first may be left out,
the second goes on optionally in front of a question mark that stands for itself, and the third is
joined to it by nothing at all. -/
theorem spliced_exact_mixed :
    let pieces : List Splice :=
      [.compiled ["", "a"] ⟨false, .optional⟩ ⟨"(a)?", true, 2, 2⟩ (by decide +kernel),
        .literal "+(", .compiled ["xy", "x"] {} ⟨"x(y)?", false, 2, 3⟩ (by decide +kernel),
        .compiled ["y", "z"] {} ⟨"(y|z)", false, 2, 3⟩ (by decide +kernel), .literal "?"]
    String.join (pieces.map text) = "(a)?\\+\\(x(y)?(y|z)\\?" ∧
      Regex.parse? (anchor "(a)?\\+\\(x(y)?(y|z)\\?").toList =
        some (.anchored (pieces.flatMap items)) ∧
      (Regex.anchored (pieces.flatMap items)).isFound "a+(xyz?".toList = true ∧
      (Regex.anchored (pieces.flatMap items)).isFound "+(xy?".toList = true ∧
      (Regex.anchored (pieces.flatMap items)).isFound "a+(xyyz?".toList = false := by
  intro pieces
  have htext : String.join (pieces.map text) = "(a)?\\+\\(x(y)?(y|z)\\?" := by decide +kernel
  obtain ⟨hread, hfound⟩ := spliced_exact pieces
  rw [htext] at hread
  refine ⟨htext, hread, (hfound _).2.2 ⟨["a", "+(", "xy", "z", "?"], ?_, by decide⟩,
    (hfound _).2.2 ⟨["", "+(", "x", "y", "?"], ?_, by decide⟩,
    Bool.eq_false_iff.2 fun htrue => ?_⟩
  · simp [pieces, Means]
  · simp [pieces, Means]
  · obtain ⟨ws, hws, ht⟩ := (hfound _).2.1 htrue
    simp only [pieces, List.forall₂_cons_left_iff, List.forall₂_nil_left_iff, Means,
      List.mem_cons, List.not_mem_nil, or_false] at hws
    obtain ⟨u, _, hu, ⟨_, _, rfl, ⟨v, _, hv, ⟨w, _, hw, ⟨_, _, rfl, rfl, rfl⟩, rfl⟩, rfl⟩, rfl⟩,
      rfl⟩ := hws
    -- the longest text that the pieces can make is shorter
    have hlength := congrArg String.length ht
    rcases hu with rfl | rfl <;> rcases hv with rfl | rfl <;> rcases hw with rfl | rfl <;>
      exact absurd hlength (by decide)

end Splice
end PrefixPattern
