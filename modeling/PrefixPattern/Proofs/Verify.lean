import PrefixPattern.Proofs.Fragment.Nesting
import PrefixPattern.Proofs.Regex.Parentheses
import PrefixPattern.Proofs.Regex.Search
import PrefixPattern.Verify

/-!
# What verification says about any fragment

Verification is meant for compiled patterns, but it takes any text.  A text that is an expression by
itself is checked for what it is, and most texts that are none are refused.  The exception is a text
that closes the group between the anchors and opens another one: with the anchors around it, it can
be an expression of a different shape, in which neither the anchors nor the text hold together.

## What is here

* `Regex.ReadsWithin` — a text is an expression by itself, within the nesting limit.
* `verify_eq_ok_iff`, `verify_eq_internal_iff` — the outcomes of verification, by what is found.
* `SoundlyVerified` — a fragment is only accepted for strings that it matches from end to end, and
  refused if it is no expression.
* `soundlyVerified_iff` — this holds of all fragments that leave the group between the anchors open,
  and of those that are refused anyway, and fails of all others.
* `verify_regrouped` — one of these, with a string of which it matches the first character only.
-/

set_option autoImplicit false

namespace PrefixPattern

open Regex (Matches anchored behindGroup nestingLimit)

variable {fragment : String} {strings : List String}

/-! ## The outcomes -/

/-- **Verification accepts the strings in which the anchored fragment is found.** -/
theorem verify_eq_ok_iff :
    verify fragment strings = .ok () ↔
      ∃ r, Regex.read? (anchor fragment).toList = some r ∧ ∀ s ∈ strings, r.Found s.toList := by
  rw [verify]
  cases Regex.read? (anchor fragment).toList with
  | none => simp
  | some r =>
    have hmissed : r.unmatched strings = [] ↔ ∀ s ∈ strings, r.Found s.toList := by
      rw [Regex.unmatched, List.filter_eq_nil_iff]
      refine forall₂_congr fun s _ => ?_
      rw [← Regex.isFound_iff_found, Regex.isFound]
      simp
    cases h : r.unmatched strings with
    | nil => simpa [h] using hmissed
    | cons s missed => simpa [h] using hmissed

/-- Verification has an internal error where the anchored fragment cannot be read. -/
theorem verify_eq_internal_iff :
    verify fragment strings = .error (.internal .unreadablePattern) ↔
      Regex.read? (anchor fragment).toList = none := by
  rw [verify]
  cases Regex.read? (anchor fragment).toList with
  | none => simp
  | some r => cases h : r.unmatched strings <;> simp [h]

/-! ## Fragments by themselves -/

/-- The text is read as the expression, which is within the nesting limit. -/
def Regex.ReadsWithin (text : List Char) (r : Regex) : Prop :=
  parse? text = some r ∧ r.nesting ≤ nestingLimit

/-- Verification of the fragment can be relied on: it accepts only strings that the fragment matches
from end to end, and refuses the fragment if it is no expression by itself. -/
structure SoundlyVerified (fragment : String) : Prop where
  matches_of_ok : ∀ strings, verify fragment strings = .ok () →
    ∃ r, Regex.ReadsWithin fragment.toList r ∧ ∀ s ∈ strings, Matches r [] s.toList []
  refused : ∀ strings, (∀ r, ¬ Regex.ReadsWithin fragment.toList r) →
    verify fragment strings = .error (.internal .unreadablePattern)

/-- A fragment that leaves the group between the anchors open is read in it if it is an expression
by itself. -/
theorem exists_of_read?_anchor (h : behindGroup fragment.toList 0 = none) {r : Regex}
    (hr : Regex.read? (anchor fragment).toList = some r) :
    ∃ q, r = anchored [q] ∧ Regex.ReadsWithin fragment.toList q := by
  rw [Regex.read?, Regex.parse?_anchor_of_behindGroup h] at hr
  cases hq : Regex.parse? fragment.toList with
  | none =>
    rw [hq] at hr
    cases hr
  | some q =>
    rw [hq, Option.map_some] at hr
    simp only [Option.ite_none_right_eq_some, Option.some.injEq] at hr
    obtain ⟨husable, rfl⟩ := hr
    rw [Regex.isUsable, Bool.and_eq_true, Regex.fits_iff, Regex.nesting_anchored] at husable
    have hnesting : q.nesting + 2 ≤ nestingLimit := husable.1
    exact ⟨q, rfl, hq, by omega⟩

theorem soundlyVerified_of_behindGroup (h : behindGroup fragment.toList 0 = none) :
    SoundlyVerified fragment where
  matches_of_ok strings hok := by
    obtain ⟨r, hr, hfound⟩ := verify_eq_ok_iff.1 hok
    obtain ⟨q, rfl, hq⟩ := exists_of_read?_anchor h hr
    exact ⟨q, hq, fun s hs => Regex.found_anchored.1 (hfound s hs)⟩
  refused strings hnone := by
    rw [verify_eq_internal_iff, Option.eq_none_iff_forall_ne_some]
    intro r hr
    obtain ⟨q, -, hq⟩ := exists_of_read?_anchor h hr
    exact hnone q hq

theorem soundlyVerified_of_read?_eq_none (h : Regex.read? (anchor fragment).toList = none) :
    SoundlyVerified fragment where
  matches_of_ok strings hok := by
    obtain ⟨r, hr, -⟩ := verify_eq_ok_iff.1 hok
    rw [h] at hr
    cases hr
  refused strings _ := verify_eq_internal_iff.2 h

/-- **Verification can be relied on, but for fragments that regroup.**  What it accepts is an
expression that matches every string from end to end, and what is no expression is refused, unless
the fragment closes the group between the anchors and can be read all the same; of such a fragment
it holds never. -/
theorem soundlyVerified_iff (fragment : String) :
    SoundlyVerified fragment ↔
      behindGroup fragment.toList 0 = none ∨ Regex.read? (anchor fragment).toList = none := by
  refine ⟨?_, ?_⟩
  · intro h
    by_cases hopen : behindGroup fragment.toList 0 = none
    · exact Or.inl hopen
    · have hnone : ∀ r, ¬ Regex.ReadsWithin fragment.toList r := by
        rintro r ⟨hr, -⟩
        rw [Regex.parse?_eq_none_of_behindGroup hopen] at hr
        cases hr
      exact Or.inr (verify_eq_internal_iff.1 (h.refused [] hnone))
  · rintro (h | h)
    · exact soundlyVerified_of_behindGroup h
    · exact soundlyVerified_of_read?_eq_none h

/-- **Accepted, but no expression**: between the anchors, the fragment becomes the two alternatives
`^(?:a)` and `(b)$`, of which the first is found in any text that begins with an `a`. -/
theorem verify_regrouped :
    Regex.parse? "a)|(b".toList = none ∧ verify "a)|(b" ["axyz"] = .ok () := by
  refine ⟨by decide, verify_eq_ok_iff.2 ?_⟩
  refine ⟨.alt (.seq .start (.group false (.lit 'a'))) (.seq (.group true (.lit 'b')) .stop),
    by decide, List.forall_mem_singleton.2 ?_⟩
  have hleft : Matches (.seq .start (.group false (.lit 'a'))) [] ['a'] ['x', 'y', 'z'] :=
    Regex.matches_seq.2 ⟨[], ['a'], rfl, .start, .group .lit⟩
  exact ⟨[], ['a'], ['x', 'y', 'z'], rfl, .left hleft⟩

end PrefixPattern
