/-!
# Regular expressions and the texts they match

The part of regular expression syntax that patterns are made of: characters, `.`, the two anchors,
groups, the repetitions `?`, `*` and `+`, sequences and alternatives.

## What is here

* `Regex` — the syntax tree.  A sequence or a list of alternatives is a spine of `seq` or `alt` to
  the right; what was written in parentheses keeps its `group`, so two spines never run together.
* `Regex.Matches r before w after` — the expression `r` matches `w` when `before` stands in front of
  it and `after` behind it; the surroundings matter to the anchors alone.
* `Regex.Found r text` — the expression matches somewhere in the text.
* `Regex.nesting` — how deep the syntax tree is, a whole spine counting once, and `Regex.fits`,
  which compares it with a bound (`Regex.fits_iff`).
-/

set_option autoImplicit false

namespace PrefixPattern

/-- How often the repeated expression may match. -/
inductive Repetition where
  /-- once or not at all -/
  | optional
  /-- any number of times -/
  | star
  /-- at least once -/
  | plus
  deriving DecidableEq, Repr, Inhabited

namespace Repetition

/-- Not matching at all is enough. -/
def allowsNone : Repetition → Bool
  | optional | star => true
  | plus => false

/-- Another match may follow. -/
def allowsMore : Repetition → Bool
  | optional => false
  | star | plus => true

end Repetition

/-- A regular expression. -/
inductive Regex where
  | empty
  | lit (c : Char)
  /-- any character that is not a line feed -/
  | any
  /-- the start of the text -/
  | start
  /-- the end of the text -/
  | stop
  /-- an expression in parentheses; a capturing group remembers what it matched -/
  | group (captures : Bool) (r : Regex)
  | rep (k : Repetition) (r : Regex)
  | seq (r s : Regex)
  | alt (r s : Regex)
  deriving DecidableEq, Repr, Inhabited

namespace Regex

/-! ## Meaning -/

/-- The expression matches the middle text between the two others. -/
inductive Matches : Regex → List Char → List Char → List Char → Prop
  | empty {p s : List Char} : Matches .empty p [] s
  | lit {c : Char} {p s : List Char} : Matches (.lit c) p [c] s
  | any {c : Char} {p s : List Char} (h : c ≠ '\n') : Matches .any p [c] s
  | start {s : List Char} : Matches .start [] [] s
  | stop {p : List Char} : Matches .stop p [] []
  | group {b : Bool} {r : Regex} {p w s : List Char} :
      Matches r p w s → Matches (.group b r) p w s
  | none {k : Repetition} {r : Regex} {p s : List Char} (h : k.allowsNone = true) :
      Matches (.rep k r) p [] s
  | once {k : Repetition} {r : Regex} {p w s : List Char} :
      Matches r p w s → Matches (.rep k r) p w s
  | more {k : Repetition} {r : Regex} {p v w s : List Char} (h : k.allowsMore = true) :
      Matches r p v (w ++ s) → Matches (.rep k r) (p ++ v) w s → Matches (.rep k r) p (v ++ w) s
  | seq {q r : Regex} {p v w s : List Char} :
      Matches q p v (w ++ s) → Matches r (p ++ v) w s → Matches (.seq q r) p (v ++ w) s
  | left {q r : Regex} {p w s : List Char} : Matches q p w s → Matches (.alt q r) p w s
  | right {q r : Regex} {p w s : List Char} : Matches r p w s → Matches (.alt q r) p w s

/-- The expression matches a part of the text. -/
def Found (r : Regex) (text : List Char) : Prop :=
  ∃ p w s, text = p ++ w ++ s ∧ Matches r p w s

/-! ## Nesting -/

/-- The expression goes on a sequence. -/
def isSeq : Regex → Bool
  | seq .. => true
  | _ => false

/-- The expression goes on a list of alternatives. -/
def isAlt : Regex → Bool
  | alt .. => true
  | _ => false

/-- The greatest number of sequences, lists of alternatives, groups and repetitions that lie around
one place of the expression. -/
def nesting : Regex → Nat
  | empty | lit _ | any | start | stop => 0
  | group _ r => nesting r + 1
  | rep _ r => nesting r + 1
  | seq r s => max (nesting r + 1) (if s.isSeq then nesting s else nesting s + 1)
  | alt r s => max (nesting r + 1) (if s.isAlt then nesting s else nesting s + 1)

/-- The nesting is at most `n`. -/
def fits : Regex → Nat → Bool
  | empty, _ | lit _, _ | any, _ | start, _ | stop, _ => true
  | group _ _, 0 | rep _ _, 0 | seq _ _, 0 | alt _ _, 0 => false
  | group _ r, n + 1 => fits r n
  | rep _ r, n + 1 => fits r n
  | seq r s, n + 1 => fits r n && fits s (if s.isSeq then n + 1 else n)
  | alt r s, n + 1 => fits r n && fits s (if s.isAlt then n + 1 else n)

theorem fits_iff {r : Regex} {n : Nat} : r.fits n = true ↔ r.nesting ≤ n := by
  induction r generalizing n with
  | empty | lit _ | any | start | stop => simp [fits, nesting]
  | group b r ih => cases n <;> simp [fits, nesting, ih]
  | rep k r ih => cases n <;> simp [fits, nesting, ih]
  | seq r s ihr ihs =>
    cases n with
    | zero => simp [fits, nesting]
    | succ n =>
      rw [fits, nesting, Bool.and_eq_true, ihr, ihs, Nat.max_le, Nat.add_le_add_iff_right]
      cases s.isSeq <;> simp
  | alt r s ihr ihs =>
    cases n with
    | zero => simp [fits, nesting]
    | succ n =>
      rw [fits, nesting, Bool.and_eq_true, ihr, ihs, Nat.max_le, Nat.add_le_add_iff_right]
      cases s.isAlt <;> simp

end Regex
end PrefixPattern
