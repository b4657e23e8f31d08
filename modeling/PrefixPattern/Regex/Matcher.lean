import PrefixPattern.Regex.Program
import Std.Data.HashSet

/-!
# Matching regular expressions

A text is read once, character by character.  What is kept is a list of addresses of the program of
the expression: those at which it could go on directly behind what was read.

## What is here

* `Program.explore` — the characters that can come next, from given addresses, each with the address
  behind it; or that the end of the program can be reached without any.
* `Program.search` — whether the end is ever reached; the program is also started anew at every place
  of the text, so a match may begin anywhere.
* `Regex.isFound` — the answer for a text.
-/

set_option autoImplicit false

namespace PrefixPattern
namespace Program

/-- A place of a text: whether it is the start, and whether it is the end. -/
structure Place where
  atStart : Bool
  atEnd : Bool
  deriving DecidableEq, Repr

/-- What can take the next character: a certain one, or with `none` any but a line feed.  The address
is that at which to go on behind it. -/
structure Thread where
  char : Option Char
  next : Nat
  deriving DecidableEq, Repr

/-- The instruction takes a character. -/
def thread? : Instruction → Option Thread
  | .lit c next => some ⟨some c, next⟩
  | .any next => some ⟨none, next⟩
  | _ => none

/-- Where an instruction that takes no character goes on at a place of the text. -/
def goesOn (place : Place) : Instruction → List Nat
  | .lit .. | .any _ => []
  | .start next => if place.atStart then [next] else []
  | .stop next => if place.atEnd then [next] else []
  | .jump next => [next]
  | .fork next other => [next, other]

/-- How many instructions are at addresses that were not seen. -/
def unseen (program : Program) (seen : Std.HashSet Nat) : Nat :=
  (List.range program.size).countP fun k => !seen.contains k

theorem countP_lt_countP {α : Type} {p q : α → Bool} {l : List α} (h : ∀ x, p x → q x) {a : α}
    (ha : a ∈ l) (hq : q a = true) (hp : p a = false) : l.countP p < l.countP q := by
  have hle : ∀ l : List α, l.countP p ≤ l.countP q := fun l =>
    List.countP_mono_left fun x _ hx => h x hx
  induction l with
  | nil => cases ha
  | cons x l ih =>
    rcases List.mem_cons.1 ha with rfl | ha
    · rw [List.countP_cons_of_pos hq, List.countP_cons_of_neg (by simp [hp])]
      exact Nat.lt_succ_of_le (hle l)
    · have := ih ha
      by_cases hx : p x = true
      · rw [List.countP_cons_of_pos hx, List.countP_cons_of_pos (h x hx)]
        omega
      · rw [List.countP_cons_of_neg hx, List.countP_cons]
        omega

theorem unseen_insert_lt {program : Program} {seen : Std.HashSet Nat} {k : Nat}
    (hk : k < program.size) (h : seen.contains k = false) :
    unseen program (seen.insert k) < unseen program seen :=
  countP_lt_countP (by simp) (List.mem_range.2 hk) (by simp [h]) (by simp)

/-- Go on from the addresses in `todo` as far as that takes no characters, and collect what can take
one, behind the threads in `found`; nothing once the end of the program is reached. -/
def explore (program : Program) (place : Place) (todo : List Nat) (seen : Std.HashSet Nat)
    (found : List Thread) : Option (List Thread) :=
  match todo with
  | [] => some found
  | k :: todo =>
    if _hs : seen.contains k then explore program place todo seen found
    else if hk : k < program.size then
      let step := program[k]
      match thread? step with
      | some t => explore program place todo (seen.insert k) (t :: found)
      | none => explore program place (goesOn place step ++ todo) (seen.insert k) found
    else none
termination_by (unseen program seen, todo.length)
decreasing_by
  · exact Prod.Lex.right _ (by simp)
  · exact Prod.Lex.left _ _ (unseen_insert_lt hk (by simpa using _hs))
  · exact Prod.Lex.left _ _ (unseen_insert_lt hk (by simpa using _hs))

/-- The address behind a thread that takes the character. -/
def Thread.advance? (c : Char) (t : Thread) : Option Nat :=
  match t.char with
  | some d => if d = c then some t.next else none
  | none => if c = '\n' then none else some t.next

/-- The end of the program is reached from one of the addresses, or from its beginning here or later
in the text. -/
def search (program : Program) (atStart : Bool) (now : List Nat) : List Char → Bool
  | [] => (explore program ⟨atStart, true⟩ (0 :: now) ∅ []).isNone
  | c :: cs =>
    match explore program ⟨atStart, false⟩ (0 :: now) ∅ [] with
    | none => true
    | some threads => search program false (threads.filterMap (Thread.advance? c)) cs

end Program

/-- The expression matches somewhere in the text. -/
def Regex.isFound (r : Regex) (text : List Char) : Bool :=
  r.program.search true [] text

end PrefixPattern
