import PrefixPattern.Proofs.Fragment.Nesting
import PrefixPattern.Proofs.Pattern.Forcing

/-!
# Escaped strings stand for themselves

Escaping puts a backslash in front of the characters that are not bare.  What comes out is read
character by character, each as itself, in whatever pattern it stands; so nothing of the string is
lost, and the string alone is what it matches.  The same text is written for the set of this one
string, although that goes through a trie.

## What is here

* `unescape` — a text without its escaping backslashes; `unescape_ofList` says that this undoes
  escaping.
* `Regex.spelling` — the expression of one string; `Regex.found_spelling` and
  `Regex.nesting_spelling_le` say where it is found and that it is never nested too deep.
* `Node.text_insert_empty`, `Pattern.map_fragment_compile_singleton` — the fragment of a single
  string.
* `Literal.escape_faithful` — all of this together, for every string.
-/

set_option autoImplicit false

namespace PrefixPattern

namespace Literal

/-- The text without the backslashes that escape the character behind them. -/
def unescape : List Char → List Char
  | [] => []
  | '\\' :: c :: cs => c :: unescape cs
  | c :: cs => c :: unescape cs

theorem unescape_ofChar_append (c : Char) (cs : List Char) :
    unescape (ofChar c ++ cs) = c :: unescape cs := by
  rw [ofChar]
  split
  · rename_i hbare
    rw [List.singleton_append, unescape]
    -- a bare character is no backslash
    rintro d ds rfl -
    exact absurd hbare (by decide)
  · rfl

/-- **Dropping the escaping backslashes undoes escaping.** -/
theorem unescape_ofList (w : List Char) : unescape (ofList w) = w := by
  induction w with
  | nil => rfl
  | cons c w ih => rw [ofList_cons, unescape_ofChar_append, ih]

theorem escape_injective : Function.Injective escape := by
  intro s t h
  have htext : ofList s.toList = ofList t.toList := by rw [← toList_escape, h, toList_escape]
  rw [← String.toList_inj, ← unescape_ofList s.toList, htext, unescape_ofList]

end Literal

/-! ## Reading -/

namespace Regex

/-- The expression that is found in the string and nowhere else. -/
def spelling (s : String) : Regex :=
  anchored (s.toList.map lit)

/-- It is nested three levels deep, however long the string is. -/
theorem nesting_spelling_le (s : String) : (spelling s).nesting ≤ 3 := by
  have hunit : ∀ x ∈ s.toList.map lit, x.isUnit = true := by
    intro x hx
    obtain ⟨c, -, rfl⟩ := List.mem_map.1 hx
    rfl
  have hsequence : (ofItems (s.toList.map lit)).nesting ≤ 1 := by
    refine (nesting_ofItems_le_iff hunit).2 fun x hx => ?_
    obtain ⟨c, -, rfl⟩ := List.mem_map.1 hx
    rw [nesting, joint]
    split <;> omega
  rw [spelling, nesting_anchored]
  omega

theorem found_spelling {s t : String} : (spelling s).Found t.toList ↔ t = s := by
  rw [spelling, found_anchored, matches_lits, String.toList_inj]

end Regex

/-! ## Writing -/

namespace Node

variable (w : List Char)

theorem grouping_insert_empty : (empty.insert w).grouping false = .bare := by
  cases w with
  | nil => rfl
  | cons c w =>
    rw [insert_cons]
    rfl

/-- A word put into an empty tree is written as its escaped characters. -/
theorem text_insert_empty : (empty.insert w).text false = Literal.ofList w := by
  induction w with
  | nil => rfl
  | cons c w ih =>
    have hchild : empty.child c = empty := rfl
    rw [text, grouping_insert_empty, insert_cons, hchild]
    change [] ++ (Literal.ofChar c ++ (empty.insert w).text false ++ [] ++ []) ++ [] = _
    rw [ih, Literal.ofList_cons]
    simp only [List.nil_append, List.append_nil]

end Node

/-- **The fragment of a single string is the escaped string**, in parentheses if a group is
forced. -/
theorem Pattern.map_fragment_compile_singleton (s : String) (force : Bool) :
    (compile [s] { forceWrap := force }).map fragment =
      if s = "" then .error .emptyMember
      else .ok (if force then "(" ++ Literal.escape s ++ ")" else Literal.escape s) := by
  have hoptions : ({ forceWrap := force } : CompileOptions).emptyMember = .reject := rfl
  rw [compile_eq]
  by_cases hs : s = ""
  · rw [if_pos ⟨List.mem_singleton.2 hs.symm, hoptions⟩, if_pos hs]
    rfl
  · have hempty : "" ∉ [s] := fun h => hs (List.mem_singleton.1 h).symm
    rw [if_neg fun h => hempty h.1, if_neg (List.cons_ne_nil s []), if_neg hs]
    refine congrArg Except.ok ?_
    rw [← String.toList_inj, ofTrie, Node.toList_fragment, Trie.root_ofList_singleton]
    cases force with
    | false => simp [Node.text_insert_empty]
    | true =>
      rw [Node.text_force_of_bare (Node.grouping_insert_empty _), Node.text_insert_empty]
      simp

/-- **Escaping is faithful.**  Different strings are escaped differently, and dropping the
backslashes gives a string back.  Alone, next to any other pattern text and between the anchors, an
escaped string is read as the sequence of its characters, each standing for itself; between the
anchors this is found in the string alone.  The same text is the pattern of the set of this one
string, if it is not empty. -/
theorem Literal.escape_faithful :
    Function.Injective escape ∧ ∀ s : String,
      unescape (escape s).toList = s.toList ∧
      Regex.parse? (escape s).toList = some (Regex.ofItems (s.toList.map .lit)) ∧
      Regex.ReadsAs (escape s).toList (s.toList.map .lit) ∧
      Regex.parse? (anchor (escape s)).toList = some (Regex.spelling s) ∧
      (Regex.spelling s).nesting ≤ 3 ∧
      (∀ t : String, ((Regex.spelling s).Found t.toList ↔ t = s) ∧
        ((Regex.spelling s).isFound t.toList = true ↔ t = s)) ∧
      ∀ force, (Pattern.compile [s] { forceWrap := force }).map Pattern.fragment =
        if s = "" then .error .emptyMember
        else .ok (if force then "(" ++ escape s ++ ")" else escape s) := by
  refine ⟨escape_injective, fun s => ?_⟩
  have hreads := Regex.readsAs_escape s
  refine ⟨?_, hreads.parse?_self, hreads, hreads.parse?_anchor, Regex.nesting_spelling_le s,
    fun t => ⟨Regex.found_spelling, ?_⟩, Pattern.map_fragment_compile_singleton s⟩
  · rw [toList_escape, unescape_ofList]
  · rw [Regex.isFound_iff_found]
    exact Regex.found_spelling

end PrefixPattern
