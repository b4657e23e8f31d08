import PrefixPattern.Proofs.Regex.Reading
import PrefixPattern.Regex.Automaton.Size

/-!
# The automaton of a text

An anchored text without any operators is the simplest pattern there is, and still its automaton has
a state for every byte of it.  What is in front of and behind these states has the same size for all
texts, the empty one included.

## What is here

* `Regex.normalForm_anchored_lits` — the characters of such a text are joined to one.
* `Regex.automatonSize_anchored_lits` — the size of its automaton.
-/

set_option autoImplicit false

namespace PrefixPattern

/-! ## Normal forms of texts -/

namespace NormalForm

/-- Single characters are taken up by the text that is not complete. -/
theorem joinTexts_chars (w : List Char) (xs : List NormalForm) (pending : List Char)
    (done : List NormalForm) :
    joinTexts (w.map (fun c => text [c]) ++ xs) pending done =
      joinTexts xs (w.reverse ++ pending) done := by
  induction w generalizing pending with
  | nil => rfl
  | cons c w ih =>
    rw [List.map_cons, List.cons_append, joinTexts, ih]
    simp

theorem closeText_nil (done : List NormalForm) : closeText [] done = done := rfl

theorem closeText_reverse {w : List Char} (hw : w ≠ []) (done : List NormalForm) :
    closeText w.reverse done = text w :: done := by
  rw [closeText]
  · rw [List.reverse_reverse]
  · simpa using hw

theorem sequence_chars {w : List Char} (hw : w ≠ []) :
    sequence (w.map fun c => text [c]) = text w := by
  have hitems : (w.map fun c => text [c]).flatMap items = (w.map fun c => text [c]) ++ [] := by
    rw [List.flatMap_map, List.append_nil, List.map_eq_flatMap]
    rfl
  rw [sequence, hitems, joinTexts_chars, List.append_nil, joinTexts, closeText_reverse hw]
  rfl

end NormalForm

namespace Regex

/-- Behind other items of a NormalForm.sequence, each character of a text is an item of its own. -/
theorem collect_lits_ofSeq {w : List Char} (hw : w ≠ []) (done : List NormalForm) :
    collect (ofItems (w.map lit)) .ofSeq done = (w.map fun c => .text [c]).reverse ++ done := by
  induction w generalizing done with
  | nil => exact absurd rfl hw
  | cons c w ih =>
    cases w with
    | nil => rfl
    | cons d w =>
      change collect (ofItems ((d :: w).map lit)) .ofSeq (.text [c] :: done) = _
      rw [ih (List.cons_ne_nil d w)]
      simp

/-- By itself, a text is one item. -/
theorem collect_lits_alone {w : List Char} (hw : w ≠ []) (done : List NormalForm) :
    collect (ofItems (w.map lit)) .alone done = .text w :: done := by
  match w, hw with
  | [c], _ => rfl
  | c :: d :: w, _ =>
    have hjoin : NormalForm.sequence ((c :: d :: w).map fun c => .text [c]) = .text (c :: d :: w) :=
      NormalForm.sequence_chars (List.cons_ne_nil c (d :: w))
    change .sequence (collect (ofItems ((d :: w).map lit)) .ofSeq [.text [c]]).reverse :: done = _
    rw [collect_lits_ofSeq (List.cons_ne_nil d w), List.reverse_append, List.reverse_reverse,
      ← hjoin]
    rfl

theorem normalForm_anchored (items : List Regex) :
    (anchored items).normalForm =
      .sequence ((collect (ofItems items) .alone [.start]).reverse ++ [.stop]) := by
  rw [← List.reverse_cons]
  rfl

/-- **An anchored text is one text between the anchors.** -/
theorem normalForm_anchored_lits {w : List Char} (hw : w ≠ []) :
    (anchored (w.map lit)).normalForm = .seq [.start, .text w, .stop] := by
  have hjoin : NormalForm.joinTexts ([.start, .text w, .stop].flatMap NormalForm.items) [] [] =
      [.start, .text w, .stop] := by
    simp [NormalForm.joinTexts, NormalForm.items, NormalForm.closeText_reverse hw,
      NormalForm.closeText_nil]
  rw [normalForm_anchored, collect_lits_alone hw]
  change NormalForm.sequence [.start, .text w, .stop] = _
  rw [NormalForm.sequence, hjoin]

/-- **The automaton of an anchored text** has 32 bytes for every byte of the text and 192 more. -/
theorem automatonSize_anchored_lits (w : List Char) :
    (anchored (w.map lit)).automatonSize = 32 * (String.ofList w).utf8ByteSize + 192 := by
  by_cases hw : w = []
  · rw [hw]
    rfl
  · rw [automatonSize, normalForm_anchored_lits hw]
    simp [NormalForm.automatonSize, NormalForm.entrySize, NormalForm.isAnchored,
      NormalForm.firstIsAnchored, NormalForm.lastIsAnchored, NormalForm.size, NormalForm.sizes,
      automatonCosts]
    omega

end Regex
end PrefixPattern
