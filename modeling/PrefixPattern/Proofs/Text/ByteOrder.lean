import Mathlib.Data.Char
import Mathlib.Data.List.Lex
import Mathlib.Data.String.Basic
import Mathlib.Order.Monotone.Basic
import PrefixPattern.Proofs.Lines

/-!
# The order of texts and the order of their bytes

Texts are compared character by character.  UTF-8 is made in such a way that comparing the bytes
comes to the same: a greater character has a greater first byte, or else, with the same number of
bytes, a greater one at the first place where they differ.

## What is here

* `charBytes_append_lt` — one character, whatever follows it.
* `lt_iff_bytes_lt` — two texts.
-/

set_option autoImplicit false

namespace PrefixPattern

/-- The bytes of a character, as numbers. -/
def charBytes (c : Char) : List Nat :=
  (String.utf8EncodeChar c).map UInt8.toNat

/-- The bytes of a text, as numbers. -/
def bytes (text : String) : List Nat :=
  text.toUTF8.data.toList.map UInt8.toNat

theorem charBytes_eq (c : Char) :
    charBytes c =
      let n := c.val.toNat
      if n ≤ 0x7f then [n]
      else if n ≤ 0x7ff then [n / 64 + 192, n % 64 + 128]
      else if n ≤ 0xffff then [n / 4096 + 224, n / 64 % 64 + 128, n % 64 + 128]
      else [n / 262144 + 240, n / 4096 % 64 + 128, n / 64 % 64 + 128, n % 64 + 128] := by
  have hc : c.val.toNat < 1114112 := by
    obtain hlow | ⟨-, hhigh⟩ := c.valid
    · exact lt_trans hlow (by decide)
    · exact hhigh
  simp only [charBytes, String.utf8EncodeChar]
  split_ifs <;>
    simp only [List.map_cons, List.map_nil, UInt8.toNat_ofNat', List.cons.injEq, and_true] <;> omega

/-- The bytes of a lesser character come first, whatever follows. -/
theorem charBytes_append_lt {c d : Char} (h : c < d) (u v : List Nat) :
    charBytes c ++ u < charBytes d ++ v := by
  have hcd : c.val.toNat < d.val.toNat := h
  rw [charBytes_eq, charBytes_eq]
  generalize c.val.toNat = m at hcd ⊢
  generalize d.val.toNat = n at hcd ⊢
  simp only
  split_ifs <;>
    simp only [List.cons_append, List.nil_append, List.cons_lt_cons_iff] <;> omega

/-- Comparing texts character by character is comparing their bytes, in one direction. -/
theorem flatMap_charBytes_lt {cs ds : List Char} (h : cs < ds) :
    cs.flatMap charBytes < ds.flatMap charBytes := by
  induction h with
  | @nil c cs =>
    obtain ⟨b, rest, hb⟩ := List.exists_cons_of_ne_nil (String.utf8EncodeChar_ne_nil (c := c))
    rw [List.flatMap_cons, charBytes, hb]
    exact List.nil_lt_cons _ _
  | rel h => exact charBytes_append_lt h _ _
  | cons h ih => exact List.append_left_lt ih

/-- **The order of texts is the order of their bytes.** -/
theorem lt_iff_bytes_lt {s t : String} : s < t ↔ bytes s < bytes t := by
  have hbytes : ∀ text : String, bytes text = text.toList.flatMap charBytes := by
    intro text
    rw [bytes, toList_toUTF8, encode, List.map_flatMap]
    rfl
  have hmono : StrictMono fun cs : List Char => cs.flatMap charBytes :=
    fun _ _ h => flatMap_charBytes_lt h
  rw [hbytes, hbytes, String.lt_iff_toList_lt]
  exact hmono.lt_iff_lt.symm

end PrefixPattern
