import PrefixPattern.Proofs.Pattern.Exactness

/-!
# The characters of a fragment

A fragment is made of the characters of its strings, of backslashes in front of some of them, and of
the four signs that group them.  A character that is neither a backslash nor a sign is therefore in
the fragment just where it is in one of the strings.  Among these is the line feed, which a fragment
never has without a backslash in front of it.

## What is here

* `Branches.mem_text_iff`, `Pattern.mem_fragment_iff` — the characters that are no signs.
* `Piecewise` — a property of texts that a fragment has whenever its pieces have it.
* `Continued` — every line feed of a text is behind a backslash, so that the text can be told from
  what follows on the next line (`Continued.append_inj`).
* `Pattern.continued_fragment` — this is so of every compiled pattern.
-/

set_option autoImplicit false

namespace PrefixPattern

/-! ## Characters that are no signs -/

/-- The characters of a fragment that need not be from any string. -/
def signs : List Char := ['\\', '(', ')', '|', '?']

section Signs

variable {c : Char}

theorem mem_ofChar_iff (hc : c ∉ signs) (d : Char) : c ∈ Literal.ofChar d ↔ c = d := by
  have hslash : c ≠ '\\' := fun h => hc (by simp [signs, h])
  rw [Literal.ofChar]
  split <;> simp [hslash]

theorem Grouping.mem_enclose_iff (hc : c ∉ signs) (g : Grouping) (row : List Char) :
    c ∈ g.enclose row ↔ c ∈ row := by
  have hopen : c ≠ '(' := fun h => hc (by simp [signs, h])
  have hclose : c ≠ ')' := fun h => hc (by simp [signs, h])
  have hmark : c ≠ '?' := fun h => hc (by simp [signs, h])
  cases g <;> simp [enclose, opening, closing, hopen, hclose, hmark]

theorem Branches.notMem_separator (hc : c ∉ signs) (row : Branches) : c ∉ row.separator := by
  have hbar : c ≠ '|' := fun h => hc (by simp [signs, h])
  cases row <;> simp [separator, hbar]

/-- **The characters along a row** are those of the words along it. -/
theorem Branches.mem_text_iff (hc : c ∉ signs) {row : Branches} (h : row.Sound) :
    c ∈ row.text ↔ ∃ w, row.Spells w ∧ c ∈ w := by
  induction row with
  | nil => simp [text, Spells]
  | cons d t below next ihb ihn =>
    obtain ⟨v, hv⟩ := exists_spells_of_mem h (c := d) List.mem_cons_self
    have hbelow := ihb h.2.2.1
    have hnext := ihn h.2.2.2
    rw [text, List.mem_append, List.mem_append, List.mem_append, mem_ofChar_iff hc,
      Grouping.mem_enclose_iff hc, or_iff_left (notMem_separator hc next), hbelow, hnext]
    refine ⟨?_, ?_⟩
    · rintro ((rfl | ⟨w, hw, hcw⟩) | ⟨w, hw, hcw⟩)
      · exact ⟨_, hv, List.mem_cons_self⟩
      · exact ⟨d :: w, Or.inl ⟨w, rfl, Or.inr hw⟩, List.mem_cons_of_mem _ hcw⟩
      · exact ⟨w, Or.inr hw, hcw⟩
    · rintro ⟨w, ⟨u, rfl, hu⟩ | hw, hcw⟩
      · rcases List.mem_cons.1 hcw with rfl | hcu
        · exact Or.inl (Or.inl rfl)
        · rcases hu with ⟨rfl, -⟩ | hu
          · cases hcu
          · exact Or.inl (Or.inr ⟨u, hu, hcu⟩)
      · exact Or.inr ⟨w, hw, hcw⟩

theorem Node.mem_text_iff (hc : c ∉ signs) {n : Node} (h : n.Sound) (force : Bool) :
    c ∈ n.text force ↔ ∃ w, n.contains w = true ∧ c ∈ w := by
  rw [text, Grouping.mem_enclose_iff hc, Branches.mem_text_iff hc h]
  refine exists_congr fun w => ?_
  rw [contains_iff h]
  refine ⟨fun hw => ⟨Or.inr hw.1, hw.2⟩, ?_⟩
  rintro ⟨⟨rfl, -⟩ | hw, hcw⟩
  · cases hcw
  · exact ⟨hw, hcw⟩

/-- **The characters of a compiled pattern that are no signs are those of its strings.** -/
theorem Pattern.mem_fragment_iff (hc : c ∉ signs) {l : List String} {o : CompileOptions}
    {p : Pattern} (h : compile l o = .ok p) : c ∈ p.fragment.toList ↔ ∃ s ∈ l, c ∈ s.toList := by
  rw [toList_fragment_of_compile h, Node.mem_text_iff hc (Trie.sound_ofList l)]
  refine ⟨?_, ?_⟩
  · rintro ⟨w, hw, hcw⟩
    exact ⟨_, (Trie.root_contains_ofList l w).1 hw, by rwa [String.toList_ofList]⟩
  · rintro ⟨s, hs, hcs⟩
    exact ⟨s.toList, by rwa [Trie.root_contains_ofList, String.ofList_toList], hcs⟩

end Signs

/-! ## Properties of texts -/

/-- The property passes from the pieces that a fragment is written with to whole texts. -/
structure Piecewise (P : List Char → Prop) : Prop where
  nil : P []
  append : ∀ {a b : List Char}, P a → P b → P (a ++ b)
  literal : ∀ c, P (Literal.ofChar c)
  group : ∀ {row : List Char}, P row → P ('(' :: (row ++ [')']))
  bar : P ['|']
  mark : P ['?']

namespace Piecewise

variable {P : List Char → Prop}

theorem enclose (h : Piecewise P) {row : List Char} (hrow : P row) (g : Grouping) :
    P (g.enclose row) := by
  cases g with
  | bare => simpa [Grouping.enclose, Grouping.opening, Grouping.closing] using hrow
  | group => simpa [Grouping.enclose, Grouping.opening, Grouping.closing] using h.group hrow
  | optional =>
    simpa [Grouping.enclose, Grouping.opening, Grouping.closing] using
      h.append (h.group hrow) h.mark

/-- **Such a property is one of every row**, at every depth. -/
theorem text (h : Piecewise P) (row : Branches) : P row.text := by
  induction row with
  | nil => exact h.nil
  | cons c t below next ihb ihn =>
    have hseparator : P next.separator := by
      cases next with
      | nil => exact h.nil
      | cons => exact h.bar
    have hbranch := h.append (h.literal c) (h.enclose ihb (below.grouping t false))
    exact h.append (h.append hbranch hseparator) ihn

end Piecewise

/-! ## Line feeds -/

/-- Every line feed of the text is behind a backslash, which does not belong to another backslash in
front of it. -/
inductive Continued : List Char → Prop
  | nil : Continued []
  | char {c : Char} {cs : List Char} (hslash : c ≠ '\\') (hfeed : c ≠ '\n') :
      Continued cs → Continued (c :: cs)
  | escaped (c : Char) {cs : List Char} : Continued cs → Continued ('\\' :: c :: cs)

namespace Continued

variable {a b : List Char}

theorem append (ha : Continued a) (hb : Continued b) : Continued (a ++ b) := by
  induction ha with
  | nil => exact hb
  | char hslash hfeed _ ih => exact .char hslash hfeed ih
  | escaped c _ ih => exact .escaped c ih

theorem singleton {c : Char} (hslash : c ≠ '\\') (hfeed : c ≠ '\n') : Continued [c] :=
  .char hslash hfeed .nil

theorem literal (c : Char) : Continued (Literal.ofChar c) := by
  rw [Literal.ofChar]
  split
  · rename_i hbare
    refine singleton ?_ ?_
    · rintro rfl
      exact absurd hbare (by decide)
    · rintro rfl
      exact absurd hbare (by decide)
  · exact .escaped c .nil

/-- **The text can be told from what follows on the next line.** -/
theorem append_inj (ha : Continued a) (hb : Continued b) {r s : List Char}
    (h : a ++ '\n' :: r = b ++ '\n' :: s) : a = b ∧ r = s := by
  induction ha generalizing b with
  | nil =>
    cases hb with
    | nil => exact ⟨rfl, (List.cons.inj h).2⟩
    | char _ hfeed _ => exact absurd (List.cons.inj h).1.symm hfeed
    | escaped c _ => exact absurd (List.cons.inj h).1 (by decide)
  | char hslash hfeed _ ih =>
    cases hb with
    | nil => exact absurd (List.cons.inj h).1 hfeed
    | char _ _ hb =>
      obtain ⟨rfl, hrest⟩ := List.cons.inj h
      obtain ⟨rfl, rfl⟩ := ih hb hrest
      exact ⟨rfl, rfl⟩
    | escaped c _ => exact absurd (List.cons.inj h).1 hslash
  | escaped c _ ih =>
    cases hb with
    | nil => exact absurd (List.cons.inj h).1 (by decide)
    | char hslash _ _ => exact absurd (List.cons.inj h).1.symm hslash
    | escaped d hb =>
      obtain ⟨rfl, hrest⟩ := List.cons.inj (List.cons.inj h).2
      obtain ⟨rfl, rfl⟩ := ih hb hrest
      exact ⟨rfl, rfl⟩

end Continued

theorem piecewise_continued : Piecewise Continued where
  nil := .nil
  append := .append
  literal := .literal
  group hrow := .char (by decide) (by decide)
    (hrow.append (.singleton (by decide) (by decide)))
  bar := .singleton (by decide) (by decide)
  mark := .singleton (by decide) (by decide)

/-- **A compiled pattern goes on behind each of its line feeds.** -/
theorem Pattern.continued_fragment {l : List String} {o : CompileOptions} {p : Pattern}
    (h : compile l o = .ok p) : Continued p.fragment.toList := by
  rw [toList_fragment_of_compile h]
  exact piecewise_continued.enclose (piecewise_continued.text _) _

end PrefixPattern
