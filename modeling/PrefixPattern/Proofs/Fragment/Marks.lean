import PrefixPattern.Proofs.Fragment.Characters
import PrefixPattern.Proofs.Trie.Places

/-!
# Counting the literals and the signs of a fragment

A character of a fragment is a literal or a sign of the grouping.  Which of the two it is depends on
whether there is a backslash in front of it, since members can hold any of the signs.  Counted in
this way, a fragment shows what its tree is like: every node but the first one has left a literal,
and the signs tell how many nodes there are of which kind.

## What is here

* `marks` — the literals and the signs of a text; `literals` — the characters of its literals.
* `Detached` — a text whose marks are the same whatever follows; `Branches.detached_text` says that
  those of rows are.
* `Node.literals_text` — the literals of a fragment are the ends of the places of its nodes.
* `Node.count_bar_text`, `Node.count_sign_text` — its bars are as many as its leaves less one, and
  its other signs as many as the nodes that are grouped in one way.
-/

set_option autoImplicit false

namespace PrefixPattern

/-! ## Marks -/

/-- What a character of a text is. -/
inductive Mark where
  /-- a character that stands for itself: a bare one, or any character behind a backslash -/
  | literal (c : Char)
  /-- any other character -/
  | sign (c : Char)
  deriving DecidableEq, Repr

/-- The character of a literal. -/
def Mark.literal? : Mark → Option Char
  | literal c => some c
  | sign _ => none

/-- The marks of a text.  A backslash belongs to the character behind it. -/
def marks : List Char → List Mark
  | [] => []
  | '\\' :: c :: cs => .literal c :: marks cs
  | c :: cs => (if Literal.isBare c then .literal c else .sign c) :: marks cs

/-- The characters of the literals of a text. -/
def literals (text : List Char) : List Char :=
  (marks text).filterMap Mark.literal?

theorem marks_cons {c : Char} (hc : c ≠ '\\') (cs : List Char) :
    marks (c :: cs) = (if Literal.isBare c then .literal c else .sign c) :: marks cs := by
  rw [marks]
  rintro d ds rfl
  exact absurd rfl hc

theorem marks_ofChar_append (c : Char) (cs : List Char) :
    marks (Literal.ofChar c ++ cs) = .literal c :: marks cs := by
  rw [Literal.ofChar]
  split
  · rename_i hbare
    have hc : c ≠ '\\' := by
      rintro rfl
      exact absurd hbare (by decide)
    rw [List.singleton_append, marks_cons hc, if_pos hbare]
  · rfl

/-! ## Marks of texts next to each other -/

/-- The marks of the text are the same whatever follows. -/
def Detached (text : List Char) : Prop :=
  ∀ rest, marks (text ++ rest) = marks text ++ marks rest

theorem detached_char {c : Char} (hc : c ≠ '\\') : Detached [c] := by
  intro rest
  rw [List.singleton_append, marks_cons hc, marks_cons hc]
  rfl

theorem Detached.append {a b : List Char} (ha : Detached a) (hb : Detached b) :
    Detached (a ++ b) := by
  intro rest
  rw [List.append_assoc, ha, hb, ha, List.append_assoc]

theorem piecewise_detached : Piecewise Detached where
  nil _ := rfl
  append := .append
  literal c rest := by
    have hone := marks_ofChar_append c []
    rw [List.append_nil] at hone
    rw [marks_ofChar_append, hone]
    rfl
  group hrow := (detached_char (by decide)).append (hrow.append (detached_char (by decide)))
  bar := detached_char (by decide)
  mark := detached_char (by decide)

/-- **The text of a row is detached**, at every depth and with signs among its literals. -/
theorem Branches.detached_text (row : Branches) : Detached row.text :=
  piecewise_detached.text row

theorem Grouping.detached_opening (g : Grouping) : Detached g.opening := by
  cases g with
  | bare => exact piecewise_detached.nil
  | group | optional => exact detached_char (by decide)

theorem marks_enclose {row : List Char} (h : Detached row) (g : Grouping) :
    marks (g.enclose row) = marks g.opening ++ marks row ++ marks g.closing := by
  rw [Grouping.enclose, (g.detached_opening.append h), g.detached_opening]

/-- The marks of a row, branch by branch. -/
theorem marks_text_cons (c : Char) (t : Bool) (below next : Branches) :
    marks (Branches.cons c t below next).text =
      .literal c :: (marks (below.grouping t false).opening ++ marks below.text ++
        marks (below.grouping t false).closing) ++ marks next.separator ++ marks next.text := by
  have hbelow : Detached ((below.grouping t false).enclose below.text) :=
    piecewise_detached.enclose below.detached_text _
  have hseparator : Detached next.separator := by
    cases next with
    | nil => exact piecewise_detached.nil
    | cons => exact piecewise_detached.bar
  rw [Branches.text, List.append_assoc, List.append_assoc, marks_ofChar_append, hbelow, hseparator,
    marks_enclose below.detached_text]
  simp

theorem Node.marks_text (n : Node) (force : Bool) :
    marks (n.text force) =
      marks (n.grouping force).opening ++ marks n.branches.text ++
        marks (n.grouping force).closing :=
  marks_enclose n.branches.detached_text _

/-- The signs of a row, branch by branch. -/
theorem count_text_cons (s c : Char) (t : Bool) (below next : Branches) :
    (marks (Branches.cons c t below next).text).count (.sign s) =
      (marks (below.grouping t false).opening).count (.sign s) +
        (marks below.text).count (.sign s) +
        (marks (below.grouping t false).closing).count (.sign s) +
        (marks next.separator).count (.sign s) + (marks next.text).count (.sign s) := by
  rw [marks_text_cons, List.cons_append, List.cons_append, List.count_cons_of_ne (by simp)]
  simp only [List.count_append]

/-! ## Literals -/

theorem Grouping.literals_eq_nil (g : Grouping) :
    literals g.opening = [] ∧ literals g.closing = [] := by
  cases g <;> decide

/-- The literals of a row are the ends of its places. -/
theorem Branches.literals_text (row : Branches) :
    literals row.text = row.places.filterMap fun x => x.1.getLast? := by
  induction row with
  | nil => rfl
  | cons c t below next ihb ihn =>
    obtain ⟨hopening, hclosing⟩ := (below.grouping t false).literals_eq_nil
    have hseparator : literals next.separator = [] := by cases next <;> rfl
    have hbelow : (below.places.map fun x => (c :: x.1, x.2)).filterMap (fun x => x.1.getLast?) =
        below.places.filterMap fun x => x.1.getLast? := by
      rw [List.filterMap_map]
      refine List.filterMap_congr fun x hx => ?_
      obtain ⟨d, -, w, hw⟩ := exists_cons_of_mem_places hx
      rw [Function.comp_apply, hw, List.getLast?_cons_cons]
    rw [places, List.filterMap_append, List.map_cons, List.filterMap_cons, hbelow, ← ihb, ← ihn]
    simp only [literals] at hopening hclosing hseparator ⊢
    simp [marks_text_cons, Mark.literal?, hopening, hclosing, hseparator]

/-- **The literals of a fragment are the ends of the places of its nodes**, in the same order. -/
theorem Node.literals_text (n : Node) (force : Bool) :
    literals (n.text force) = n.branches.places.filterMap fun x => x.1.getLast? := by
  obtain ⟨hopening, hclosing⟩ := (n.grouping force).literals_eq_nil
  rw [← Branches.literals_text]
  simp only [literals] at hopening hclosing ⊢
  simp [marks_text, hopening, hclosing]

/-! ## Bars -/

theorem Grouping.count_bar_eq_zero (g : Grouping) :
    (marks g.opening).count (.sign '|') = 0 ∧ (marks g.closing).count (.sign '|') = 0 := by
  cases g <;> decide

/-- A node is a leaf, or its row has a bar to come in front of it. -/
theorem Node.toNat_isLeaf_add (n : Node) :
    n.isLeaf.toNat + n.branches.separator.length = 1 := by
  rw [isLeaf]
  cases n.branches <;> rfl

/-- A row that is not empty has one leaf more than bars. -/
theorem Branches.count_bar_text (row : Branches) :
    (marks row.text).count (.sign '|') + row.separator.length =
      row.places.countP fun x => x.2.isLeaf := by
  induction row with
  | nil => rfl
  | cons c t below next ihb ihn =>
    obtain ⟨hopening, hclosing⟩ := (below.grouping t false).count_bar_eq_zero
    have hseparator : (marks next.separator).count (.sign '|') = next.separator.length := by
      cases next <;> rfl
    have hfirst : (cons c t below next).separator.length = 1 := rfl
    have hleaf : (Node.isLeaf ⟨t, below⟩).toNat + below.separator.length = 1 :=
      Node.toNat_isLeaf_add _
    rw [count_text_cons, hopening, hclosing, hseparator, hfirst, countP_places_cons, ← ihb, ← ihn]
    omega

/-- **A fragment has one bar less than its tree has leaves.** -/
theorem Node.count_bar_text (n : Node) (force : Bool) :
    (marks (n.text force)).count (.sign '|') + 1 = n.places.countP fun x => x.2.isLeaf := by
  obtain ⟨hopening, hclosing⟩ := (n.grouping force).count_bar_eq_zero
  have hleaf := n.toNat_isLeaf_add
  rw [marks_text, List.count_append, List.count_append, hopening, hclosing, countP_places isLeaf,
    ← Branches.count_bar_text]
  omega

/-! ## Other signs -/

section Signs

variable {c : Char} {kind : Grouping → Bool}

/-- **The signs around rows are as many as the nodes whose rows have them around.** -/
theorem Branches.count_sign_text (hc : c ≠ '|')
    (hkind : ∀ g : Grouping,
      (marks g.opening).count (.sign c) + (marks g.closing).count (.sign c) = (kind g).toNat)
    (row : Branches) :
    (marks row.text).count (.sign c) = row.places.countP fun x => kind (x.2.grouping false) := by
  induction row with
  | nil => rfl
  | cons d t below next ihb ihn =>
    have hseparator : (marks next.separator).count (.sign c) = 0 := by
      cases next with
      | nil => rfl
      | cons =>
        refine List.count_eq_zero.2 fun hmem => hc ?_
        exact Mark.sign.inj (List.mem_singleton.1 hmem)
    have hnode : _ = (kind (Node.grouping ⟨t, below⟩ false)).toNat := hkind (below.grouping t false)
    rw [count_text_cons, hseparator, countP_places_cons fun n => kind (n.grouping false), ← ihb,
      ← ihn, ← hnode]
    omega

/-- The same for a whole fragment, where the first row may have been forced. -/
theorem Node.count_sign_text (hc : c ≠ '|')
    (hkind : ∀ g : Grouping,
      (marks g.opening).count (.sign c) + (marks g.closing).count (.sign c) = (kind g).toNat)
    (n : Node) (force : Bool) :
    (marks (n.text force)).count (.sign c) =
      (kind (n.grouping force)).toNat +
        n.branches.places.countP fun x => kind (x.2.grouping false) := by
  rw [marks_text, List.count_append, List.count_append, Branches.count_sign_text hc hkind,
    ← hkind]
  omega

end Signs

end PrefixPattern
