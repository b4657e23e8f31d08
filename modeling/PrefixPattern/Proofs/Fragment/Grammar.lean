import PrefixPattern.Proofs.Fragment.Nesting

/-!
# The grammar of fragments

Fragments use little of what a pattern can hold: literals, and groups of alternatives that may be
left out.  A group only ever stands behind literals and never in front of any, so that a fragment
can be derived in one way only, and no group of it could be spared.

The grammar, with `x*` for any number of `x`, `x+` for at least one, and `[x]` for at most one:

    sequence = literal* [group]
    group    = '(' branch ('|' branch)* ')' ['?']
    branch   = literal+ [group]
    literal  = a bare character, or a backslash and any other ASCII character

## What is here

* `Grammar.Lit`, `Grammar.Sequence`, `Grammar.Row`, `Grammar.Whole` — derivations, each with the
  text that it derives.
* `Grammar.Sequence.text_append_inj`, `Grammar.Whole.text_inj` — a text has one derivation.
* `Grammar.Sequence.Tidy` — the branches of every group are in ascending order, and every group has
  several or may be left out.
* `Branches.exists_row`, `Node.exists_whole` — the text of a sound node has a tidy derivation.
-/

set_option autoImplicit false

namespace PrefixPattern
namespace Grammar

/-! ## Derivations -/

/-- A literal: a bare character, or any other one behind a backslash. -/
inductive Lit where
  | bare (c : Char) (h : Literal.isBare c = true)
  | escaped (c : Char) (h : Literal.isBare c = false) (ascii : c.val < 128)

mutual

/-- Literals, and at most one group behind them. -/
inductive Sequence where
  | nil
  | lit (x : Lit) (rest : Sequence)
  | group (row : Row) (optional : Bool)

/-- The branches of a group.  Each is a literal and a sequence behind it. -/
inductive Row where
  | last (x : Lit) (rest : Sequence)
  | more (x : Lit) (rest : Sequence) (others : Row)

end

/-- A whole fragment: a sequence, or a group that holds nothing. -/
inductive Whole where
  | sequence (s : Sequence)
  | unit

/-! ## Texts -/

namespace Lit

/-- The character that a literal stands for. -/
def char : Lit → Char
  | bare c _ => c
  | escaped c _ _ => c

/-- The text of a literal. -/
def text : Lit → List Char
  | bare c _ => [c]
  | escaped c _ _ => ['\\', c]

end Lit

/-- The question mark behind a group that may be left out. -/
def mark (optional : Bool) : List Char :=
  if optional then ['?'] else []

mutual

/-- The text of a sequence. -/
def Sequence.text : Sequence → List Char
  | .nil => []
  | .lit x rest => x.text ++ rest.text
  | .group row optional => '(' :: (row.text ++ ')' :: mark optional)

/-- The text of the branches of a group, separated by `|`. -/
def Row.text : Row → List Char
  | .last x rest => x.text ++ rest.text
  | .more x rest others => x.text ++ (rest.text ++ '|' :: others.text)

end

/-- The text of a whole fragment. -/
def Whole.text : Whole → List Char
  | sequence s => s.text
  | unit => ['(', ')']

/-! ## A text has one derivation -/

/-- A literal begins with a bare character or with a backslash. -/
theorem Lit.exists_text_append (x : Lit) (r : List Char) :
    ∃ c rest, x.text ++ r = c :: rest ∧ (Literal.isBare c = true ∨ c = '\\') := by
  cases x with
  | bare c h => exact ⟨c, r, rfl, Or.inl h⟩
  | escaped c _ _ => exact ⟨'\\', c :: r, rfl, Or.inr rfl⟩

/-- No sign of the grammar is at the beginning of a literal. -/
theorem Lit.text_append_ne (x : Lit) (r : List Char) {c : Char}
    (h : c ∈ ['(', ')', '|', '?']) (rest : List Char) : x.text ++ r ≠ c :: rest := by
  obtain ⟨d, more, htext, hd⟩ := x.exists_text_append r
  rw [htext]
  intro heq
  obtain rfl : d = c := (List.cons.inj heq).1
  have hbare : Literal.isBare d = false := by
    obtain rfl | rfl | rfl | rfl : d = '(' ∨ d = ')' ∨ d = '|' ∨ d = '?' := by simpa using h
    all_goals decide
  obtain hd | rfl := hd
  · exact absurd hd (Bool.eq_false_iff.1 hbare)
  · simp at h

theorem Lit.text_append_inj {x y : Lit} {r s : List Char} (h : x.text ++ r = y.text ++ s) :
    x = y ∧ r = s := by
  have hbackslash : Literal.isBare '\\' = false := by decide
  cases x with
  | bare c hc =>
    cases y with
    | bare d hd =>
      obtain ⟨rfl, rfl⟩ := List.cons.inj h
      exact ⟨rfl, rfl⟩
    | escaped d hd ascii =>
      obtain ⟨rfl, -⟩ := List.cons.inj h
      rw [hbackslash] at hc
      cases hc
  | escaped c hc ascii =>
    cases y with
    | bare d hd =>
      obtain ⟨rfl, -⟩ := List.cons.inj h
      rw [hbackslash] at hd
      cases hd
    | escaped d hd ascii' =>
      obtain ⟨-, h⟩ := List.cons.inj h
      obtain ⟨rfl, rfl⟩ := List.cons.inj h
      exact ⟨rfl, rfl⟩

/-- A text that ends a sequence when it stands behind one. -/
def Ends (r : List Char) : Prop :=
  r = [] ∨ ∃ rest, r = '|' :: rest ∨ r = ')' :: rest

theorem ends_bar (r : List Char) : Ends ('|' :: r) :=
  Or.inr ⟨r, Or.inl rfl⟩

theorem ends_close (r : List Char) : Ends (')' :: r) :=
  Or.inr ⟨r, Or.inr rfl⟩

theorem Ends.ne_cons {r : List Char} (h : Ends r) {c : Char} (hc : c ≠ '|' ∧ c ≠ ')')
    (rest : List Char) : r ≠ c :: rest := by
  rintro rfl
  obtain h | ⟨more, h | h⟩ := h
  · cases h
  · exact hc.1 (List.cons.inj h).1
  · exact hc.2 (List.cons.inj h).1

theorem Ends.ne_lit {r : List Char} (h : Ends r) (x : Lit) (s : List Char) : r ≠ x.text ++ s := by
  intro heq
  obtain rfl | ⟨rest, rfl | rfl⟩ := h
  · obtain ⟨c, rest, htext, -⟩ := x.exists_text_append s
    rw [htext] at heq
    cases heq
  · exact x.text_append_ne s (by decide) rest heq.symm
  · exact x.text_append_ne s (by decide) rest heq.symm

theorem mark_append_inj {a b : Bool} {r s : List Char} (hr : Ends r) (hs : Ends s)
    (h : mark a ++ r = mark b ++ s) : a = b ∧ r = s := by
  cases a <;> cases b
  · exact ⟨rfl, h⟩
  · exact absurd h (hr.ne_cons (by decide) s)
  · exact absurd h.symm (hs.ne_cons (by decide) r)
  · exact ⟨rfl, (List.cons.inj h).2⟩

mutual

/-- **A sequence can be told from the text that begins with it**, if something ends it there. -/
theorem Sequence.text_append_inj : ∀ (a b : Sequence) {r s : List Char}, Ends r → Ends s →
    a.text ++ r = b.text ++ s → a = b ∧ r = s
  | .nil, .nil, _, _, _, _, h => ⟨rfl, h⟩
  | .nil, .lit x rest, r, s, hr, _, h => by
    rw [Sequence.text, Sequence.text, List.append_assoc] at h
    exact absurd h (hr.ne_lit x _)
  | .nil, .group row optional, r, s, hr, _, h => by
    rw [Sequence.text, Sequence.text] at h
    exact absurd h (hr.ne_cons (by decide) _)
  | .lit x rest, .nil, r, s, _, hs, h => by
    rw [Sequence.text, Sequence.text, List.append_assoc] at h
    exact absurd h.symm (hs.ne_lit x _)
  | .lit x rest, .lit y more, r, s, hr, hs, h => by
    rw [Sequence.text, Sequence.text, List.append_assoc, List.append_assoc] at h
    obtain ⟨rfl, hrest⟩ := Lit.text_append_inj h
    obtain ⟨rfl, rfl⟩ := Sequence.text_append_inj rest more hr hs hrest
    exact ⟨rfl, rfl⟩
  | .lit x rest, .group row optional, r, s, _, _, h => by
    rw [Sequence.text, Sequence.text, List.append_assoc] at h
    exact absurd h (x.text_append_ne _ (by decide) _)
  | .group row optional, .nil, r, s, _, hs, h => by
    rw [Sequence.text, Sequence.text] at h
    exact absurd h.symm (hs.ne_cons (by decide) _)
  | .group row optional, .lit x rest, r, s, _, _, h => by
    rw [Sequence.text, Sequence.text, List.append_assoc] at h
    exact absurd h.symm (x.text_append_ne _ (by decide) _)
  | .group row a, .group other b, r, s, hr, hs, h => by
    simp only [Sequence.text, List.cons_append, List.append_assoc, List.cons.injEq, true_and] at h
    obtain ⟨rfl, hbehind⟩ := Row.text_append_inj row other h
    obtain ⟨rfl, rfl⟩ := mark_append_inj hr hs hbehind
    exact ⟨rfl, rfl⟩

/-- **The branches of a group can be told from the text that begins with them**, if the group is
closed behind them. -/
theorem Row.text_append_inj : ∀ (a b : Row) {r s : List Char},
    a.text ++ ')' :: r = b.text ++ ')' :: s → a = b ∧ r = s
  | .last x rest, .last y more, r, s, h => by
    simp only [Row.text, List.append_assoc] at h
    obtain ⟨rfl, hrest⟩ := Lit.text_append_inj h
    obtain ⟨rfl, hend⟩ := Sequence.text_append_inj rest more (ends_close r) (ends_close s) hrest
    exact ⟨rfl, (List.cons.inj hend).2⟩
  | .last x rest, .more y more others, r, s, h => by
    simp only [Row.text, List.append_assoc, List.cons_append] at h
    obtain ⟨rfl, hrest⟩ := Lit.text_append_inj h
    obtain ⟨-, hend⟩ := Sequence.text_append_inj rest more (ends_close r) (ends_bar _) hrest
    exact absurd (List.cons.inj hend).1 (by decide)
  | .more x rest others, .last y more, r, s, h => by
    simp only [Row.text, List.append_assoc, List.cons_append] at h
    obtain ⟨rfl, hrest⟩ := Lit.text_append_inj h
    obtain ⟨-, hend⟩ := Sequence.text_append_inj rest more (ends_bar _) (ends_close s) hrest
    exact absurd (List.cons.inj hend).1 (by decide)
  | .more x rest others, .more y more further, r, s, h => by
    simp only [Row.text, List.append_assoc, List.cons_append] at h
    obtain ⟨rfl, hrest⟩ := Lit.text_append_inj h
    obtain ⟨rfl, hend⟩ := Sequence.text_append_inj rest more (ends_bar _) (ends_bar _) hrest
    obtain ⟨rfl, rfl⟩ := Row.text_append_inj others further (List.cons.inj hend).2
    exact ⟨rfl, rfl⟩

end

/-- A row begins with a literal. -/
theorem Row.exists_lit (row : Row) : ∃ (x : Lit) (rest : List Char), row.text = x.text ++ rest := by
  cases row with
  | last x rest => exact ⟨x, rest.text, rfl⟩
  | more x rest others => exact ⟨x, _, rfl⟩

/-- A group that holds nothing is no sequence. -/
theorem Sequence.text_ne_unit (s : Sequence) : s.text ≠ Whole.unit.text := by
  intro h
  cases s with
  | nil => cases h
  | lit x rest => exact x.text_append_ne rest.text (by decide) _ h
  | group row optional =>
    obtain ⟨x, rest, hrow⟩ := row.exists_lit
    rw [Sequence.text, hrow, List.append_assoc] at h
    exact x.text_append_ne _ (by decide) _ (List.cons.inj h).2

/-- **A text has at most one derivation.** -/
theorem Whole.text_inj {d e : Whole} (h : d.text = e.text) : d = e := by
  cases d with
  | sequence s =>
    cases e with
    | sequence t =>
      have hends : Ends [] := Or.inl rfl
      have happend : s.text ++ [] = t.text ++ [] := by
        rw [List.append_nil, List.append_nil]
        exact h
      rw [(Sequence.text_append_inj s t hends hends happend).1]
    | unit => exact absurd h s.text_ne_unit
  | unit =>
    cases e with
    | sequence t => exact absurd h.symm t.text_ne_unit
    | unit => rfl

/-! ## Order and need -/

/-- The characters that the branches begin with. -/
def Row.firsts : Row → List Char
  | .last x _ => [x.char]
  | .more x _ others => x.char :: others.firsts

mutual

/-- Wherever a group stands, its branches are in ascending order, and there are several of them or
they may be left out.  A group that is `forced` at the beginning needs neither. -/
def Sequence.Tidy (forced : Bool) : Sequence → Prop
  | .nil => True
  | .lit _ rest => rest.Tidy false
  | .group row optional =>
    row.firsts.Pairwise (· < ·) ∧ (forced = true ∨ optional = true ∨ 2 ≤ row.firsts.length) ∧
      row.Tidy

/-- The same behind the first literal of every branch. -/
def Row.Tidy : Row → Prop
  | .last _ rest => rest.Tidy false
  | .more _ rest others => rest.Tidy false ∧ others.Tidy

end

/-- A group that holds nothing has to be forced. -/
def Whole.Tidy (forced : Bool) : Whole → Prop
  | sequence s => s.Tidy forced
  | unit => forced = true

/-! ## Literals of characters -/

/-- The literal of a character. -/
def Lit.ofChar (c : Char) : Lit :=
  if h : Literal.isBare c = true then .bare c h
  else .escaped c (Bool.eq_false_of_not_eq_true h) (by
    by_contra hval
    simp [Literal.isBare, UInt32.not_lt.1 hval] at h)

theorem Lit.text_ofChar (c : Char) : (ofChar c).text = Literal.ofChar c := by
  rw [ofChar, Literal.ofChar]
  split
  · rfl
  · rfl

theorem Lit.char_ofChar (c : Char) : (ofChar c).char = c := by
  rw [ofChar]
  split
  · rfl
  · rfl

end Grammar

open Grammar

/-! ## Derivations of fragments -/

namespace Branches

/-- The row has a tidy derivation as the branches of a group. -/
def IsDerived (row : Branches) : Prop :=
  ∃ r : Row, r.text = row.text ∧ r.firsts = row.chars ∧ r.Tidy

/-- A derivation of a row gives one of what is written for it. -/
theorem IsDerived.exists_sequence {row : Branches} (h : row.IsDerived) (hsound : row.Sound)
    (hne : row ≠ nil) (t force : Bool) :
    ∃ s : Sequence, s.text = (row.grouping t force).enclose row.text ∧ s.Tidy force := by
  obtain ⟨r, htext, hfirsts, htidy⟩ := h
  have hascends : r.firsts.Pairwise (· < ·) := hfirsts ▸ pairwise_chars hsound
  have hbare := Node.grouping_eq_bare_iff (n := ⟨t, row⟩) (f := force) hne
  have hoptional := grouping_eq_optional_iff hne t force
  rw [Node.grouping] at hbare
  cases hg : row.grouping t force with
  | bare =>
    -- a row without a group around it is a single branch
    have hone : ¬ 1 < r.firsts.length := by
      rw [hfirsts]
      exact fun hlen => hbare.1 hg (Or.inr (Or.inl hlen))
    cases r with
    | more x rest others => cases others <;> simp [Row.firsts] at hone
    | last x rest =>
      refine ⟨.lit x rest, ?_, htidy⟩
      rw [← htext]
      exact (List.append_nil _).symm
  | group =>
    have hneeded : force = true ∨ 2 ≤ r.firsts.length := by
      have hsome : t = true ∨ 1 < row.chars.length ∨ force = true := by
        by_contra hnone
        rw [hbare.2 hnone] at hg
        cases hg
      rw [hfirsts]
      rcases hsome with ht | hlen | hforce
      · rw [hoptional.2 ht] at hg
        cases hg
      · exact Or.inr hlen
      · exact Or.inl hforce
    refine ⟨.group r false, ?_, hascends, hneeded.imp_right Or.inr, htidy⟩
    simp [Sequence.text, mark, Grouping.enclose, Grouping.opening, Grouping.closing, htext]
  | optional =>
    refine ⟨.group r true, ?_, hascends, Or.inr (Or.inl rfl), htidy⟩
    simp [Sequence.text, mark, Grouping.enclose, Grouping.opening, Grouping.closing, htext]

/-- **The text of a sound row has a tidy derivation.** -/
theorem isDerived {row : Branches} (h : row.Sound) (hne : row ≠ nil) : row.IsDerived := by
  induction row with
  | nil => exact absurd rfl hne
  | cons c t below next ihb ihn =>
    obtain ⟨-, -, hb, hn⟩ := h
    have hbelow : ∃ s : Sequence,
        s.text = (below.grouping t false).enclose below.text ∧ s.Tidy false := by
      by_cases hnil : below = nil
      · subst hnil
        exact ⟨.nil, rfl, trivial⟩
      · exact (ihb hb hnil).exists_sequence hb hnil t false
    obtain ⟨s, hs, hstidy⟩ := hbelow
    cases next with
    | nil =>
      refine ⟨.last (.ofChar c) s, ?_, ?_, hstidy⟩
      · simp [Row.text, text, separator, hs, Lit.text_ofChar]
      · simp [Row.firsts, chars, Lit.char_ofChar]
    | cons d u low more =>
      obtain ⟨r, htext, hfirsts, htidy⟩ := ihn hn (by simp)
      refine ⟨.more (.ofChar c) s r, ?_, ?_, hstidy, htidy⟩
      · have hsplit : (cons c t below (cons d u low more)).text =
            Literal.ofChar c ++ (below.grouping t false).enclose below.text ++ ['|'] ++
              (cons d u low more).text := rfl
        rw [Row.text, htext, hs, Lit.text_ofChar, hsplit]
        simp
      · rw [Row.firsts, hfirsts, Lit.char_ofChar]
        rfl

end Branches

/-- **The text of a sound node has a tidy derivation.**  It is the group that holds nothing just for
a leaf with the group forced. -/
theorem Node.exists_whole {n : Node} (h : n.Sound) (force : Bool) :
    ∃ d : Whole, d.text = n.text force ∧ d.Tidy force ∧
      (d = .unit ↔ n.branches = .nil ∧ force = true) := by
  by_cases hnil : n.branches = .nil
  · cases force with
    | false =>
      refine ⟨.sequence .nil, ?_, trivial, by simp⟩
      rw [text, grouping, hnil]
      rfl
    | true =>
      refine ⟨.unit, ?_, rfl, by simp [hnil]⟩
      rw [text, grouping, hnil]
      rfl
  · obtain ⟨s, htext, htidy⟩ := (Branches.isDerived h hnil).exists_sequence h hnil n.terminal force
    exact ⟨.sequence s, htext, htidy, by simp [hnil]⟩

end PrefixPattern
