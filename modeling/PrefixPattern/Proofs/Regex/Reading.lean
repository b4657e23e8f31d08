import PrefixPattern.Pattern
import PrefixPattern.Regex.Parser

/-!
# Reading an expression piece by piece

`Regex.parse?` cuts the whole text into tokens before it puts any of them together.  A text that
is made of pieces is easier to follow when both happen at once, and that is what `Regex.resume`
is: what is read when the groups around a place are known and the text behind it is still ahead.

## What is here

* `Regex.chain`, `Regex.ofItems`, `Regex.ofBranches` — a sequence of items and a list of
  alternatives, each from its first element on.
* `Regex.resume` — reading the rest of a text, and one equation for each piece of text that is
  read on its own: `resume_literal`, `resume_open`, `resume_close`, `resume_bar`,
  `resume_repetition`.
* `OpenGroup.addItems`, `OpenGroup.addBranches` — what pieces leave behind in the group they are in.
* `Regex.ReadsAs` — a text that is read as items wherever it stands; `Regex.ReadsAs.append` puts two
  such texts next to each other, and `Regex.ReadsAs.parse?_anchor` puts the anchors around one.

A piece that may be followed by anything but a question mark says so: a question mark behind a
parenthesis or behind another repetition is not a token of its own.
-/

set_option autoImplicit false

namespace PrefixPattern

/-- The character that is written behind what is repeated. -/
def Repetition.symbol : Repetition → Char
  | optional => '?'
  | star => '*'
  | plus => '+'

namespace Regex

/-! ## Sequences and alternatives -/

/-- The expressions of a list, joined to the right. -/
def chain (join : Regex → Regex → Regex) : List Regex → Regex
  | [] => empty
  | [r] => r
  | r :: s :: rest => join r (chain join (s :: rest))

/-- The sequence of the items of a list. -/
def ofItems (items : List Regex) : Regex := chain seq items

/-- The alternatives whose items are given. -/
def ofBranches (branches : List (List Regex)) : Regex := chain alt (branches.map ofItems)

theorem foldl_join_concat (join : Regex → Regex → Regex) (last : Regex) (before : List Regex)
    (r : Regex) : (before ++ [r]).foldl (fun acc x => join x acc) last =
      join r (before.foldl (fun acc x => join x acc) last) := by
  simp

theorem seqOf_reverse (items : List Regex) : seqOf items.reverse = ofItems items := by
  induction items with
  | nil => rfl
  | cons r rest ih =>
    cases rest with
    | nil => rfl
    | cons s rest =>
      rw [ofItems, chain, ← ofItems, ← ih, List.reverse_cons]
      obtain ⟨last, before, h⟩ := List.exists_cons_of_ne_nil
        (List.reverse_ne_nil_iff.2 (List.cons_ne_nil s rest))
      rw [h, List.cons_append, seqOf, seqOf, foldl_join_concat]

theorem altOf_reverse (branches : List Regex) : altOf branches.reverse = chain alt branches := by
  induction branches with
  | nil => rfl
  | cons r rest ih =>
    cases rest with
    | nil => rfl
    | cons s rest =>
      rw [chain, ← ih, List.reverse_cons]
      obtain ⟨last, before, h⟩ := List.exists_cons_of_ne_nil
        (List.reverse_ne_nil_iff.2 (List.cons_ne_nil s rest))
      rw [h, List.cons_append, altOf, altOf, foldl_join_concat]

end Regex

namespace OpenGroup

/-- Append items to the branch. -/
def addItems (g : OpenGroup) (items : List Regex) : OpenGroup :=
  { g with items := items.reverse ++ g.items }

/-- Append the items of the first branch to the branch, and the other branches behind it. -/
def addBranches (g : OpenGroup) : List (List Regex) → OpenGroup
  | [] => g
  | [b] => g.addItems b
  | b :: c :: rest => addBranches (g.addItems b).nextBranch (c :: rest)

theorem addItems_cons (g : OpenGroup) (r : Regex) (items : List Regex) :
    g.addItems (r :: items) = (g.push r).addItems items := by
  simp [addItems, push]

theorem addItems_append (g : OpenGroup) (items more : List Regex) :
    g.addItems (items ++ more) = (g.addItems items).addItems more := by
  simp [addItems]

theorem close_addBranches (g : OpenGroup) (hg : g.items = []) (b : List Regex)
    (branches : List (List Regex)) :
    (g.addBranches (b :: branches)).close =
      Regex.altOf ((((b :: branches).map Regex.ofItems).reverse) ++ g.branches) := by
  induction branches generalizing g b with
  | nil => simp [addBranches, close, addItems, hg, Regex.seqOf_reverse]
  | cons c rest ih =>
    rw [addBranches, ih _ rfl c]
    simp [nextBranch, addItems, hg, Regex.seqOf_reverse]

/-- A group that holds branches and nothing else is closed to their alternatives. -/
theorem close_addBranches_empty (captures : Bool) (branches : List (List Regex)) :
    (({ captures } : OpenGroup).addBranches branches).close = Regex.ofBranches branches := by
  cases branches with
  | nil => rfl
  | cons b rest =>
    rw [close_addBranches _ rfl, List.append_nil, Regex.altOf_reverse, Regex.ofBranches]

theorem close_addItems_empty (captures : Bool) (items : List Regex) :
    (({ captures } : OpenGroup).addItems items).close = Regex.ofItems items :=
  close_addBranches_empty captures [items]

@[simp] theorem captures_addBranches (g : OpenGroup) (branches : List (List Regex)) :
    (g.addBranches branches).captures = g.captures := by
  fun_induction addBranches g branches with
  | case1 => rfl
  | case2 => rfl
  | case3 g b c rest ih => exact ih

end OpenGroup

/-! ## Tokens and groups at once -/

-- what is said of a text and of its tokens from here on goes by the recursions of the two readers
attribute [elab_as_elim] Token.scan.induct OpenGroup.assemble.induct

/-- The tokens that are done already do not matter for those that follow. -/
theorem Token.scan_append (cs : List Char) (done before : List Token) :
    Token.scan cs (done ++ before) = (Token.scan cs done).map (before.reverse ++ ·) := by
  fun_induction Token.scan cs done with
  | case1 done => simp [Token.scan]
  | case2 done c cs h ih => simp [Token.scan, h, ← ih]
  | case3 done c cs h => simp [Token.scan, h]
  | case4 done cs ih => simp [Token.scan, ← ih]
  | case5 done cs h => simp [Token.scan]
  | case6 done cs ih => simp [Token.scan, ← ih]
  | case7 done cs ih => simp [Token.scan, ← ih]
  | case8 done cs ih => simp [Token.scan, ← ih]
  | case9 c cs done _ _ _ _ _ _ t ht ih =>
    rw [Token.scan, ht]
    · exact ih
    all_goals assumption
  | case10 c cs done _ _ _ _ _ _ ht =>
    rw [Token.scan, ht]
    · rfl
    all_goals assumption

namespace Regex

/-- What is read when `text` is still ahead inside the group `g` and the groups around it. -/
def resume (text : List Char) (g : OpenGroup) (around : List OpenGroup) : Option Regex :=
  (Token.scan text []).bind fun tokens => OpenGroup.assemble tokens g around

theorem parse?_eq_resume (text : List Char) : parse? text = resume text {} [] := by
  rw [parse?, resume]
  cases Token.scan text [] <;> rfl

/-- Where one token is read, what it does to the groups is done and reading goes on behind it. -/
theorem resume_of_scan {text rest : List Char} {t : Token} (g : OpenGroup)
    (around : List OpenGroup) (h : Token.scan text [] = Token.scan rest [t]) :
    resume text g around =
      (Token.scan rest []).bind fun tokens => OpenGroup.assemble (t :: tokens) g around := by
  rw [resume, h, show [t] = [] ++ [t] from rfl, Token.scan_append]
  cases Token.scan rest [] <;> rfl

/-- The characters whose token depends on what comes behind them. -/
def lookAhead : List Char := ['\\', '(', '?', '*', '+']

/-- A character that is a token is one of its own, unless a question mark changes its meaning. -/
theorem scan_cons {c : Char} {cs : List Char} {done : List Token} {t : Token}
    (ht : Token.ofChar? c = some t) (h : c ∈ lookAhead → cs.head? ≠ some '?') :
    Token.scan (c :: cs) done = Token.scan cs (t :: done) := by
  rw [Token.scan, ht]
  · rintro d tail rfl -
    cases ht
  all_goals
    rintro tail rfl rfl
    exact h (by decide) rfl

/-- Any other character is a token of its own. -/
theorem resume_char {c : Char} {t : Token} (hc : c ∉ lookAhead) (ht : Token.ofChar? c = some t)
    (rest : List Char) (g : OpenGroup) (around : List OpenGroup) :
    resume (c :: rest) g around =
      (Token.scan rest []).bind fun tokens => OpenGroup.assemble (t :: tokens) g around :=
  resume_of_scan g around (scan_cons ht fun h => absurd h hc)

theorem resume_nil (g : OpenGroup) : resume [] g [] = some g.close := rfl

/-! ## Literals -/

/-- A bare character has no meaning of its own. -/
theorem ofChar?_of_isBare {c : Char} (h : Literal.isBare c = true) :
    c ∉ lookAhead ∧ Token.ofChar? c = some (.atom (.lit c)) := by
  have hspecial : ∀ x ∈ lookAhead ++ [')', '|', '.', '^', '$', '[', '\x7b'], c ≠ x := by
    have hbare : (lookAhead ++ [')', '|', '.', '^', '$', '[', '\x7b']).all
        (fun x => !Literal.isBare x) = true := by decide
    rintro x hx rfl
    have hc := List.all_eq_true.1 hbare c hx
    rw [h] at hc
    cases hc
  refine ⟨fun hc => hspecial c (List.mem_append_left _ hc) rfl, ?_⟩
  simp only [lookAhead, List.cons_append, List.nil_append, List.mem_cons, List.not_mem_nil,
    or_false, forall_eq_or_imp, forall_eq] at hspecial
  simp [Token.ofChar?, hspecial]

/-- Any character that is not bare can be escaped. -/
theorem isEscapable_of_isBare_eq_false {c : Char} (h : Literal.isBare c = false) :
    Token.isEscapable c = true := by
  simp only [Literal.isBare, Bool.or_eq_false_iff, decide_eq_false_iff_not, beq_eq_false_iff_ne]
    at h
  obtain ⟨⟨⟨⟨⟨⟨halnum, -⟩, -⟩, -⟩, hless⟩, hgreater⟩, hascii⟩ := h
  simp only [Token.isEscapable, Bool.and_eq_true, decide_eq_true_eq, Bool.not_eq_true',
    bne_iff_ne]
  exact ⟨⟨⟨by simpa using hascii, halnum⟩, hless⟩, hgreater⟩

/-- The spelling of a character is one token, whatever comes behind it. -/
theorem scan_literal (c : Char) (rest : List Char) (done : List Token) :
    Token.scan (Literal.ofChar c ++ rest) done = Token.scan rest (.atom (.lit c) :: done) := by
  rw [Literal.ofChar]
  split
  · rename_i hbare
    obtain ⟨hc, ht⟩ := ofChar?_of_isBare hbare
    exact scan_cons ht fun h => absurd h hc
  · rename_i hbare
    have hesc := isEscapable_of_isBare_eq_false (Bool.not_eq_true _ ▸ hbare)
    simp [Token.scan, hesc]

/-- It is read as that character. -/
theorem resume_literal (c : Char) (rest : List Char) (g : OpenGroup) (around : List OpenGroup) :
    resume (Literal.ofChar c ++ rest) g around = resume rest (g.push (.lit c)) around :=
  resume_of_scan g around (scan_literal c rest [])

/-- The spelling of a character does not begin with a question mark. -/
theorem head?_literal_append (c : Char) (rest : List Char) :
    (Literal.ofChar c ++ rest).head? ≠ some '?' := by
  rw [Literal.ofChar]
  split
  · rename_i hbare
    have hc := (ofChar?_of_isBare hbare).1
    simp only [lookAhead, List.mem_cons, not_or] at hc
    simp [hc]
  · simp

/-- A text that is spelled out is read as its characters. -/
theorem resume_literals (w rest : List Char) (g : OpenGroup) (around : List OpenGroup) :
    resume (Literal.ofList w ++ rest) g around = resume rest (g.addItems (w.map lit)) around := by
  induction w generalizing g with
  | nil => rfl
  | cons c w ih =>
    rw [Literal.ofList_cons, List.append_assoc, resume_literal, ih, List.map_cons,
      OpenGroup.addItems_cons]

/-! ## Groups, alternatives and repetitions -/

variable {rest : List Char} (g : OpenGroup) (around : List OpenGroup)

theorem resume_open (h : rest.head? ≠ some '?') :
    resume ('(' :: rest) g around = resume rest { captures := true } (g :: around) :=
  resume_of_scan (t := .opening true) g around (scan_cons rfl fun _ => h)

theorem resume_open_plain (rest : List Char) :
    resume ('(' :: '?' :: ':' :: rest) g around = resume rest { captures := false } (g :: around) :=
  resume_of_scan (t := .opening false) g around (by simp [Token.scan])

theorem resume_close (rest : List Char) (outer : OpenGroup) :
    resume (')' :: rest) g (outer :: around) =
      resume rest (outer.push (.group g.captures g.close)) around :=
  resume_char (c := ')') (by decide) rfl rest g (outer :: around)

theorem resume_bar (rest : List Char) :
    resume ('|' :: rest) g around = resume rest g.nextBranch around :=
  resume_char (c := '|') (by decide) rfl rest g around

theorem resume_repetition (k : Repetition) (r : Regex) (h : rest.head? ≠ some '?') :
    resume (k.symbol :: rest) (g.push r) around = resume rest (g.push (.rep k r)) around := by
  cases k with
  | optional | star | plus =>
    exact resume_of_scan (t := .repetition _) (g.push r) around (scan_cons rfl fun _ => h)

/-- A second question mark changes which match is preferred, and nothing else. -/
theorem resume_lazy (r : Regex) (rest : List Char) :
    resume ('?' :: '?' :: rest) (g.push r) around =
      resume rest (g.push (.rep .optional r)) around :=
  resume_of_scan (t := .repetition .optional) (g.push r) around (by simp [Token.scan])

/-! ## Anchors -/

theorem resume_start (rest : List Char) :
    resume ('^' :: rest) g around = resume rest (g.push .start) around :=
  resume_char (c := '^') (by decide) rfl rest g around

theorem resume_stop (rest : List Char) :
    resume ('$' :: rest) g around = resume rest (g.push .stop) around :=
  resume_char (c := '$') (by decide) rfl rest g around

/-- A text that is read as items wherever it stands: what it leaves in the group around it does not
depend on what comes before, nor on what comes behind unless that is a question mark. -/
def ReadsAs (text : List Char) (items : List Regex) : Prop :=
  ∀ rest, rest.head? ≠ some '?' → ∀ g around,
    resume (text ++ rest) g around = resume rest (g.addItems items) around

theorem head?_append_ne {α : Type} {u v : List α} {a : α} (hu : u.head? ≠ some a)
    (hv : v.head? ≠ some a) : (u ++ v).head? ≠ some a := by
  cases u with
  | nil => exact hv
  | cons b u => exact hu

theorem readsAs_nil : ReadsAs [] [] := fun _ _ _ _ => rfl

/-- Two texts next to each other are read one after the other, if the second does not begin with a
question mark. -/
theorem ReadsAs.append {u v : List Char} {xs ys : List Regex} (hu : ReadsAs u xs)
    (hv : ReadsAs v ys) (h : v.head? ≠ some '?') : ReadsAs (u ++ v) (xs ++ ys) := by
  intro rest hrest g around
  rw [List.append_assoc, hu _ (head?_append_ne h hrest), hv _ hrest, OpenGroup.addItems_append]

theorem readsAs_literals (w : List Char) : ReadsAs (Literal.ofList w) (w.map lit) :=
  fun rest _ g around => resume_literals w rest g around

/-- An escaped string is read as its characters, wherever it stands. -/
theorem readsAs_escape (s : String) : ReadsAs (Literal.escape s).toList (s.toList.map lit) := by
  rw [Literal.toList_escape]
  exact readsAs_literals s.toList

/-- The expression of an anchored text: its items in a group between the two anchors. -/
def anchored (items : List Regex) : Regex :=
  .seq .start (.seq (.group false (ofItems items)) .stop)

/-- The text between the anchors is read inside a group, behind the first anchor. -/
theorem parse?_anchor (fragment : String) :
    parse? (anchor fragment).toList =
      resume (fragment.toList ++ [')', '$']) {} [{ items := [.start] }] := by
  have htext : (anchor fragment).toList =
      '^' :: '(' :: '?' :: ':' :: (fragment.toList ++ [')', '$']) := by
    simp [anchor]
  rw [parse?_eq_resume, htext, resume_start, resume_open_plain]
  rfl

/-- A text that is read as items is read so by itself. -/
theorem ReadsAs.parse?_self {text : List Char} {items : List Regex} (h : ReadsAs text items) :
    parse? text = some (ofItems items) := by
  have hread := h [] (by simp) {} []
  rwa [List.append_nil, resume_nil, OpenGroup.close_addItems_empty,
    ← parse?_eq_resume] at hread

/-- **A text that is read as items is read so between the anchors.** -/
theorem ReadsAs.parse?_anchor {fragment : String} {items : List Regex}
    (h : ReadsAs fragment.toList items) :
    parse? (anchor fragment).toList = some (anchored items) := by
  rw [Regex.parse?_anchor, h _ (by simp), resume_close, resume_stop, resume_nil,
    OpenGroup.close_addItems_empty]
  rfl

end Regex
end PrefixPattern
