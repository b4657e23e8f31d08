import PrefixPattern.Proofs.Regex.Reading

/-!
# Parentheses in a pattern text

An anchored fragment is put together as text, and the group between the anchors ends at the
parenthesis that closes it, wherever that stands.  Whether it is the one written behind the fragment
can be seen in the characters of the fragment alone.

## What is here

* `Regex.behindGroup` — what stands behind the parenthesis that closes the group around a text.
* `Regex.Balanced` — a text that closes just the groups it opens, whatever stands around it.
* `Token.closesAround` — the same question about tokens; `Token.closesAround_eq` says that the
  answers agree.
* `OpenGroup.assemble_in_group` — tokens that leave the group around them open are put together in
  it as they are by themselves.
* `Regex.parse?_anchor_of_behindGroup` — a text that leaves the group around it open is read between
  the anchors as it is by itself; `Regex.parse?_eq_none_of_behindGroup` — any other text is nothing
  by itself.

A text that ends in a backslash takes its meaning from the parenthesis behind it.  It has no tokens
of its own, so what is shown of it goes by its characters (`Token.behindGroup_append_of_scan`).
-/

set_option autoImplicit false

namespace PrefixPattern

/-! ## Characters -/

namespace Regex

/-- What stands behind the parenthesis that closes the group around a text, when `n` groups inside
that one are open at its beginning.  A character behind a backslash is no parenthesis. -/
def behindGroup : List Char → Nat → Option (List Char)
  | [], _ => none
  | '\\' :: _ :: cs, n => behindGroup cs n
  | '(' :: cs, n => behindGroup cs (n + 1)
  | ')' :: cs, 0 => some cs
  | ')' :: cs, n + 1 => behindGroup cs n
  | _ :: cs, n => behindGroup cs n

theorem behindGroup_char {c : Char} (hc : c ∉ ['\\', '(', ')']) (cs : List Char) (n : Nat) :
    behindGroup (c :: cs) n = behindGroup cs n := by
  simp only [List.mem_cons, List.not_mem_nil, or_false, not_or] at hc
  rw [behindGroup]
  all_goals simp [hc]

/-- The text closes the groups that it opens and no others. -/
def Balanced (text : List Char) : Prop :=
  ∀ rest n, behindGroup (text ++ rest) n = behindGroup rest n

theorem balanced_nil : Balanced [] := fun _ _ => rfl

theorem Balanced.append {u v : List Char} (hu : Balanced u) (hv : Balanced v) :
    Balanced (u ++ v) := by
  intro rest n
  rw [List.append_assoc, hu, hv]

theorem balanced_char {c : Char} (hc : c ∉ ['\\', '(', ')']) : Balanced [c] :=
  fun rest n => behindGroup_char hc rest n

theorem Balanced.group {text : List Char} (h : Balanced text) :
    Balanced ('(' :: (text ++ [')'])) := by
  intro rest n
  have hgroup : '(' :: (text ++ [')']) ++ rest = '(' :: (text ++ ')' :: rest) := by simp
  rw [hgroup, behindGroup, h]
  rfl

theorem balanced_literal (c : Char) : Balanced (Literal.ofChar c) := by
  rw [Literal.ofChar]
  split
  · rename_i hbare
    refine balanced_char fun hc => ?_
    simp only [List.mem_cons, List.not_mem_nil, or_false] at hc
    rcases hc with rfl | rfl | rfl <;> exact absurd hbare (by decide)
  · exact fun rest n => rfl

end Regex

/-! ## Tokens -/

namespace Token

open Regex (behindGroup lookAhead scan_cons head?_append_ne)

/-- Some token closes the group around a list of tokens, when `n` groups inside that one are open at
its beginning. -/
def closesAround : List Token → Nat → Bool
  | [], _ => false
  | .opening _ :: ts, n => closesAround ts (n + 1)
  | .closing :: _, 0 => true
  | .closing :: ts, n + 1 => closesAround ts n
  | .atom _ :: ts, n | .bar :: ts, n | .repetition _ :: ts, n => closesAround ts n

/-- Only the parentheses are tokens that open and close groups. -/
theorem closesAround_cons_of_ofChar? {c : Char} {t : Token} (h : ofChar? c = some t)
    {ts : List Token} {cs : List Char}
    (hts : ∀ n, closesAround ts n = (behindGroup cs n).isSome) (n : Nat) :
    closesAround (t :: ts) n = (behindGroup (c :: cs) n).isSome := by
  by_cases hopen : c = '('
  · subst hopen
    cases h
    exact hts (n + 1)
  by_cases hclose : c = ')'
  · subst hclose
    cases h
    cases n with
    | zero => rfl
    | succ n => exact hts n
  have hslash : c ≠ '\\' := by
    rintro rfl
    cases h
  have hskip : closesAround (t :: ts) n = closesAround ts n := by
    rw [ofChar?, if_neg hopen, if_neg hclose] at h
    (repeat' split at h) <;> cases h <;> rfl
  rw [hskip, hts, Regex.behindGroup_char (by simp [hopen, hclose, hslash])]

/-- What holds behind a token holds in front of it, if the token does what its characters do. -/
theorem exists_closesAround_cons {t : Token} {done us : List Token} {cs cs' : List Char}
    (h : ∃ ts, us = (t :: done).reverse ++ ts ∧
      ∀ n, closesAround ts n = (behindGroup cs n).isSome)
    (hstep : ∀ ts, (∀ n, closesAround ts n = (behindGroup cs n).isSome) →
      ∀ n, closesAround (t :: ts) n = (behindGroup cs' n).isSome) :
    ∃ ts, us = done.reverse ++ ts ∧ ∀ n, closesAround ts n = (behindGroup cs' n).isSome := by
  obtain ⟨ts, rfl, hts⟩ := h
  exact ⟨t :: ts, by simp, hstep ts hts⟩

theorem exists_closesAround {text : List Char} {done us : List Token}
    (h : scan text done = some us) :
    ∃ ts, us = done.reverse ++ ts ∧ ∀ n, closesAround ts n = (behindGroup text n).isSome := by
  fun_induction scan text done with
  | case1 done => exact ⟨[], by simpa using h.symm, fun n => rfl⟩
  | case2 done c cs hc ih => exact exists_closesAround_cons (ih h) fun ts hts n => hts n
  | case4 done cs ih => exact exists_closesAround_cons (ih h) fun ts hts n => hts (n + 1)
  | case6 done cs ih | case7 done cs ih | case8 done cs ih =>
    exact exists_closesAround_cons (ih h) fun ts hts n => hts n
  | case9 c cs done _ _ _ _ _ _ t ht ih =>
    exact exists_closesAround_cons (ih h) fun ts hts n => closesAround_cons_of_ofChar? ht hts n
  | case3 | case5 | case10 => cases h

/-- **The tokens of a text close the group around it exactly when its characters do.** -/
theorem closesAround_eq {text : List Char} {ts : List Token} (h : scan text [] = some ts)
    (n : Nat) : closesAround ts n = (behindGroup text n).isSome := by
  obtain ⟨us, rfl, hus⟩ := exists_closesAround h
  exact hus n

/-! ## Tokens of a longer text -/

/-- A character that is no token and makes nothing else literal is refused. -/
theorem scan_cons_of_none {c : Char} {cs : List Char} {done : List Token} (ht : ofChar? c = none)
    (hc : c ≠ '\\') : scan (c :: cs) done = none := by
  rw [scan, ht]
  · exact fun _ _ h => absurd h hc
  all_goals
    rintro tail rfl -
    cases ht

/-- What `scan` has excluded where it takes one character alone, as `scan_cons` asks for it. -/
theorem head?_ne_of_alone {c : Char} {cs : List Char} {t : Token} (ht : ofChar? c = some t)
    (hopen : ∀ tail, c = '(' → cs = '?' :: tail → False)
    (hoptional : ∀ tail, c = '?' → cs = '?' :: tail → False)
    (hstar : ∀ tail, c = '*' → cs = '?' :: tail → False)
    (hplus : ∀ tail, c = '+' → cs = '?' :: tail → False) (hc : c ∈ lookAhead) :
    cs.head? ≠ some '?' := by
  intro hhead
  obtain ⟨tail, rfl⟩ := List.head?_eq_some_iff.1 hhead
  simp only [lookAhead, List.mem_cons, List.not_mem_nil, or_false] at hc
  rcases hc with rfl | rfl | rfl | rfl | rfl
  · cases ht
  · exact hopen tail rfl rfl
  · exact hoptional tail rfl rfl
  · exact hstar tail rfl rfl
  · exact hplus tail rfl rfl

/-- Behind a text that has tokens a longer one goes on with its own. -/
theorem scan_text_append {text rest : List Char} {done us : List Token}
    (h : scan text done = some us) (hrest : rest.head? ≠ some '?') :
    scan (text ++ rest) done = scan rest us.reverse := by
  fun_induction scan text done with
  | case1 done => cases h; simp
  | case2 done c cs hc ih => simpa [scan, hc] using ih h
  | case4 done cs ih | case6 done cs ih | case7 done cs ih | case8 done cs ih =>
    simpa [scan] using ih h
  | case9 c cs done _ _ hopen hoptional hstar hplus t ht ih =>
    have halone := head?_ne_of_alone ht hopen hoptional hstar hplus
    rw [List.cons_append, scan_cons ht fun hc => head?_append_ne (halone hc) hrest]
    exact ih h
  | case3 | case5 | case10 => cases h

/-- A text without tokens that has some when it is followed by `)$` ends in a backslash, so the
parenthesis is not one. -/
theorem behindGroup_append_of_scan {text : List Char} {done us : List Token} {n : Nat}
    (h : scan text done = none) (hmore : scan (text ++ [')', '$']) done = some us)
    (hn : behindGroup text n = none) : behindGroup (text ++ [')', '$']) n = none := by
  fun_induction scan text done generalizing n with
  | case1 => cases h
  | case2 done c cs hc ih => exact ih h (by simpa [scan, hc] using hmore) hn
  | case3 done c cs hc => simp [scan, hc] at hmore
  | case5 tail done htail =>
    rw [List.cons_append, List.cons_append, scan] at hmore
    · cases hmore
    · rintro cs hcs
      cases tail with
      | nil => cases hcs
      | cons d tail => exact htail tail (by rw [(List.cons.inj hcs).1])
  | case4 done cs ih | case6 done cs ih | case7 done cs ih | case8 done cs ih =>
    exact ih h (by simpa [scan] using hmore) hn
  | case9 c cs done _ _ hopen hoptional hstar hplus t ht ih =>
    have halone := head?_ne_of_alone ht hopen hoptional hstar hplus
    rw [List.cons_append, scan_cons ht fun hc => head?_append_ne (halone hc) (by simp)] at hmore
    by_cases hparen : c = '(' ∨ c = ')'
    · rcases hparen with rfl | rfl
      · exact ih h hmore (n := n + 1) hn
      · cases n with
        | zero => cases hn
        | succ n => exact ih h hmore (n := n) hn
    · have hslash : c ≠ '\\' := by
        rintro rfl
        cases ht
      have hskip : c ∉ ['\\', '(', ')'] := by simpa [hslash] using hparen
      rw [Regex.behindGroup_char hskip] at hn
      rw [List.cons_append, Regex.behindGroup_char hskip]
      exact ih h hmore hn
  | case10 c cs done hslash _ _ _ _ _ ht =>
    by_cases hc : c = '\\'
    · subst hc
      cases cs with
      | nil => rfl
      | cons d cs => exact (hslash d cs rfl rfl).elim
    · rw [List.cons_append, scan_cons_of_none ht hc] at hmore
      cases hmore

end Token

/-! ## Groups -/

namespace OpenGroup

open Token (closesAround)

/-- Whether the outermost group captures. -/
def outermostCaptures : OpenGroup → List OpenGroup → Bool
  | g, [] => g.captures
  | _, outer :: around => outermostCaptures outer around

theorem outermostCaptures_push (g : OpenGroup) (r : Regex) (around : List OpenGroup) :
    (g.push r).outermostCaptures around = g.outermostCaptures around := by
  cases around <;> rfl

theorem outermostCaptures_nextBranch (g : OpenGroup) (around : List OpenGroup) :
    g.nextBranch.outermostCaptures around = g.outermostCaptures around := by
  cases around <;> rfl

theorem outermostCaptures_repeatLast? {g g' : OpenGroup} {k : Repetition}
    (h : g.repeatLast? k = some g') (around : List OpenGroup) :
    g'.outermostCaptures around = g.outermostCaptures around := by
  rw [repeatLast?] at h
  split at h
  · cases h
    cases around <;> rfl
  · cases h

/-- **Tokens that leave the group around them open are put together in it as by themselves.** -/
theorem assemble_in_group {ts : List Token} {g outer : OpenGroup} {around : List OpenGroup}
    (h : closesAround ts around.length = false) :
    assemble (ts ++ [.closing, .atom .stop]) g (around ++ [outer]) =
      (assemble ts g around).map fun r =>
        ((outer.push (.group (outermostCaptures g around) r)).push .stop).close := by
  fun_induction assemble ts g around with
  | case1 g => rfl
  | case2 g inner around => cases around <;> rfl
  | case3 r ts g around ih =>
    rw [← outermostCaptures_push g r]
    exact ih h
  | case4 b ts g around ih => exact ih h
  | case5 ts g inner around ih =>
    rw [outermostCaptures, ← outermostCaptures_push inner]
    exact ih h
  | case6 => cases h
  | case7 ts g around ih =>
    rw [← outermostCaptures_nextBranch g]
    exact ih h
  | case8 ts g around k g' hg ih =>
    rw [← outermostCaptures_repeatLast? hg, List.cons_append, assemble, hg]
    exact ih h
  | case9 ts g around k hg =>
    rw [List.cons_append, assemble, hg]
    rfl

/-- A group that is never closed is nothing. -/
theorem assemble_of_open {ts : List Token} {g : OpenGroup} {around : List OpenGroup} {n : Nat}
    (hn : n < around.length) (h : closesAround ts n = false) : assemble ts g around = none := by
  fun_induction assemble ts g around generalizing n with
  | case1 => cases hn
  | case2 | case6 | case9 => rfl
  | case3 r ts g around ih => exact ih hn h
  | case4 b ts g around ih => exact ih (n := n + 1) (Nat.succ_lt_succ hn) h
  | case5 ts g inner around ih =>
    cases n with
    | zero => cases h
    | succ n => exact ih (Nat.lt_of_succ_lt_succ hn) h
  | case7 ts g around ih => exact ih hn h
  | case8 ts g around k g' hg ih => exact ih hn h

/-- A group that is closed but not open is nothing. -/
theorem assemble_of_closesAround {ts : List Token} {g : OpenGroup} {around : List OpenGroup}
    (h : closesAround ts around.length = true) : assemble ts g around = none := by
  fun_induction assemble ts g around with
  | case1 => cases h
  | case2 | case6 | case9 => rfl
  | case3 r ts g around ih => exact ih h
  | case4 b ts g around ih => exact ih h
  | case5 ts g inner around ih => exact ih h
  | case7 ts g around ih => exact ih h
  | case8 ts g around k g' hg ih => exact ih h

end OpenGroup

/-! ## Expressions -/

namespace Regex

/-- **A text that leaves the group around it open is read between the anchors as by itself.** -/
theorem parse?_anchor_of_behindGroup {fragment : String}
    (h : behindGroup fragment.toList 0 = none) :
    parse? (anchor fragment).toList =
      (parse? fragment.toList).map fun r => anchored [r] := by
  rw [parse?_anchor, parse?_eq_resume, resume, resume]
  cases hscan : Token.scan fragment.toList [] with
  | some ts =>
    have hend : Token.scan [')', '$'] ts.reverse = some (ts ++ [.closing, .atom .stop]) := by
      simp [Token.scan, Token.ofChar?]
    have hopen : Token.closesAround ts 0 = false := by
      rw [Token.closesAround_eq hscan, h]
      rfl
    rw [Token.scan_text_append hscan (by simp), hend]
    exact @OpenGroup.assemble_in_group ts {} { items := [.start] } [] hopen
  | none =>
    cases hmore : Token.scan (fragment.toList ++ [')', '$']) [] with
    | none => rfl
    | some ts =>
      have hopen : Token.closesAround ts 0 = false := by
        rw [Token.closesAround_eq hmore, Token.behindGroup_append_of_scan hscan hmore h]
        rfl
      exact OpenGroup.assemble_of_open Nat.zero_lt_one hopen

/-- A text that closes the group around it is no expression by itself. -/
theorem parse?_eq_none_of_behindGroup {text : List Char} (h : behindGroup text 0 ≠ none) :
    parse? text = none := by
  rw [parse?]
  cases hscan : Token.scan text [] with
  | none => rfl
  | some ts =>
    refine OpenGroup.assemble_of_closesAround ?_
    rw [List.length_nil, Token.closesAround_eq hscan]
    exact Option.isSome_iff_ne_none.2 h

end Regex
end PrefixPattern
