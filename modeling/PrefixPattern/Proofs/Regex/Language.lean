import PrefixPattern.Proofs.Regex.Reading

/-!
# What sequences, alternatives and groups match

`Regex.Matches` has a rule for each way in which an expression can match.  Here the rules are read
backwards, one equivalence for each kind of expression, and put together for sequences of items and
lists of branches.

## What is here

* `Regex.matches_seq`, `Regex.matches_alt`, `Regex.matches_group`, `Regex.matches_optional`,
  `Regex.matches_repetition` — one kind of expression each.
* `Regex.matches_ofItems_append` — a sequence of items matches piece by piece.
* `Regex.matches_ofBranches` — a list of branches matches what one of them does.
* `Regex.found_anchored` — anchored items are found in a text exactly when they match all of it.
-/

set_option autoImplicit false

namespace PrefixPattern

namespace Repetition

/-- How many matches one after the other a repetition allows. -/
def Allows : Repetition → Nat → Prop
  | optional, n => n ≤ 1
  | star, _ => True
  | plus, n => 1 ≤ n

theorem allows_zero_iff {k : Repetition} : k.Allows 0 ↔ k.allowsNone = true := by
  cases k <;> simp [Allows, allowsNone]

theorem allows_one (k : Repetition) : k.Allows 1 := by
  cases k <;> simp [Allows]

theorem allows_add_two_iff {k : Repetition} {n : Nat} :
    k.Allows (n + 2) ↔ k.allowsMore = true := by
  cases k <;> simp [Allows, allowsMore]

end Repetition

namespace Regex

variable {q r : Regex} {p w s : List Char}

/-! ## One kind of expression at a time -/

@[simp] theorem matches_empty : Matches .empty p w s ↔ w = [] := by
  refine ⟨?_, ?_⟩
  · intro h
    cases h
    rfl
  · rintro rfl
    exact .empty

@[simp] theorem matches_lit {c : Char} : Matches (.lit c) p w s ↔ w = [c] := by
  refine ⟨?_, ?_⟩
  · intro h
    cases h
    rfl
  · rintro rfl
    exact .lit

@[simp] theorem matches_group {b : Bool} : Matches (.group b r) p w s ↔ Matches r p w s := by
  refine ⟨?_, ?_⟩
  · intro h
    cases h
    assumption
  · exact .group

theorem matches_alt : Matches (.alt q r) p w s ↔ Matches q p w s ∨ Matches r p w s := by
  refine ⟨?_, ?_⟩
  · intro h
    cases h with
    | left h => exact Or.inl h
    | right h => exact Or.inr h
  · rintro (h | h)
    · exact .left h
    · exact .right h

theorem matches_seq :
    Matches (.seq q r) p w s ↔
      ∃ u v, w = u ++ v ∧ Matches q p u (v ++ s) ∧ Matches r (p ++ u) v s := by
  refine ⟨?_, ?_⟩
  · intro h
    cases h with
    | seq hq hr => exact ⟨_, _, rfl, hq, hr⟩
  · rintro ⟨u, v, rfl, hq, hr⟩
    exact .seq hq hr

theorem matches_optional : Matches (.rep .optional r) p w s ↔ w = [] ∨ Matches r p w s := by
  refine ⟨?_, ?_⟩
  · intro h
    cases h with
    | none => exact Or.inl rfl
    | once h => exact Or.inr h
    | more hk => cases hk
  · rintro (rfl | h)
    · exact .none rfl
    · exact .once h

/-- **A repetition matches as many words one after the other as it allows**, if it does not matter
to the repeated expression what stands around a word. -/
theorem matches_repetition {k : Repetition} {P : List Char → Prop}
    (h : ∀ p w s, Matches r p w s ↔ P w) :
    Matches (.rep k r) p w s ↔
      ∃ ws : List (List Char), (∀ v ∈ ws, P v) ∧ k.Allows ws.length ∧ w = ws.flatten := by
  refine ⟨?_, ?_⟩
  · intro hm
    generalize hq : Regex.rep k r = q at hm
    induction hm with
    | none hk =>
      cases hq
      exact ⟨[], by simp, Repetition.allows_zero_iff.2 hk, rfl⟩
    | once hr =>
      cases hq
      exact ⟨[_], by simpa using (h _ _ _).1 hr, k.allows_one, by simp⟩
    | more hk hr _ _ ih =>
      cases hq
      obtain ⟨ws, hws, -, rfl⟩ := ih rfl
      refine ⟨_ :: ws, List.forall_mem_cons.2 ⟨(h _ _ _).1 hr, hws⟩, ?_, by simp⟩
      cases ws with
      | nil => exact k.allows_one
      | cons u us => exact Repetition.allows_add_two_iff.2 hk
    | empty | lit | any | start | stop | group | seq | left | right => cases hq
  · rintro ⟨ws, hws, hk, rfl⟩
    induction ws generalizing p with
    | nil => exact .none (Repetition.allows_zero_iff.1 hk)
    | cons v ws ih =>
      obtain ⟨hv, hws⟩ := List.forall_mem_cons.1 hws
      cases ws with
      | nil => simpa using Matches.once ((h p v s).2 hv)
      | cons u us =>
        have hmore : k.allowsMore = true := Repetition.allows_add_two_iff.1 hk
        have hrest : k.Allows (u :: us).length := by
          cases us with
          | nil => exact k.allows_one
          | cons => exact Repetition.allows_add_two_iff.2 hmore
        exact .more hmore ((h _ _ _).2 hv) (ih hws hrest)

theorem matches_start : Matches .start p w s ↔ p = [] ∧ w = [] := by
  refine ⟨?_, ?_⟩
  · intro h
    cases h
    exact ⟨rfl, rfl⟩
  · rintro ⟨rfl, rfl⟩
    exact .start

theorem matches_stop : Matches .stop p w s ↔ s = [] ∧ w = [] := by
  refine ⟨?_, ?_⟩
  · intro h
    cases h
    exact ⟨rfl, rfl⟩
  · rintro ⟨rfl, rfl⟩
    exact .stop

/-! ## Items and branches -/

theorem matches_ofItems_nil : Matches (ofItems []) p w s ↔ w = [] := matches_empty

theorem matches_ofItems_cons {x : Regex} {items : List Regex} :
    Matches (ofItems (x :: items)) p w s ↔
      ∃ u v, w = u ++ v ∧ Matches x p u (v ++ s) ∧ Matches (ofItems items) (p ++ u) v s := by
  cases items with
  | nil =>
    refine ⟨?_, ?_⟩
    · intro h
      exact ⟨w, [], by rw [List.append_nil], h, .empty⟩
    · rintro ⟨u, v, rfl, hx, hv⟩
      obtain rfl := matches_ofItems_nil.1 hv
      rw [List.append_nil]
      exact hx
  | cons y rest => exact matches_seq

/-- **A sequence of items matches piece by piece.** -/
theorem matches_ofItems_append {items more : List Regex} :
    Matches (ofItems (items ++ more)) p w s ↔
      ∃ u v, w = u ++ v ∧ Matches (ofItems items) p u (v ++ s) ∧
        Matches (ofItems more) (p ++ u) v s := by
  induction items generalizing p w with
  | nil =>
    refine ⟨?_, ?_⟩
    · intro h
      exact ⟨[], w, rfl, .empty, by rwa [List.append_nil]⟩
    · rintro ⟨u, v, rfl, hu, hv⟩
      obtain rfl := matches_ofItems_nil.1 hu
      rwa [List.append_nil] at hv
  | cons x items ih =>
    rw [List.cons_append, matches_ofItems_cons]
    refine ⟨?_, ?_⟩
    · rintro ⟨u, v, rfl, hx, hv⟩
      obtain ⟨v₁, v₂, rfl, h₁, h₂⟩ := ih.1 hv
      refine ⟨u ++ v₁, v₂, by rw [List.append_assoc], ?_, by rwa [← List.append_assoc]⟩
      exact matches_ofItems_cons.2 ⟨u, v₁, rfl, by rwa [← List.append_assoc], h₁⟩
    · rintro ⟨_, v₂, rfl, h, h₂⟩
      obtain ⟨u, v₁, rfl, hx, h₁⟩ := matches_ofItems_cons.1 h
      refine ⟨u, v₁ ++ v₂, by rw [List.append_assoc], by rwa [List.append_assoc], ?_⟩
      exact ih.2 ⟨v₁, v₂, rfl, h₁, by rwa [List.append_assoc]⟩

/-- A sequence of characters matches the word that they spell. -/
theorem matches_lits {v : List Char} : Matches (ofItems (v.map lit)) p w s ↔ w = v := by
  induction v generalizing p w with
  | nil => exact matches_ofItems_nil
  | cons c v ih =>
    rw [List.map_cons, matches_ofItems_cons]
    simp only [matches_lit, ih]
    refine ⟨?_, ?_⟩
    · rintro ⟨_, _, rfl, rfl, rfl⟩
      rfl
    · rintro rfl
      exact ⟨[c], v, rfl, rfl, rfl⟩

/-- **A list of branches matches what one of them matches.** -/
theorem matches_ofBranches {branches : List (List Regex)} (hne : branches ≠ []) :
    Matches (ofBranches branches) p w s ↔ ∃ b ∈ branches, Matches (ofItems b) p w s := by
  induction branches with
  | nil => exact absurd rfl hne
  | cons b rest ih =>
    cases rest with
    | nil => simp [ofBranches, chain]
    | cons c rest =>
      rw [ofBranches, List.map_cons, List.map_cons, chain, matches_alt, ← List.map_cons,
        ← ofBranches, ih (List.cons_ne_nil c rest)]
      simp

/-! ## Anchored items -/

/-- **Anchored items are found in a text exactly when they match all of it.** -/
theorem found_anchored {items : List Regex} {t : List Char} :
    (anchored items).Found t ↔ Matches (ofItems items) [] t [] := by
  refine ⟨?_, ?_⟩
  · rintro ⟨p, w, s, rfl, h⟩
    obtain ⟨u, v, rfl, hstart, hrest⟩ := matches_seq.1 h
    obtain ⟨rfl, rfl⟩ := matches_start.1 hstart
    obtain ⟨m, v', rfl, hgroup, hstop⟩ := matches_seq.1 hrest
    obtain ⟨rfl, rfl⟩ := matches_stop.1 hstop
    simpa using hgroup
  · intro h
    refine ⟨[], t, [], by simp, ?_⟩
    refine matches_seq.2 ⟨[], t, rfl, .start, ?_⟩
    exact matches_seq.2 ⟨t, [], by rw [List.append_nil], .group (by simpa using h), .stop⟩

end Regex
end PrefixPattern
