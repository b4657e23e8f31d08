import PrefixPattern.Regex.Matcher

/-!
# Runs of a program, and what its expression matches

A program stands for its expression: from the beginning of the code there is a run to the end of the
program exactly where the expression matches.  This file says what a run is, where the code of an
expression lies, and that the two agree.

## What is here

* `Program.Halts` — the end of the program is reached from an address in a number of steps, with
  what was read so far and what is still ahead.
* `Regex.At` — a program has the code of an expression at an address, and goes on at another one
  behind it; `Regex.at_emit` says that `Regex.emit` puts it there.
* `Regex.halts_of_matches`, `Regex.matches_of_halts` — a match is a run through the code, and a run
  through the code is a match.
* `Regex.halts_program_iff` — both for the whole program of an expression.

A repetition can come back to an address without taking a character, so there is no induction on the
text; the number of steps that are left is what decreases.
-/

set_option autoImplicit false

namespace PrefixPattern

namespace Program

/-- From the address `k`, with `p` read and `s` ahead, the end of the program is reached in `n`
steps; how much of `s` is read by then does not matter. -/
inductive Halts (program : Program) : Nat → Nat → List Char → List Char → Prop
  | done {k : Nat} {p s : List Char} (h : program.size ≤ k) : Halts program 0 k p s
  | read {n k next : Nat} {step : Instruction} {t : Thread} {p s : List Char} {c : Char}
      (hk : program[k]? = some step) (ht : thread? step = some t) (hc : t.advance? c = some next)
      (h : Halts program n next (p ++ [c]) s) : Halts program (n + 1) k p (c :: s)
  | go {n k next : Nat} {step : Instruction} {p s : List Char}
      (hk : program[k]? = some step) (hg : next ∈ goesOn ⟨p.isEmpty, s.isEmpty⟩ step)
      (h : Halts program n next p s) : Halts program (n + 1) k p s

variable {program : Program} {n k next other : Nat} {p s : List Char}

/-! ## One step of a run, by its instruction -/

theorem halts_lit {c : Char} (hk : program[k]? = some (.lit c next)) :
    Halts program n k p s ↔
      ∃ m s', n = m + 1 ∧ s = c :: s' ∧ Halts program m next (p ++ [c]) s' := by
  refine ⟨?_, ?_⟩
  · intro h
    cases h with
    | done hge => rw [Array.getElem?_eq_none hge] at hk; cases hk
    | read hk' ht hc h =>
      cases hk.symm.trans hk'
      cases ht
      simp only [Thread.advance?, Option.ite_none_right_eq_some] at hc
      obtain ⟨rfl, hnext⟩ := hc
      cases hnext
      exact ⟨_, _, rfl, rfl, h⟩
    | go hk' hg => cases hk.symm.trans hk'; cases hg
  · rintro ⟨m, s', rfl, rfl, h⟩
    exact .read hk rfl (by simp [Thread.advance?]) h

theorem halts_any (hk : program[k]? = some (.any next)) :
    Halts program n k p s ↔
      ∃ m c s', n = m + 1 ∧ s = c :: s' ∧ c ≠ '\n' ∧ Halts program m next (p ++ [c]) s' := by
  refine ⟨?_, ?_⟩
  · intro h
    cases h with
    | done hge => rw [Array.getElem?_eq_none hge] at hk; cases hk
    | read hk' ht hc h =>
      cases hk.symm.trans hk'
      cases ht
      simp only [Thread.advance?, Option.ite_none_left_eq_some] at hc
      obtain ⟨hne, hnext⟩ := hc
      cases hnext
      exact ⟨_, _, _, rfl, rfl, hne, h⟩
    | go hk' hg => cases hk.symm.trans hk'; cases hg
  · rintro ⟨m, c, s', rfl, rfl, hne, h⟩
    exact .read hk rfl (by simp [Thread.advance?, hne]) h

/-- An instruction that takes no character is followed by a run from one of the places at which it
goes on. -/
theorem halts_go {step : Instruction} (hk : program[k]? = some step) (ht : thread? step = none) :
    Halts program n k p s ↔ ∃ m, n = m + 1 ∧
      ∃ j ∈ goesOn ⟨p.isEmpty, s.isEmpty⟩ step, Halts program m j p s := by
  refine ⟨?_, ?_⟩
  · intro h
    cases h with
    | done hge => rw [Array.getElem?_eq_none hge] at hk; cases hk
    | read hk' ht' => cases hk.symm.trans hk'; rw [ht] at ht'; cases ht'
    | go hk' hg h => cases hk.symm.trans hk'; exact ⟨_, rfl, _, hg, h⟩
  · rintro ⟨m, rfl, j, hj, h⟩
    exact .go hk hj h

theorem halts_fork (hk : program[k]? = some (.fork next other)) :
    Halts program n k p s ↔
      ∃ m, n = m + 1 ∧ (Halts program m next p s ∨ Halts program m other p s) := by
  rw [halts_go hk rfl]
  simp [goesOn]

theorem halts_jump (hk : program[k]? = some (.jump next)) :
    Halts program n k p s ↔ ∃ m, n = m + 1 ∧ Halts program m next p s := by
  rw [halts_go hk rfl]
  simp [goesOn]

theorem halts_start (hk : program[k]? = some (.start next)) :
    Halts program n k p s ↔ p = [] ∧ ∃ m, n = m + 1 ∧ Halts program m next p s := by
  rw [halts_go hk rfl]
  cases p <;> simp [goesOn]

theorem halts_stop (hk : program[k]? = some (.stop next)) :
    Halts program n k p s ↔ s = [] ∧ ∃ m, n = m + 1 ∧ Halts program m next p s := by
  rw [halts_go hk rfl]
  cases s <;> simp [goesOn]

end Program

namespace Regex

open Program

/-! ## Where the code of an expression lies -/

/-- The program has the code of the expression at the address `a`, and goes on at `next` behind
it. -/
def At (program : Program) : Regex → Nat → Nat → Prop
  | empty, a, next => program[a]? = some (.jump next)
  | lit c, a, next => program[a]? = some (.lit c next)
  | any, a, next => program[a]? = some (.any next)
  | start, a, next => program[a]? = some (.start next)
  | stop, a, next => program[a]? = some (.stop next)
  | group _ r, a, next => At program r a next
  | rep .optional r, a, next => program[a]? = some (.fork (a + 1) next) ∧ At program r (a + 1) next
  | rep .star r, a, next => program[a]? = some (.fork (a + 1) next) ∧ At program r (a + 1) a
  | rep .plus r, a, next =>
    At program r a (codeLength r a) ∧ program[codeLength r a]? = some (.fork a next)
  | seq r s, a, next => At program r a (codeLength r a) ∧ At program s (codeLength r a) next
  | alt r s, a, next =>
    program[a]? = some (.fork (a + 1) (codeLength r (a + 1))) ∧ At program r (a + 1) next ∧
      At program s (codeLength r (a + 1)) next

theorem codeLength_add (r : Regex) (n m : Nat) : codeLength r (n + m) = codeLength r n + m := by
  induction r generalizing n with
  | empty | lit _ | any | start | stop => simp only [codeLength]; omega
  | group b r ih => rw [codeLength, codeLength, ih]
  | rep k r ih => rw [codeLength, codeLength, Nat.add_right_comm, ih]
  | seq r s ihr ihs => rw [codeLength, codeLength, ihr, ihs]
  | alt r s ihr ihs => rw [codeLength, codeLength, Nat.add_right_comm, ihr, ihs]

theorem size_emit (r : Regex) (next : Nat) (code : Program) :
    (emit r next code).size = codeLength r code.size := by
  induction r generalizing next code with
  | empty | lit _ | any | start | stop => simp [emit, codeLength]
  | group b r ih => rw [emit, codeLength, ih]
  | rep k r ih => cases k <;> simp [emit, codeLength, ih, codeLength_add]
  | seq r s ihr ihs => rw [emit, codeLength, ihs, ihr]
  | alt r s ihr ihs => rw [emit, codeLength, ihs, ihr, Array.size_push]

/-- What is emitted stands behind the code that was there. -/
theorem toList_isPrefix_emit (r : Regex) (next : Nat) (code : Program) :
    code.toList <+: (emit r next code).toList := by
  have hpush : ∀ (code : Program) (i : Instruction), code.toList <+: (code.push i).toList :=
    fun code i => by rw [Array.toList_push]; exact List.prefix_append _ _
  induction r generalizing next code with
  | empty | lit _ | any | start | stop => exact hpush _ _
  | group b r ih => exact ih next code
  | rep k r ih =>
    cases k with
    | optional | star => exact (hpush _ _).trans (ih _ _)
    | plus => exact (ih _ _).trans (hpush _ _)
  | seq r s ihr ihs => exact (ihr _ _).trans (ihs _ _)
  | alt r s ihr ihs => exact ((hpush _ _).trans (ihr _ _)).trans (ihs _ _)

/-- A program that begins with some code and an instruction has the instruction behind the code. -/
theorem getElem?_of_push_isPrefix {code program : Program} {i : Instruction}
    (h : (code.push i).toList <+: program.toList) : program[code.size]? = some i := by
  have hk := List.prefix_iff_getElem?.1 h code.size (by simp)
  simpa using hk

/-- **The code of an expression is where it was emitted**, whatever is emitted behind it. -/
theorem at_emit {r : Regex} {next : Nat} {code program : Program}
    (h : (emit r next code).toList <+: program.toList) : At program r code.size next := by
  induction r generalizing next code with
  | empty | lit _ | any | start | stop => exact getElem?_of_push_isPrefix h
  | group b r ih => exact ih h
  | rep k r ih =>
    cases k with
    | optional | star =>
      have hbody := ih h
      rw [Array.size_push] at hbody
      exact ⟨getElem?_of_push_isPrefix ((toList_isPrefix_emit _ _ _).trans h), hbody⟩
    | plus =>
      have hfork := getElem?_of_push_isPrefix h
      rw [size_emit] at hfork
      refine ⟨ih (List.IsPrefix.trans ?_ h), hfork⟩
      rw [emit, Array.toList_push]
      exact List.prefix_append _ _
  | seq r s ihr ihs =>
    have hs := ihs h
    rw [size_emit] at hs
    exact ⟨ihr ((toList_isPrefix_emit _ _ _).trans h), hs⟩
  | alt r s ihr ihs =>
    have hr := (toList_isPrefix_emit s next _).trans h
    have hs := ihs h
    have hbody := ihr hr
    rw [size_emit, Array.size_push] at hs
    rw [Array.size_push] at hbody
    exact ⟨getElem?_of_push_isPrefix ((toList_isPrefix_emit _ _ _).trans hr), hbody, hs⟩

/-! ## Matches and runs -/

variable {program : Program}

/-- A match can be run through: in front of a run from behind the code there is one from its
beginning. -/
theorem halts_of_matches {r : Regex} {a next m : Nat} {p w s : List Char} (hm : Matches r p w s)
    (ha : At program r a next) (h : Halts program m next (p ++ w) s) :
    ∃ n, Halts program n a p (w ++ s) := by
  induction hm generalizing a next m with
  | empty =>
    rw [List.append_nil] at h
    exact ⟨_, (halts_jump ha).2 ⟨m, rfl, h⟩⟩
  | lit => exact ⟨_, (halts_lit ha).2 ⟨m, _, rfl, rfl, h⟩⟩
  | any hne => exact ⟨_, (halts_any ha).2 ⟨m, _, _, rfl, rfl, hne, h⟩⟩
  | start => exact ⟨_, (halts_start ha).2 ⟨rfl, m, rfl, h⟩⟩
  | stop =>
    rw [List.append_nil] at h
    exact ⟨_, (halts_stop ha).2 ⟨rfl, m, rfl, h⟩⟩
  | group _ ih => exact ih ha h
  | @none k r p s hk =>
    rw [List.append_nil] at h
    cases k with
    | optional | star => exact ⟨_, (halts_fork ha.1).2 ⟨m, rfl, Or.inr h⟩⟩
    | plus => cases hk
  | @once k r p w s _ ih =>
    cases k with
    | optional =>
      obtain ⟨n, hn⟩ := ih ha.2 h
      exact ⟨_, (halts_fork ha.1).2 ⟨n, rfl, Or.inl hn⟩⟩
    | star =>
      obtain ⟨n, hn⟩ := ih ha.2 ((halts_fork ha.1).2 ⟨m, rfl, Or.inr h⟩)
      exact ⟨_, (halts_fork ha.1).2 ⟨n, rfl, Or.inl hn⟩⟩
    | plus => exact ih ha.1 ((halts_fork ha.2).2 ⟨m, rfl, Or.inr h⟩)
  | @more k r p v w s hk _ _ ihv ihw =>
    rw [← List.append_assoc] at h
    obtain ⟨n, hn⟩ := ihw ha h
    rw [List.append_assoc]
    cases k with
    | optional => cases hk
    | star =>
      obtain ⟨n', hn'⟩ := ihv ha.2 hn
      exact ⟨_, (halts_fork ha.1).2 ⟨n', rfl, Or.inl hn'⟩⟩
    | plus => exact ihv ha.1 ((halts_fork ha.2).2 ⟨n, rfl, Or.inl hn⟩)
  | seq _ _ ihq ihr =>
    rw [← List.append_assoc] at h
    obtain ⟨n, hn⟩ := ihr ha.2 h
    rw [List.append_assoc]
    exact ihq ha.1 hn
  | left _ ih =>
    obtain ⟨n, hn⟩ := ih ha.2.1 h
    exact ⟨_, (halts_fork ha.1).2 ⟨n, rfl, Or.inl hn⟩⟩
  | right _ ih =>
    obtain ⟨n, hn⟩ := ih ha.2.2 h
    exact ⟨_, (halts_fork ha.1).2 ⟨n, rfl, Or.inr hn⟩⟩

/-- A part of the text ahead is matched, and a run of at most `n` steps goes on behind it. -/
def Passes (program : Program) (r : Regex) (next n : Nat) (p s : List Char) : Prop :=
  ∃ w s' m, s = w ++ s' ∧ m ≤ n ∧ Matches r p w s' ∧ Halts program m next (p ++ w) s'

theorem Passes.imp {q r : Regex} {next n n' : Nat} {p s : List Char}
    (h : Passes program q next n p s) (hn : n ≤ n')
    (himp : ∀ w s', Matches q p w s' → Matches r p w s') : Passes program r next n' p s := by
  obtain ⟨w, s', m, hs, hm, hw, hh⟩ := h
  exact ⟨w, s', m, hs, Nat.le_trans hm hn, himp w s' hw, hh⟩

theorem Passes.nothing {r : Regex} {next n m : Nat} {p s : List Char} (hr : Matches r p [] s)
    (hm : m ≤ n) (h : Halts program m next p s) : Passes program r next n p s :=
  ⟨[], s, m, rfl, hm, hr, by rwa [List.append_nil]⟩

/-- What is matched behind a match is added to it. -/
theorem Passes.then {q r t : Regex} {mid next n n' : Nat} {p s : List Char}
    (h : Passes program q mid n p s)
    (hr : ∀ m p s, m ≤ n → Halts program m mid p s → Passes program r next n' p s)
    (himp : ∀ v w s', Matches q p v (w ++ s') → Matches r (p ++ v) w s' → Matches t p (v ++ w) s') :
    Passes program t next n' p s := by
  obtain ⟨v, s₁, m, rfl, hm, hv, hh⟩ := h
  obtain ⟨w, s₂, m', rfl, hm', hw, hh'⟩ := hr m _ _ hm hh
  refine ⟨v ++ w, s₂, m', by rw [List.append_assoc], hm', himp v w s₂ hv hw, ?_⟩
  rwa [← List.append_assoc]

/-- A run through the code of a repetition that can be run through again: every round has taken at
least one step when the fork is reached again. -/
theorem passes_again {k : Repetition} {r : Regex} {a fork next : Nat} (hmore : k.allowsMore = true)
    (hr : ∀ {n : Nat} {p s : List Char}, Halts program n a p s → Passes program r fork n p s)
    (hfork : program[fork]? = some (.fork a next)) {n : Nat} {p s : List Char}
    (h : Halts program n a p s) : Passes program (.rep k r) next n p s := by
  induction n using Nat.strongRecOn generalizing p s with
  | _ n ih =>
    obtain ⟨w, s', m, rfl, hm, hw, hh⟩ := hr h
    obtain ⟨m, rfl, hagain | hout⟩ := (halts_fork hfork).1 hh
    · obtain ⟨u, s'', m', rfl, hm', hu, hh'⟩ := ih m hm hagain
      refine ⟨w ++ u, s'', m', by rw [List.append_assoc], by omega, .more hmore hw hu, ?_⟩
      rwa [← List.append_assoc]
    · exact ⟨w, s', m, rfl, by omega, .once hw, hout⟩

/-- **A run through the code is a match.** -/
theorem matches_of_halts {r : Regex} {a next n : Nat} {p s : List Char} (ha : At program r a next)
    (h : Halts program n a p s) : Passes program r next n p s := by
  induction r generalizing a next n p s with
  | empty =>
    obtain ⟨m, rfl, hh⟩ := (halts_jump ha).1 h
    exact .nothing .empty (Nat.le_succ m) hh
  | lit c =>
    obtain ⟨m, s', rfl, rfl, hh⟩ := (halts_lit ha).1 h
    exact ⟨[c], s', m, rfl, Nat.le_succ m, .lit, hh⟩
  | any =>
    obtain ⟨m, c, s', rfl, rfl, hne, hh⟩ := (halts_any ha).1 h
    exact ⟨[c], s', m, rfl, Nat.le_succ m, .any hne, hh⟩
  | start =>
    obtain ⟨rfl, m, rfl, hh⟩ := (halts_start ha).1 h
    exact .nothing .start (Nat.le_succ m) hh
  | stop =>
    obtain ⟨rfl, m, rfl, hh⟩ := (halts_stop ha).1 h
    exact .nothing .stop (Nat.le_succ m) hh
  | group b r ih => exact (ih ha h).imp (Nat.le_refl n) fun _ _ => .group
  | rep k r ih =>
    cases k with
    | optional =>
      obtain ⟨m, rfl, hin | hout⟩ := (halts_fork ha.1).1 h
      · exact (ih ha.2 hin).imp (Nat.le_succ m) fun _ _ => .once
      · exact .nothing (.none rfl) (Nat.le_succ m) hout
    | star =>
      obtain ⟨m, rfl, hin | hout⟩ := (halts_fork ha.1).1 h
      · exact (passes_again rfl (ih ha.2) ha.1 hin).imp (Nat.le_succ m) fun _ _ => id
      · exact .nothing (.none rfl) (Nat.le_succ m) hout
    | plus => exact passes_again rfl (ih ha.1) ha.2 h
  | seq q r ihq ihr =>
    refine (ihq ha.1 h).then (fun m p s hm hh => ?_) fun _ _ _ => .seq
    exact (ihr ha.2 hh).imp hm fun _ _ => id
  | alt q r ihq ihr =>
    obtain ⟨m, rfl, hl | hr⟩ := (halts_fork ha.1).1 h
    · exact (ihq ha.2.1 hl).imp (Nat.le_succ m) fun _ _ => .left
    · exact (ihr ha.2.2 hr).imp (Nat.le_succ m) fun _ _ => .right

/-- **The program of an expression runs to its end exactly where the expression matches.** -/
theorem halts_program_iff (r : Regex) (p s : List Char) :
    (∃ n, Halts r.program n 0 p s) ↔ ∃ w s', s = w ++ s' ∧ Matches r p w s' := by
  have ha : At r.program r 0 (codeLength r 0) := at_emit (List.prefix_refl _)
  have hend : r.program.size ≤ codeLength r 0 := Nat.le_of_eq (size_emit r _ #[])
  refine ⟨?_, ?_⟩
  · rintro ⟨n, h⟩
    obtain ⟨w, s', m, hs, -, hw, -⟩ := matches_of_halts ha h
    exact ⟨w, s', hs, hw⟩
  · rintro ⟨w, s', rfl, hw⟩
    exact halts_of_matches hw ha (.done hend)

end Regex
end PrefixPattern
