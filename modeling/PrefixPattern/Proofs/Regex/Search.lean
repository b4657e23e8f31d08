import PrefixPattern.Proofs.Regex.Run

/-!
# The search finds what the expression matches

`Program.search` follows all runs of a program at once.  This file shows that it loses none of them
and invents none, so that `Regex.isFound` decides `Regex.Found`.

## What is here

* `Program.Takes` — a thread takes the next character, and a run to the end goes on behind it.
* `Program.Closed` — the invariant of `Program.explore`: from a seen address one goes on to seen
  addresses or to ones that are still to do, and its thread is among those found.
* `Program.halts_iff_explore` — exploring answers whether a run goes on from one of the addresses.
* `Program.search_iff`, `Regex.isFound_iff_found` — the same for whole texts.
-/

set_option autoImplicit false

namespace PrefixPattern

namespace Program

variable {program : Program} {p s : List Char}

/-- The thread takes the next character ahead, and from behind it the end is reached. -/
def Takes (program : Program) (p s : List Char) (t : Thread) : Prop :=
  ∃ c rest next n, s = c :: rest ∧ t.advance? c = some next ∧
    Halts program n next (p ++ [c]) rest

/-- From some step count on there is a run from the address. -/
def Reaches (program : Program) (p s : List Char) (k : Nat) : Prop :=
  ∃ n, Halts program n k p s

/-- What was seen is closed under going on, but for what is still to do, and no thread of it was
forgotten. -/
structure Closed (program : Program) (p s : List Char) (todo : List Nat) (seen : Std.HashSet Nat)
    (found : List Thread) : Prop where
  lt_size : ∀ k, seen.contains k = true → k < program.size
  goesOn : ∀ k step, seen.contains k = true → program[k]? = some step →
    ∀ j ∈ Program.goesOn ⟨p.isEmpty, s.isEmpty⟩ step, seen.contains j = true ∨ j ∈ todo
  thread : ∀ k step t, seen.contains k = true → program[k]? = some step →
    thread? step = some t → t ∈ found

theorem closed_empty (todo : List Nat) : Closed program p s todo ∅ [] where
  lt_size := by simp
  goesOn := by simp
  thread := by simp

variable {todo : List Nat} {seen : Std.HashSet Nat} {found : List Thread} {k : Nat}

/-- An address that was seen needs not be done again. -/
theorem Closed.skip (h : Closed program p s (k :: todo) seen found) (hk : seen.contains k = true) :
    Closed program p s todo seen found where
  lt_size := h.lt_size
  goesOn j step hj hstep i hi := by
    rcases h.goesOn j step hj hstep i hi with hs | hs
    · exact Or.inl hs
    · rcases List.mem_cons.1 hs with rfl | hs
      · exact Or.inl hk
      · exact Or.inr hs
  thread := h.thread

/-- What was seen or to do still is when an address to do becomes seen. -/
theorem contains_insert_or_mem {i : Nat} {todo' : List Nat}
    (h : seen.contains k = true ∨ k ∈ i :: todo) (htodo : ∀ j ∈ todo, j ∈ todo') :
    (seen.insert i).contains k = true ∨ k ∈ todo' := by
  rcases h with h | h
  · exact Or.inl (Std.HashSet.mem_insert.2 (Or.inr h))
  · rcases List.mem_cons.1 h with rfl | h
    · exact Or.inl (Std.HashSet.mem_insert.2 (Or.inl (beq_self_eq_true k)))
    · exact Or.inr (htodo k h)

/-- An address becomes seen: what it goes on to has to be done, and its thread is found. -/
theorem Closed.visit (h : Closed program p s (k :: todo) seen found) {step : Instruction}
    (hstep : program[k]? = some step) {todo' : List Nat} {found' : List Thread}
    (hgo : ∀ j ∈ Program.goesOn ⟨p.isEmpty, s.isEmpty⟩ step, j ∈ todo')
    (htodo : ∀ j ∈ todo, j ∈ todo') (hfound : ∀ t ∈ found, t ∈ found')
    (hthread : ∀ t, thread? step = some t → t ∈ found') :
    Closed program p s todo' (seen.insert k) found' where
  lt_size j hj := by
    rcases Std.HashSet.mem_insert.1 hj with hkj | hj
    · rw [← eq_of_beq hkj]
      exact (Array.getElem?_eq_some_iff.1 hstep).1
    · exact h.lt_size j hj
  goesOn j step' hj hstep' i hi := by
    rcases Std.HashSet.mem_insert.1 hj with hkj | hj
    · obtain rfl := eq_of_beq hkj
      cases hstep.symm.trans hstep'
      exact Or.inr (hgo i hi)
    · exact contains_insert_or_mem (h.goesOn j step' hj hstep' i hi) htodo
  thread j step' t hj hstep' ht := by
    rcases Std.HashSet.mem_insert.1 hj with hkj | hj
    · obtain rfl := eq_of_beq hkj
      cases hstep.symm.trans hstep'
      exact hthread t ht
    · exact hfound t (h.thread j step' t hj hstep' ht)

/-- Once nothing is to do, every run from a seen address takes its first character by a thread that
was found. -/
theorem Closed.exists_takes (h : Closed program p s [] seen found) {n : Nat}
    (hk : seen.contains k = true) (hrun : Halts program n k p s) :
    ∃ t ∈ found, Takes program p s t := by
  induction n generalizing k with
  | zero =>
    cases hrun with
    | done hge => exact absurd (h.lt_size k hk) (Nat.not_lt.2 hge)
  | succ n ih =>
    cases hrun with
    | read hstep ht hc hrun => exact ⟨_, h.thread k _ _ hk hstep ht, _, _, _, _, rfl, hc, hrun⟩
    | go hstep hg hrun =>
      rcases h.goesOn k _ hk hstep _ hg with hs | hs
      · exact ih hs hrun
      · cases hs

/-! ## Exploring -/

theorem goesOn_eq_nil {step : Instruction} {t : Thread} (h : thread? step = some t)
    (place : Place) : Program.goesOn place step = [] := by
  cases step with
  | lit | any => rfl
  | start | stop | jump | fork => cases h

/-- The end is only reported where a run leads to it. -/
theorem reaches_of_explore_eq_none
    (h : explore program ⟨p.isEmpty, s.isEmpty⟩ todo seen found = none) :
    ∃ k ∈ todo, Reaches program p s k := by
  fun_induction explore program ⟨p.isEmpty, s.isEmpty⟩ todo seen found with
  | case1 => cases h
  | case2 seen found k todo hs ih =>
    obtain ⟨j, hj, hr⟩ := ih h
    exact ⟨j, List.mem_cons_of_mem _ hj, hr⟩
  | case3 seen found k todo hs hk step t ht ih =>
    obtain ⟨j, hj, hr⟩ := ih h
    exact ⟨j, List.mem_cons_of_mem _ hj, hr⟩
  | case4 seen found k todo hs hk step ht ih =>
    obtain ⟨j, hj, n, hr⟩ := ih h
    rcases List.mem_append.1 hj with hj | hj
    · exact ⟨k, List.mem_cons_self, n + 1, .go (Array.getElem?_eq_getElem hk) hj hr⟩
    · exact ⟨j, List.mem_cons_of_mem _ hj, n, hr⟩
  | case5 seen found k todo hs hk =>
    exact ⟨k, List.mem_cons_self, 0, .done (Nat.not_lt.1 hk)⟩

/-- A thread that is reported begins a run from an address that was to do. -/
theorem reaches_of_mem_explore {threads : List Thread} {t : Thread}
    (h : explore program ⟨p.isEmpty, s.isEmpty⟩ todo seen found = some threads) (ht : t ∈ threads)
    (htakes : Takes program p s t) : t ∈ found ∨ ∃ k ∈ todo, Reaches program p s k := by
  fun_induction explore program ⟨p.isEmpty, s.isEmpty⟩ todo seen found with
  | case1 => cases h; exact Or.inl ht
  | case2 seen found k todo hs ih =>
    exact (ih h).imp_right fun ⟨j, hj, hr⟩ => ⟨j, List.mem_cons_of_mem _ hj, hr⟩
  | case3 seen found k todo hs hk step u hu ih =>
    rcases ih h with hmem | ⟨j, hj, hr⟩
    · rcases List.mem_cons.1 hmem with rfl | hmem
      · obtain ⟨c, rest, next, n, rfl, hc, hrun⟩ := htakes
        exact Or.inr ⟨k, List.mem_cons_self, n + 1, .read (Array.getElem?_eq_getElem hk) hu hc hrun⟩
      · exact Or.inl hmem
    · exact Or.inr ⟨j, List.mem_cons_of_mem _ hj, hr⟩
  | case4 seen found k todo hs hk step hu ih =>
    rcases ih h with hmem | ⟨j, hj, n, hr⟩
    · exact Or.inl hmem
    · rcases List.mem_append.1 hj with hj | hj
      · exact Or.inr ⟨k, List.mem_cons_self, n + 1, .go (Array.getElem?_eq_getElem hk) hj hr⟩
      · exact Or.inr ⟨j, List.mem_cons_of_mem _ hj, n, hr⟩
  | case5 => cases h

/-- No run is lost: one from a seen address or from one that is to do takes its first character by a
thread that is reported. -/
theorem exists_takes_of_explore {threads : List Thread}
    (hclosed : Closed program p s todo seen found)
    (h : explore program ⟨p.isEmpty, s.isEmpty⟩ todo seen found = some threads)
    (hk : seen.contains k = true ∨ k ∈ todo) (hr : Reaches program p s k) :
    ∃ t ∈ threads, Takes program p s t := by
  fun_induction explore program ⟨p.isEmpty, s.isEmpty⟩ todo seen found with
  | case1 =>
    cases h
    obtain ⟨n, hr⟩ := hr
    exact hclosed.exists_takes (hk.resolve_right List.not_mem_nil) hr
  | case2 seen found i todo hs ih =>
    refine ih (hclosed.skip hs) h ?_
    rcases hk with hk | hk
    · exact Or.inl hk
    · rcases List.mem_cons.1 hk with rfl | hk
      · exact Or.inl hs
      · exact Or.inr hk
  | case3 seen found i todo hs hi step u hu ih =>
    have hstep : program[i]? = some step := Array.getElem?_eq_getElem hi
    refine ih (hclosed.visit hstep ?_ (fun _ => id) (fun _ => List.mem_cons_of_mem _) ?_) h
      (contains_insert_or_mem hk fun _ => id)
    · rw [goesOn_eq_nil hu]
      exact fun j hj => (List.not_mem_nil hj).elim
    · rintro t ht
      cases hu.symm.trans ht
      exact List.mem_cons_self
  | case4 seen found i todo hs hi step hu ih =>
    have hstep : program[i]? = some step := Array.getElem?_eq_getElem hi
    refine ih (hclosed.visit hstep (fun _ => List.mem_append_left _)
      (fun _ => List.mem_append_right _) (fun _ => id) ?_) h
      (contains_insert_or_mem hk fun _ => List.mem_append_right _)
    rintro t ht
    cases hu.symm.trans ht
  | case5 => cases h

/-- **Exploring answers whether a run goes on from one of the addresses**: the end is reached at
once, or a thread takes the next character. -/
theorem exists_reaches_iff (todo : List Nat) :
    (∃ k ∈ todo, Reaches program p s k) ↔
      ∀ threads, explore program ⟨p.isEmpty, s.isEmpty⟩ todo ∅ [] = some threads →
        ∃ t ∈ threads, Takes program p s t := by
  refine ⟨?_, ?_⟩
  · rintro ⟨k, hk, hr⟩ threads h
    exact exists_takes_of_explore (closed_empty todo) h (Or.inr hk) hr
  · intro hall
    cases h : explore program ⟨p.isEmpty, s.isEmpty⟩ todo ∅ [] with
    | none => exact reaches_of_explore_eq_none h
    | some threads =>
      obtain ⟨t, ht, htakes⟩ := hall threads h
      exact (reaches_of_mem_explore h ht htakes).resolve_left List.not_mem_nil

/-! ## Searching -/

/-- A thread takes the character ahead exactly when there is a run from the address behind it. -/
theorem exists_takes_cons_iff (threads : List Thread) (c : Char) (cs : List Char) :
    (∃ t ∈ threads, Takes program p (c :: cs) t) ↔
      ∃ k ∈ threads.filterMap (Thread.advance? c), Reaches program (p ++ [c]) cs k := by
  refine ⟨?_, ?_⟩
  · rintro ⟨t, ht, d, rest, next, n, hs, hc, hrun⟩
    cases hs
    exact ⟨next, List.mem_filterMap.2 ⟨t, ht, hc⟩, n, hrun⟩
  · rintro ⟨k, hk, n, hrun⟩
    obtain ⟨t, ht, hc⟩ := List.mem_filterMap.1 hk
    exact ⟨t, ht, c, cs, k, n, rfl, hc, hrun⟩

/-- A run from the beginning of the program begins here or later in the text. -/
def ReachesLater (program : Program) (p s : List Char) : Prop :=
  ∃ q s', s = q ++ s' ∧ Reaches program (p ++ q) s' 0

theorem reachesLater_nil : ReachesLater program p [] ↔ Reaches program p [] 0 := by
  refine ⟨?_, ?_⟩
  · rintro ⟨q, s', hs, h⟩
    obtain ⟨rfl, rfl⟩ := List.append_eq_nil_iff.1 hs.symm
    rwa [List.append_nil] at h
  · exact fun h => ⟨[], [], rfl, by rwa [List.append_nil]⟩

theorem reachesLater_cons {c : Char} {cs : List Char} :
    ReachesLater program p (c :: cs) ↔
      Reaches program p (c :: cs) 0 ∨ ReachesLater program (p ++ [c]) cs := by
  refine ⟨?_, ?_⟩
  · rintro ⟨_ | ⟨d, q⟩, s', hs, h⟩
    · rw [List.append_nil] at h
      exact Or.inl (hs ▸ h)
    · cases hs
      exact Or.inr ⟨q, s', rfl, by rwa [List.append_assoc]⟩
  · rintro (h | ⟨q, s', rfl, h⟩)
    · exact ⟨[], c :: cs, rfl, by rwa [List.append_nil]⟩
    · exact ⟨c :: q, s', rfl, by rwa [List.append_assoc] at h⟩

/-- The search finds a run that goes on from one of the addresses, or one that begins here or
later. -/
theorem search_iff (now : List Nat) :
    search program p.isEmpty now s = true ↔
      (∃ k ∈ now, Reaches program p s k) ∨ ReachesLater program p s := by
  have hcons : ∀ (p s : List Char) (now : List Nat), (∃ k ∈ 0 :: now, Reaches program p s k) ↔
      (∃ k ∈ now, Reaches program p s k) ∨ Reaches program p s 0 := fun p s now => by
    simp [or_comm]
  induction s generalizing p now with
  | nil =>
    rw [reachesLater_nil, ← hcons, exists_reaches_iff, search, Option.isNone_iff_eq_none]
    refine ⟨?_, ?_⟩
    · intro hnone threads h
      cases hnone.symm.trans h
    · intro hall
      cases h : explore program ⟨p.isEmpty, true⟩ (0 :: now) ∅ [] with
      | none => rfl
      | some threads =>
        obtain ⟨t, -, c, rest, next, n, hs, -⟩ := hall threads h
        cases hs
  | cons c cs ih =>
    rw [reachesLater_cons, ← or_assoc, ← hcons, exists_reaches_iff, search]
    have hstart : (p ++ [c]).isEmpty = false := by cases p <;> rfl
    simp only [List.isEmpty_cons]
    cases h : explore program ⟨p.isEmpty, false⟩ (0 :: now) ∅ [] with
    | none => simp
    | some threads =>
      have hnext := ih (p := p ++ [c]) (threads.filterMap (Thread.advance? c))
      rw [hstart] at hnext
      simp only [hnext, Option.some.injEq, forall_eq', exists_takes_cons_iff]

end Program

/-- **The search decides whether the expression matches somewhere in the text.** -/
theorem Regex.isFound_iff_found (r : Regex) (text : List Char) :
    r.isFound text = true ↔ r.Found text := by
  have hsearch := @Program.search_iff r.program [] text []
  rw [Regex.isFound]
  refine hsearch.trans ⟨?_, ?_⟩
  · rintro (⟨k, hk, -⟩ | ⟨q, s, rfl, h⟩)
    · cases hk
    · obtain ⟨w, s', rfl, hw⟩ := (Regex.halts_program_iff r q s).1 h
      exact ⟨q, w, s', by rw [List.append_assoc], hw⟩
  · rintro ⟨q, w, s, rfl, hw⟩
    have hrun := (Regex.halts_program_iff r q (w ++ s)).2 ⟨w, s, rfl, hw⟩
    exact Or.inr ⟨q, w ++ s, by rw [List.append_assoc], hrun⟩

end PrefixPattern
