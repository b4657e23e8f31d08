import PrefixPattern.Proofs.Pattern.Verification
import PrefixPattern.Proofs.Regex.Size

/-!
# Sets that are not nested too deep

How deep a pattern is nested can be told from the grouping points of its strings alone: a group adds
at most four levels, and three more are around all of them.  With no more than 61 grouping points on
the way to any string a pattern stays within the limit for nesting, so the only thing that can still
be in the way of verification is the size of its automaton.

This second limit knows nothing of grouping points.  A single string has none at all, and yet its
pattern is too large from a certain length on.

## What is here

* `groupingPoints` — the number of grouping points in front of the end of a string.
* `depth_le` — the levels around a string, from its grouping points.
* `Pattern.verify_within_points` — what verification says about a set that is not nested too deep.
* `Pattern.verify_singleton` — the length from which on a single string does not verify;
  `Pattern.verify_letters` is one that does not.
-/

set_option autoImplicit false

namespace PrefixPattern

/-! ## Grouping points along a string -/

section Points

variable (l : List String) (force : Bool)

/-- The number of grouping points from a prefix on, in front of the end of the word that goes on
from it. -/
def pointsAlong (p w : List Char) : Nat :=
  (List.range w.length).countP fun i => IsGroupingPoint l force (p ++ w.take i)

/-- The number of proper prefixes of a string that are grouping points. -/
def groupingPoints (s : String) : Nat := pointsAlong l force [] s.toList

end Points

variable {l : List String} {force : Bool}

theorem pointsAlong_cons (p : List Char) (c : Char) (w : List Char) :
    pointsAlong l force p (c :: w) =
      (if IsGroupingPoint l force p then 1 else 0) + pointsAlong l force (p ++ [c]) w := by
  rw [pointsAlong, List.length_cons, List.range_succ_eq_map, List.countP_cons, List.countP_map,
    pointsAlong, Nat.add_comm]
  simp only [List.take_zero, List.append_nil, decide_eq_true_eq, List.append_assoc,
    List.singleton_append]
  rfl

/-- A grouping point adds at most four levels: the group, its question mark, its alternatives and
the branch that goes on. -/
theorem levelsAt_le (p : List Char) (last : Bool) :
    levelsAt l force p last ≤ 4 * (if IsGroupingPoint l force p then 1 else 0) := by
  have h₁ : (if String.ofList p ∈ l then 1 else 0) ≤ 1 := by split <;> simp
  have h₂ : (if 1 < (continuations l p).card then 1 else 0) ≤ 1 := by split <;> simp
  have h₃ : (if last then 0 else 1) ≤ 1 := by split <;> simp
  rw [levelsAt]
  split
  · omega
  · exact Nat.zero_le _

theorem levels_le (p w : List Char) : levels l force p w ≤ 4 * pointsAlong l force p w := by
  induction w generalizing p with
  | nil => exact Nat.zero_le _
  | cons c w ih =>
    rw [levels, pointsAlong_cons, Nat.mul_add]
    exact Nat.add_le_add (levelsAt_le p _) (ih (p ++ [c]))

/-- **A string lies at most four levels deep for each of its grouping points**, and three more. -/
theorem depth_le (s : String) : depth l force s ≤ 3 + 4 * groupingPoints l force s := by
  have hlevels : levels l force [] s.toList ≤ 4 * groupingPoints l force s := levels_le [] s.toList
  have hseq : (if IsGroupingPoint l force [] ∨ s.toList.length < 2 then 0 else 1) ≤ 1 := by
    split <;> simp
  rw [depth]
  omega

theorem depth_le_nestingLimit {s : String} (h : groupingPoints l force s ≤ 61) :
    depth l force s ≤ Regex.nestingLimit := by
  have := @depth_le l force s
  rw [Regex.nestingLimit]
  omega

/-! ## A single string -/

theorem not_isGroupingPoint_singleton {s : String} {i : Nat} (hi : i < s.toList.length) :
    ¬ IsGroupingPoint [s] false (s.toList.take i) := by
  rintro (hmem | hcard | ⟨-, hforce⟩)
  -- the only member is longer than its proper prefixes, and has one way to go on from each
  · have hlen := congrArg (·.toList.length) (List.mem_singleton.1 hmem)
    simp only [String.toList_ofList, List.length_take] at hlen
    omega
  · have hle : (continuations [s] (s.toList.take i)).card ≤ 1 :=
      (List.toFinset_card_le _).trans (List.length_filterMap_le _ [s])
    omega
  · cases hforce

/-- There is nothing to group in a single string. -/
theorem groupingPoints_singleton (s : String) : groupingPoints [s] false s = 0 := by
  rw [groupingPoints, pointsAlong, List.countP_eq_zero]
  intro i hi
  simpa using not_isGroupingPoint_singleton (List.mem_range.1 hi)

/-- A word put into an empty tree is read as its characters. -/
theorem Node.items_insert_empty (w : List Char) :
    (Node.empty.insert w).items false = w.map Regex.lit := by
  induction w with
  | nil => rfl
  | cons c w ih =>
    have hchild : Node.empty.child c = Node.empty := rfl
    rw [Node.insert_cons, hchild]
    change [Regex.lit c :: (Node.empty.insert w).items false].flatten = _
    rw [ih]
    simp

namespace Pattern

variable {o : CompileOptions} {p : Pattern}

/-! ## Verification within the limit for nesting -/

/-- Within both limits, verification says which strings are outside the set. -/
theorem verify_of_within_limits (h : compile l o = .ok p)
    (hdeep : ∀ s ∈ l, depth l o.forceWrap s ≤ Regex.nestingLimit)
    (hsize : (expression l o.forceWrap).automatonSize ≤ Regex.sizeLimit)
    (candidates : List String) :
    ((∀ c ∈ candidates, c ∈ l) → verify p.fragment candidates = .ok ()) ∧
      ((∃ c ∈ candidates, c ∉ l) →
        verify p.fragment candidates = .error (.verify (candidates.filter (· ∉ l)))) := by
  rw [verify_eq h, if_pos ⟨hdeep, hsize⟩]
  refine ⟨?_, ?_⟩
  · intro hall
    have hnone : candidates.filter (· ∉ l) = [] := by simpa using hall
    rw [hnone]
  · rintro ⟨c, hc, hcl⟩
    have hmissed : candidates.filter (· ∉ l) ≠ [] :=
      List.ne_nil_of_mem (List.mem_filter.2 ⟨hc, decide_eq_true hcl⟩)
    split
    · rename_i hnil
      exact absurd hnil hmissed
    · rfl

/-- With too large an automaton, verification fails whatever the strings are. -/
theorem verify_of_sizeLimit_lt (h : compile l o = .ok p)
    (hsize : Regex.sizeLimit < (expression l o.forceWrap).automatonSize)
    (candidates : List String) :
    verify p.fragment candidates = .error (.internal .unreadablePattern) := by
  rw [verify_eq h, if_neg]
  rintro ⟨-, hle⟩
  exact absurd hle (Nat.not_le_of_lt hsize)

/-- **A set with at most 61 grouping points on the way to each string** has a pattern that is not
nested too deep, and verification tells the strings of the set from all others, as long as the
automaton of the pattern is not too large.  If it is, verification fails for that reason whatever
the strings are. -/
theorem verify_within_points (h : compile l o = .ok p)
    (hpoints : ∀ s ∈ l, groupingPoints l o.forceWrap s ≤ 61) :
    ∃ r, Regex.parse? p.anchored.toList = some r ∧ r.nesting ≤ Regex.nestingLimit ∧
      (r.automatonSize ≤ Regex.sizeLimit → ∀ candidates : List String,
        ((∀ c ∈ candidates, c ∈ l) → verify p.fragment candidates = .ok ()) ∧
        ((∃ c ∈ candidates, c ∉ l) →
          verify p.fragment candidates = .error (.verify (candidates.filter (· ∉ l))))) ∧
      (Regex.sizeLimit < r.automatonSize → ∀ candidates : List String,
        verify p.fragment candidates = .error (.internal .unreadablePattern)) := by
  have hdeep : ∀ s ∈ l, depth l o.forceWrap s ≤ Regex.nestingLimit := fun s hs =>
    depth_le_nestingLimit (hpoints s hs)
  exact ⟨expression l o.forceWrap, parse?_of_compile h,
    (nesting_expression_le_iff (by decide)).2 hdeep, verify_of_within_limits h hdeep,
    verify_of_sizeLimit_lt h⟩

/-- A member that extends another one, behind a forced group. -/
theorem verify_within_points_short :
    ∃ p, compile ["a", "ab"] { forceWrap := true } = .ok p ∧
      (∀ s ∈ ["a", "ab"], groupingPoints ["a", "ab"] true s ≤ 61) ∧
      ∃ r, Regex.parse? p.anchored.toList = some r ∧ r.nesting ≤ Regex.nestingLimit ∧
        (r.automatonSize ≤ Regex.sizeLimit → ∀ candidates : List String,
          ((∀ c ∈ candidates, c ∈ ["a", "ab"]) → verify p.fragment candidates = .ok ()) ∧
          ((∃ c ∈ candidates, c ∉ ["a", "ab"]) →
            verify p.fragment candidates =
              .error (.verify (candidates.filter (· ∉ ["a", "ab"]))))) ∧
        (Regex.sizeLimit < r.automatonSize → ∀ candidates : List String,
          verify p.fragment candidates = .error (.internal .unreadablePattern)) := by
  have h := compile_eq ["a", "ab"] { forceWrap := true }
  rw [if_neg (by decide), if_neg (by decide)] at h
  have hpoints : ∀ s ∈ ["a", "ab"], groupingPoints ["a", "ab"] true s ≤ 61 := by decide
  exact ⟨_, h, hpoints, verify_within_points h hpoints⟩

/-! ## The pattern of a single string -/

theorem expression_singleton (s : String) :
    expression [s] false = .anchored (s.toList.map .lit) := by
  rw [expression, Trie.root_ofList_singleton, Node.items_insert_empty]

/-- **A single string verifies against itself up to a length of 327674 bytes**, at which its
automaton is as large as it may be. -/
theorem verify_singleton {s : String} (h : compile [s] o = .ok p) (hforce : o.forceWrap = false) :
    verify p.fragment [s] =
      if s.utf8ByteSize ≤ 327674 then .ok () else .error (.internal .unreadablePattern) := by
  have hdeep : ∀ t ∈ [s], depth [s] o.forceWrap t ≤ Regex.nestingLimit := by
    intro t ht
    obtain rfl := List.mem_singleton.1 ht
    refine depth_le_nestingLimit ?_
    rw [hforce, groupingPoints_singleton]
    exact Nat.zero_le _
  have hsize : (expression [s] o.forceWrap).automatonSize = 32 * s.utf8ByteSize + 192 := by
    rw [hforce, expression_singleton, Regex.automatonSize_anchored_lits, String.ofList_toList]
  split
  · refine (verify_of_within_limits h hdeep ?_ [s]).1 fun _ hc => hc
    rw [hsize, Regex.sizeLimit]
    omega
  · refine verify_of_sizeLimit_lt h ?_ [s]
    rw [hsize, Regex.sizeLimit]
    omega

/-- The string of `n` letters `a`. -/
def letters (n : Nat) : String :=
  String.ofList (List.replicate n 'a')

theorem utf8ByteSize_letters (n : Nat) : (letters n).utf8ByteSize = n := by
  induction n with
  | zero => rfl
  | succ n ih =>
    rw [letters, List.replicate_succ, String.ofList_cons, String.utf8ByteSize_append]
    exact (Nat.add_comm 1 _).trans (congrArg (· + 1) ih)

/-- **No grouping points, and still not verified**: a single string of 330000 letters. -/
theorem verify_letters :
    ∃ p, compile [letters 330000] {} = .ok p ∧
      groupingPoints [letters 330000] false (letters 330000) = 0 ∧
      verify p.fragment [letters 330000] = .error (.internal .unreadablePattern) := by
  have hlen := utf8ByteSize_letters 330000
  have hempty : "" ∉ [letters 330000] := by
    rw [List.mem_singleton]
    intro heq
    rw [← heq] at hlen
    cases hlen
  have h := compile_eq [letters 330000] {}
  rw [if_neg fun hno => hempty hno.1, if_neg (List.cons_ne_nil _ [])] at h
  refine ⟨_, h, groupingPoints_singleton _, (verify_singleton h rfl).trans (if_neg ?_)⟩
  omega

end Pattern
end PrefixPattern
