import PrefixPattern.Proofs.Fragment.Nesting
import PrefixPattern.Proofs.Pattern.Exactness
import PrefixPattern.Verify

/-!
# Verifying a compiled pattern

Since a compiled pattern matches its set and nothing else, the strings that verification misses are
exactly those outside the set, unless the pattern cannot be used at all.  It can be read, but it may
be nested deeper than expressions are allowed to be: every member that extends another one lies
three levels deeper than it.

## What is here

* `Pattern.nesting_expression_le_iff` — how deep a compiled pattern is nested, from its strings.
* `Pattern.verify_eq` — what verification of a compiled pattern says about any strings.
* `Pattern.verify_own_iff` — when a compiled pattern verifies against its own strings.
* `Pattern.verify_of_nested_prefixes` — it never does once the prefixes of a string of length 84
  are members.
-/

set_option autoImplicit false

namespace PrefixPattern
namespace Pattern

variable {l : List String} {o : CompileOptions} {p : Pattern}

/-! ## The nesting of a compiled pattern -/

/-- **A compiled pattern is nested as deep as the deepest of its strings.**  The bound 3 is that of
the empty group, the only one without a character in it. -/
theorem nesting_expression_le_iff {force : Bool} {k : Nat} (hk : 3 ≤ k) :
    (expression l force).nesting ≤ k ↔ ∀ s ∈ l, depth l force s ≤ k := by
  have hroot := Trie.standsFor_root l
  rw [expression, Regex.nesting_anchored]
  by_cases hleaf : (Trie.ofList l).root.branches = .nil ∧ force = true
  · obtain ⟨hnil, rfl⟩ := hleaf
    have hitems : (Trie.ofList l).root.items true = [.group true .empty] := by
      rw [Node.items, Node.grouping, hnil]
      rfl
    refine iff_of_true ?_ fun s hs => ?_
    · rw [hitems]
      exact hk
    · have hempty : s.toList = [] := Node.eq_nil_of_leaf hnil <| by
        rwa [hroot.contains_iff, List.nil_append, String.ofList_toList]
      rw [depth, hempty]
      exact le_trans (by simp [levels]) hk
  · have hgoes : (Trie.ofList l).root.branches = .nil → force = false := fun hnil => by
      simpa [hnil] using hleaf
    have hiff := Node.nesting_items_le_iff hroot hgoes (k := k - 2)
    rw [← Nat.le_sub_iff_add_le (by omega), hiff]
    refine ⟨?_, ?_⟩
    · intro h s hs
      have := h s.toList <| by
        rwa [hroot.contains_iff, List.nil_append, String.ofList_toList]
      rw [depth]
      omega
    · intro h w hw
      rw [hroot.contains_iff, List.nil_append] at hw
      have := h _ hw
      rw [depth, String.toList_ofList] at this
      omega

/-! ## What verification says -/

/-- The strings that the expression of a list does not match are the ones that are not in it. -/
theorem unmatched_expression (hl : l ≠ []) (force : Bool) (strings : List String) :
    (expression l force).unmatched strings = strings.filter (· ∉ l) := by
  refine List.filter_congr fun s _ => ?_
  have hiff : (expression l force).isFound s.toList = true ↔ s ∈ l := by
    rw [Regex.isFound_iff_found, found_expression hl]
  rw [← Regex.isFound]
  by_cases hs : s ∈ l
  · simp [hs, hiff.2 hs]
  · have hno : (expression l force).isFound s.toList = false := by
      rw [← Bool.not_eq_true, hiff]
      exact hs
    simp [hs, hno]

/-- **Verification of a compiled pattern misses the strings outside its set**, if the pattern is
within the limits at all. -/
theorem verify_eq (h : compile l o = .ok p) (strings : List String) :
    verify p.fragment strings =
      if (∀ s ∈ l, depth l o.forceWrap s ≤ Regex.nestingLimit) ∧
          (expression l o.forceWrap).automatonSize ≤ Regex.sizeLimit then
        match strings.filter (· ∉ l) with
        | [] => .ok ()
        | missed => .error (.verify missed)
      else .error (.internal .unreadablePattern) := by
  have hl := ne_nil_of_compile h
  have husable : (expression l o.forceWrap).isUsable = true ↔
      (∀ s ∈ l, depth l o.forceWrap s ≤ Regex.nestingLimit) ∧
        (expression l o.forceWrap).automatonSize ≤ Regex.sizeLimit := by
    rw [Regex.isUsable, Bool.and_eq_true, Regex.fits_iff, decide_eq_true_iff,
      nesting_expression_le_iff (by decide)]
  have hparse : Regex.parse? (anchor p.fragment).toList = some (expression l o.forceWrap) :=
    parse?_of_compile h
  by_cases hu : (expression l o.forceWrap).isUsable = true
  · have hread : Regex.read? (anchor p.fragment).toList = some (expression l o.forceWrap) := by
      rw [Regex.read?, hparse]
      exact if_pos hu
    rw [verify, hread, if_pos (husable.1 hu)]
    change (match (expression l o.forceWrap).unmatched strings with
      | [] => Except.ok ()
      | missed => Except.error (Error.verify missed)) = _
    rw [unmatched_expression hl]
  · have hread : Regex.read? (anchor p.fragment).toList = none := by
      rw [Regex.read?, hparse]
      exact if_neg hu
    rw [verify, hread, if_neg fun hlim => hu (husable.2 hlim)]

/-- **When a compiled pattern verifies against its own strings.**  It has to be within the limits of
expressions; if it is not, verification fails for that reason and no other. -/
theorem verify_own_iff (h : compile l o = .ok p) :
    ∃ r, Regex.parse? p.anchored.toList = some r ∧
      (verify p.fragment l = .ok () ↔
        (∀ s ∈ l, depth l o.forceWrap s ≤ Regex.nestingLimit) ∧
          r.automatonSize ≤ Regex.sizeLimit) ∧
      (verify p.fragment l ≠ .ok () →
        verify p.fragment l = .error (.internal .unreadablePattern)) := by
  have hnone : l.filter (· ∉ l) = [] := by simp
  have heq := verify_eq h l
  rw [hnone] at heq
  refine ⟨expression l o.forceWrap, parse?_of_compile h, ?_, ?_⟩
  · rw [heq]
    split
    · rename_i hlim
      exact iff_of_true rfl hlim
    · rename_i hlim
      exact iff_of_false (by simp) hlim
  · rw [heq]
    split
    · exact fun hne => absurd rfl hne
    · exact fun _ => rfl

/-- A member that extends another one, well within the limits. -/
theorem verify_own_iff_short :
    ∃ p, compile ["a", "ab"] {} = .ok p ∧
      ∃ r, Regex.parse? p.anchored.toList = some r ∧
        (verify p.fragment ["a", "ab"] = .ok () ↔
          (∀ s ∈ ["a", "ab"], depth ["a", "ab"] false s ≤ Regex.nestingLimit) ∧
            r.automatonSize ≤ Regex.sizeLimit) ∧
        (verify p.fragment ["a", "ab"] ≠ .ok () →
          verify p.fragment ["a", "ab"] = .error (.internal .unreadablePattern)) := by
  have h := compile_eq ["a", "ab"] {}
  rw [if_neg (by decide), if_neg (by decide)] at h
  exact ⟨_, h, verify_own_iff h⟩

/-! ## Members that extend each other -/

/-- Behind a member, each further character that makes another member is worth three levels. -/
theorem three_mul_length_le_levels {force : Bool} {q w : List Char}
    (h : ∀ u, u <+: w → String.ofList (q ++ u) ∈ l) : 3 * w.length ≤ levels l force q w + 1 := by
  induction w generalizing q with
  | nil => simp
  | cons c w ih =>
    have hq : String.ofList q ∈ l := by simpa using h [] List.nil_prefix
    have htail := ih (q := q ++ [c]) fun u hu => by
      simpa using h (c :: u) ((List.prefix_cons_inj c).2 hu)
    have hat : 2 + (if w.isEmpty then 0 else 1) ≤ levelsAt l force q w.isEmpty :=
      le_levelsAt_of_mem hq _
    rw [levels, List.length_cons]
    cases w with
    | nil => simp at hat ⊢; omega
    | cons d w => simp at hat htail ⊢; omega

/-- **A string with all its prefixes in the list lies three levels deep for each character.** -/
theorem three_mul_length_le_depth {force : Bool} {s : String}
    (h : ∀ u, u ≠ [] → u <+: s.toList → String.ofList u ∈ l) :
    3 * s.toList.length ≤ depth l force s + 1 := by
  rw [depth]
  cases hs : s.toList with
  | nil => simp
  | cons c w =>
    have htail : 3 * w.length ≤ levels l force [c] w + 1 := three_mul_length_le_levels fun u hu =>
      h (c :: u) (List.cons_ne_nil c u) (by rw [hs]; exact (List.prefix_cons_inj c).2 hu)
    rw [levels, List.length_cons, List.nil_append]
    cases w with
    | nil => simp
    | cons d w =>
      have hroot : 1 ≤ (if IsGroupingPoint l force [] ∨ (d :: w).length + 1 < 2 then 0 else 1) +
          levelsAt l force [] (d :: w).isEmpty := by
        by_cases hpoint : IsGroupingPoint l force []
        · exact le_trans (by simp) (Nat.add_le_add_left (le_levelsAt_of_point hpoint _) _)
        · rw [if_neg (by simp [hpoint])]
          exact Nat.le_add_right _ _
      omega

/-- **No compiled pattern verifies once the prefixes of a long string are members**, whatever else
is in the set. -/
theorem verify_of_nested_prefixes (h : compile l o = .ok p) {s : String}
    (hs : ∀ u, u ≠ [] → u <+: s.toList → String.ofList u ∈ l) (hlen : 84 ≤ s.toList.length)
    (strings : List String) :
    verify p.fragment strings = .error (.internal .unreadablePattern) := by
  have hmem : s ∈ l := by
    have hne : s.toList ≠ [] := by
      intro hnil
      simp [hnil] at hlen
    simpa using hs s.toList hne List.prefix_rfl
  rw [verify_eq h, if_neg]
  rintro ⟨hdeep, -⟩
  have h₁ := @three_mul_length_le_depth l o.forceWrap s hs
  have h₂ := hdeep s hmem
  rw [Regex.nestingLimit] at h₂
  omega

/-- The strings of one to `n` letters `a`. -/
def runs (n : Nat) : List String :=
  (List.range n).map fun i => String.ofList (List.replicate (i + 1) 'a')

theorem mem_runs {n : Nat} {u : List Char} :
    String.ofList u ∈ runs n ↔ u ≠ [] ∧ u <+: List.replicate n 'a' := by
  rw [List.prefix_replicate_iff, runs, List.mem_map]
  refine ⟨?_, ?_⟩
  · rintro ⟨i, hi, hu⟩
    obtain rfl := String.ofList_injective hu
    simpa [Nat.succ_le_iff] using hi
  · rintro ⟨hne, hlen, hu⟩
    have hpos : 0 < u.length := List.length_pos_iff.2 hne
    refine ⟨u.length - 1, List.mem_range.2 (by omega), ?_⟩
    rw [Nat.sub_add_cancel hpos, ← hu]

/-- **Compiled, but not verified**: 84 members, each with one letter more than the one before. -/
theorem verify_runs :
    ∃ p, compile (runs 84) {} = .ok p ∧
      verify p.fragment (runs 84) = .error (.internal .unreadablePattern) := by
  have hempty : "" ∉ runs 84 := fun hmem => (mem_runs.1 hmem).1 rfl
  have hne : runs 84 ≠ [] := by simp [runs]
  have h := compile_eq (runs 84) {}
  rw [if_neg fun hno => hempty hno.1, if_neg hne] at h
  refine ⟨_, h, verify_of_nested_prefixes h (s := String.ofList (List.replicate 84 'a')) ?_ ?_ _⟩
  · intro u hu hpre
    rw [String.toList_ofList] at hpre
    exact mem_runs.2 ⟨hu, hpre⟩
  · rw [String.toList_ofList, List.length_replicate]

end Pattern
end PrefixPattern
