import PrefixPattern.Proofs.Fragment.Order
import PrefixPattern.Proofs.Pattern.Exactness

/-!
# The pattern of a set is canonical

Compilation takes a list and may keep its tries in hash tables, but its result depends on the set of
the strings alone; and the text of a pattern tells which set it was.

## What is here

* `Trie.Gathers`, `Pattern.Compiles` — compilation where rows come in any order, and in another one
  after every insertion.
* `Pattern.compiles_iff` — whatever the order, the result is that of `Pattern.compile`.
* `Pattern.compile_congr`, `Pattern.mem_iff_of_fragment_eq` — the same set gives the same result,
  and the same text comes from the same set.
* `Pattern.compile_canonical` — the three together.
-/

set_option autoImplicit false

namespace PrefixPattern

/-! ## Rows in any order -/

namespace Trie

/-- Reading strings into a trie, where only the map of each row is known after an insertion. -/
inductive Gathers (policy : EmptyMember) : List String → Trie → Except CompileError Trie → Prop
  | done {t : Trie} : Gathers policy [] t (.ok t)
  | rejected {s : String} {rest : List String} {t : Trie} (h : s = "" ∧ policy = .reject) :
      Gathers policy (s :: rest) t (.error .emptyMember)
  | next {s : String} {rest : List String} {t u : Trie} {r : Except CompileError Trie}
      (h : ¬ (s = "" ∧ policy = .reject)) :
      t.Inserts s u → Gathers policy rest u r → Gathers policy (s :: rest) t r

/-- Two outcomes are the same error, or tries that are equal up to the order of their rows. -/
def Agree : Except CompileError Trie → Except CompileError Trie → Prop
  | .error e, .error e' => e = e'
  | .ok t, .ok u => t.Resembles u
  | _, _ => False

variable {policy : EmptyMember} {l : List String}

/-- Every order leads to the same outcome, up to the order. -/
theorem Gathers.agree {t u : Trie} {r : Except CompileError Trie} (h : Gathers policy l t r)
    (htu : t.Resembles u) : Agree r (gather policy l u) := by
  induction h generalizing u with
  | done => exact htu
  | rejected h =>
    rw [gather, if_pos h]
    rfl
  | next h hins _ ih =>
    rw [gather, if_neg h]
    exact ih (htu.insert hins)

/-- Keeping the rows in ascending order is one way to read the strings. -/
theorem gathers_gather {t : Trie} (h : t.root.Sound) : Gathers policy l t (gather policy l t) := by
  induction l generalizing t with
  | nil => exact .done
  | cons s rest ih =>
    rw [gather]
    by_cases hs : s = "" ∧ policy = .reject
    · rw [if_pos hs]
      exact .rejected hs
    · rw [if_neg hs]
      exact .next hs (inserts_insert h s) (ih (sound_foldl h [s]))

end Trie

namespace Pattern

variable {l m : List String} {o : CompileOptions}

/-- The pattern of a set whose rows are put in order as they are written. -/
def ofScattered (t : Trie) (forceWrap : Bool) : Pattern where
  fragment := String.ofList (t.root.written forceWrap)
  matchesEmpty := t.root.terminal
  members := t.size
  nodes := t.nodeCount

/-- What compilation makes of the strings that were read. -/
def settle (forceWrap : Bool) : Except CompileError Trie → Except CompileError Pattern
  | .error e => .error e
  | .ok t => if t.isEmpty then .error .emptySet else .ok (ofScattered t forceWrap)

/-- Compiling a list of strings, with rows in any order, can have this result. -/
def Compiles (l : List String) (o : CompileOptions) (r : Except CompileError Pattern) : Prop :=
  ∃ g, Trie.Gathers o.emptyMember l .empty g ∧ r = settle o.forceWrap g

theorem ofScattered_eq {t u : Trie} (h : t.Resembles u) (force : Bool) :
    ofScattered t force = ofTrie u force := by
  have hfragment : String.ofList (t.root.written force) = u.root.fragment force := by
    rw [← String.toList_inj, String.toList_ofList, Node.toList_fragment,
      Node.written_eq h.scattered, h.root]
  have hterminal : t.root.terminal = u.root.terminal := by
    rw [← h.root]
    rfl
  rw [ofScattered, ofTrie, hfragment, hterminal, h.size, h.nodeCount_eq]

theorem settle_of_agree {g : Except CompileError Trie}
    (h : Trie.Agree g (Trie.gather o.emptyMember l .empty)) :
    settle o.forceWrap g = compile l o := by
  rw [compile]
  cases hu : Trie.gather o.emptyMember l .empty with
  | error e =>
    rw [hu] at h
    cases g with
    | error e' => exact congrArg Except.error h
    | ok t => exact h.elim
  | ok u =>
    rw [hu] at h
    cases g with
    | error e' => exact h.elim
    | ok t =>
      have hempty : t.isEmpty = u.isEmpty := by
        rw [Trie.isEmpty, Trie.isEmpty, Trie.Resembles.size h]
      rw [settle, hempty, ofScattered_eq h]

/-- **The order of the rows does not matter**: every order gives the result of `compile`. -/
theorem compiles_iff {r : Except CompileError Pattern} : Compiles l o r ↔ r = compile l o := by
  refine ⟨?_, ?_⟩
  · rintro ⟨g, hg, rfl⟩
    exact settle_of_agree (hg.agree Trie.resembles_empty)
  · rintro rfl
    have hg : Trie.Gathers o.emptyMember l .empty (Trie.gather o.emptyMember l .empty) :=
      Trie.gathers_gather (show Trie.empty.root.Sound from trivial)
    exact ⟨_, hg, (settle_of_agree (hg.agree Trie.resembles_empty)).symm⟩

/-! ## The set and the text -/

/-- **The same set gives the same result**, in whatever order and however often its strings come. -/
theorem compile_congr (h : ∀ s, s ∈ l ↔ s ∈ m) (o : CompileOptions) :
    compile l o = compile m o := by
  have hnil : l = [] ↔ m = [] := by
    rw [List.eq_nil_iff_forall_not_mem, List.eq_nil_iff_forall_not_mem]
    exact forall_congr' fun s => not_congr (h s)
  rw [compile_eq, compile_eq, Trie.ofList_congr h]
  simp only [h, hnil]

/-- **The text of a pattern tells its set.** -/
theorem mem_iff_of_fragment_eq {p q : Pattern} (hp : compile l o = .ok p) (hq : compile m o = .ok q)
    (h : p.fragment = q.fragment) (s : String) : s ∈ l ↔ s ∈ m := by
  have hparse : Regex.parse? p.anchored.toList = Regex.parse? q.anchored.toList := by
    rw [anchored, anchored, h]
  have hexpr : expression l o.forceWrap = expression m o.forceWrap := by
    rw [parse?_of_compile hp, parse?_of_compile hq] at hparse
    exact Option.some.inj hparse
  rw [← found_expression (ne_nil_of_compile hp) o.forceWrap, hexpr,
    found_expression (ne_nil_of_compile hq)]

/-- **Compilation is canonical.**  Its result is the same for every order of the rows, the same for
all lists of the same strings, and different for different sets. -/
theorem compile_canonical (l m : List String) (o : CompileOptions) :
    (∀ r, Compiles l o r ↔ r = compile l o) ∧
      ((∀ s, s ∈ l ↔ s ∈ m) → compile l o = compile m o) ∧
      ∀ p q, compile l o = .ok p → compile m o = .ok q → p.fragment = q.fragment →
        ∀ s, s ∈ l ↔ s ∈ m := by
  refine ⟨fun r => compiles_iff, fun h => compile_congr h o, ?_⟩
  intro p q hp hq h
  exact mem_iff_of_fragment_eq hp hq h

end Pattern
end PrefixPattern
