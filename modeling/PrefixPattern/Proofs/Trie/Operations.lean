import PrefixPattern.Proofs.Trie.Membership

/-!
# A trie among other things is a set

Whoever holds a trie can add strings to it and ask it questions, in any order.  What comes back is
what a finite set of strings would answer, however many nodes the strings share and however often
the same one is added.

## What is here

* `SetRequest`, `SetAnswer` — what a string set can be told and asked, and what comes back.
* `Trie.respond`, `Trie.respondAll` — a trie under one request, and under one after the other.
* `SetRequest.onSet`, `SetRequest.allOnSet` — the same for a finite set of strings.
* `Trie.Represents.respond` — one request keeps a trie and a set in step.
* `Trie.respondAll_eq` — so all answers are those of the set, from the empty trie and from the trie
  of any list, and in the end it holds what was in the list or was added, and nothing else.
-/

set_option autoImplicit false

namespace PrefixPattern

/-- What a string set is told or asked. -/
inductive SetRequest where
  /-- add a string; the answer says whether it is new -/
  | insert (s : String)
  | contains (s : String)
  | size
  | isEmpty
  deriving DecidableEq, Repr

/-- What comes back. -/
inductive SetAnswer where
  | flag (b : Bool)
  | count (n : Nat)
  deriving DecidableEq, Repr

/-! ## Requests to a trie -/

namespace Trie

/-- The answer of a trie, and the trie that is left. -/
def respond (t : Trie) : SetRequest → SetAnswer × Trie
  | .insert s => (.flag (t.insertNew s).1, (t.insertNew s).2)
  | .contains s => (.flag (t.contains s), t)
  | .size => (.count t.size, t)
  | .isEmpty => (.flag t.isEmpty, t)

/-- The answers to one request after the other, and the trie that is left. -/
def respondAll (t : Trie) : List SetRequest → List SetAnswer × Trie
  | [] => ([], t)
  | r :: rest =>
    let (answers, last) := (t.respond r).2.respondAll rest
    ((t.respond r).1 :: answers, last)

end Trie

/-! ## Requests to a set -/

namespace SetRequest

/-- The answer of a finite set of strings, and the set that is left. -/
def onSet (S : Finset String) : SetRequest → SetAnswer × Finset String
  | insert s => (.flag (s ∉ S), Insert.insert s S)
  | contains s => (.flag (s ∈ S), S)
  | size => (.count S.card, S)
  | isEmpty => (.flag (S = ∅), S)

/-- The answers to one request after the other, and the set that is left. -/
def allOnSet (S : Finset String) : List SetRequest → List SetAnswer × Finset String
  | [] => ([], S)
  | r :: rest =>
    let (answers, last) := allOnSet (r.onSet S).2 rest
    ((r.onSet S).1 :: answers, last)

/-- Nothing is in the set that was not there before or added. -/
theorem mem_allOnSet {S : Finset String} {requests : List SetRequest} {s : String} :
    s ∈ (allOnSet S requests).2 ↔ s ∈ S ∨ insert s ∈ requests := by
  induction requests generalizing S with
  | nil => simp [allOnSet]
  | cons r rest ih =>
    rw [allOnSet, ih, List.mem_cons]
    cases r with
    | insert u => simp only [onSet, Finset.mem_insert, insert.injEq]; tauto
    | contains u => simp [onSet]
    | size => simp [onSet]
    | isEmpty => simp [onSet]

end SetRequest

/-! ## In step -/

namespace Trie

variable {t : Trie} {S : Finset String}

/-- **One request keeps a trie and a set in step.** -/
theorem Represents.respond (h : t.Represents S) (r : SetRequest) :
    (t.respond r).1 = (r.onSet S).1 ∧ (t.respond r).2.Represents (r.onSet S).2 := by
  cases r with
  | insert s =>
    refine ⟨congrArg SetAnswer.flag ?_, represents_insert h s⟩
    rw [insertNew_eq, Bool.eq_iff_iff, decide_eq_true_iff, ← h.contains_iff]
    split
    · rename_i hs
      simp [hs]
    · rename_i hs
      simp [hs]
  | contains s =>
    refine ⟨congrArg SetAnswer.flag ?_, h⟩
    rw [Bool.eq_iff_iff, decide_eq_true_iff, h.contains_iff]
  | size => exact ⟨congrArg SetAnswer.count h.size_eq, h⟩
  | isEmpty =>
    refine ⟨congrArg SetAnswer.flag ?_, h⟩
    rw [Bool.eq_iff_iff, decide_eq_true_iff, isEmpty, beq_iff_eq, h.size_eq, Finset.card_eq_zero]

theorem Represents.respondAll (h : t.Represents S) (requests : List SetRequest) :
    (t.respondAll requests).1 = (SetRequest.allOnSet S requests).1 ∧
      (t.respondAll requests).2.Represents (SetRequest.allOnSet S requests).2 := by
  induction requests generalizing t S with
  | nil => exact ⟨rfl, h⟩
  | cons r rest ih =>
    obtain ⟨hanswer, hnext⟩ := h.respond r
    obtain ⟨hanswers, hlast⟩ := ih hnext
    exact ⟨congrArg₂ List.cons hanswer hanswers, hlast⟩

/-- **A trie answers as a set does**, whatever it is told and asked and in whatever order. -/
theorem respondAll_eq (requests : List SetRequest) :
    (empty.respondAll requests).1 = (SetRequest.allOnSet ∅ requests).1 ∧
      ∀ l : List String,
        ((ofList l).respondAll requests).1 = (SetRequest.allOnSet l.toFinset requests).1 ∧
          ∀ s, ((ofList l).respondAll requests).2.contains s = true ↔
            s ∈ l ∨ .insert s ∈ requests := by
  refine ⟨(represents_empty.respondAll requests).1, fun l => ?_⟩
  obtain ⟨hanswers, hlast⟩ := (represents_ofList l).respondAll requests
  refine ⟨hanswers, fun s => ?_⟩
  rw [hlast.contains_iff, SetRequest.mem_allOnSet, List.mem_toFinset]

end Trie
end PrefixPattern
