import Mathlib.Data.List.Infix
import PrefixPattern.Proofs.Path.Steps

/-!
# The way that a path describes

A component of a path is a name to go down to, a `..` that takes the last name back, or nothing to
do.  So a path amounts to a number of directories to go up and some names to go down from there, and
this is found from the text alone: its route.  The beginnings of a path have routes too, and need
not be on the way to where the path leads: in `a/../b` the first name is left again.  A path that
takes nothing back is straight, and so is one that names again what it has taken back.

## What is here

* `Path.Route`, `Path.route` — what some steps amount to; `Path.Route.behind` — the names on the way
  to where they lead, behind those of the directory that they start from.
* `Path.Route.behind_step`, `Path.foldl_move` — a route moves as its steps do.
* `Path.IsStraight` — all beginnings of a path are on the way to where it leads.
* `Path.isStraight_of_notMem` — a path without `..` is straight.
* `Path.IsStraight.behind_suffix`, `Path.isStraight_of_behind_suffix` — a path is straight exactly
  if its beginnings lead to the directory of the whole path or above it, wherever it starts.
-/

set_option autoImplicit false

namespace PrefixPattern
namespace Path

variable {p : String} {way : List String}

/-! ## Routes -/

/-- Going up a number of directories, and down by some names from there, the last first. -/
structure Route where
  up : Nat
  down : List String
  deriving DecidableEq, Repr

/-- From a directory, where the last name is taken back by `..`. -/
def move (place : List String) (step : String) : List String :=
  if step = "" ∨ step = "." then place
  else if step = ".." then place.tail
  else step :: place

theorem length_move_le (place : List String) (step : String) :
    (move place step).length ≤ place.length + 1 := by
  rw [move]
  split
  · omega
  · split
    · rw [List.length_tail]
      omega
    · exact le_rfl

namespace Route

/-- Staying where one is. -/
def nil : Route :=
  ⟨0, []⟩

/-- One step further. -/
def step (r : Route) (name : String) : Route :=
  if name = "" ∨ name = "." then r
  else if name = ".." then
    match r.down with
    | [] => ⟨r.up + 1, []⟩
    | _ :: rest => ⟨r.up, rest⟩
  else ⟨r.up, name :: r.down⟩

/-- The names of the directory that the route leads to, from those of the one it starts from. -/
def behind (r : Route) (start : List String) : List String :=
  r.down ++ start.drop r.up

@[simp] theorem behind_root (r : Route) : r.behind [] = r.down := by
  rw [behind, List.drop_nil, List.append_nil]

theorem behind_step (r : Route) (start : List String) (name : String) :
    (r.step name).behind start = move (r.behind start) name := by
  rw [step, move]
  split
  · rfl
  · split
    · obtain ⟨up, down⟩ := r
      cases down with
      | nil => simp [behind]
      | cons last rest => rfl
    · rfl

theorem up_le_step (r : Route) (name : String) : r.up ≤ (r.step name).up := by
  rw [step]
  split
  · exact le_rfl
  · split
    · split
      · exact Nat.le_succ _
      · exact le_rfl
    · exact le_rfl

theorem up_le_foldl (r : Route) (names : List String) : r.up ≤ (names.foldl step r).up := by
  induction names generalizing r with
  | nil => exact le_rfl
  | cons name rest ih => exact (r.up_le_step name).trans (ih _)

/-- Without `..` a route only grows. -/
theorem foldl_step_of_notMem (r : Route) {names : List String} (h : ".." ∉ names) :
    (names.foldl step r).up = r.up ∧ r.down <:+ (names.foldl step r).down := by
  induction names generalizing r with
  | nil => exact ⟨rfl, List.suffix_rfl⟩
  | cons name rest ih =>
    rw [List.mem_cons, not_or] at h
    obtain ⟨hname, hrest⟩ := h
    have hstep : (r.step name).up = r.up ∧ r.down <:+ (r.step name).down := by
      rw [step]
      split
      · exact ⟨rfl, List.suffix_rfl⟩
      · rw [if_neg (Ne.symm hname)]
        exact ⟨rfl, List.suffix_cons _ _⟩
    obtain ⟨hup, hdown⟩ := ih (r.step name) hrest
    exact ⟨hup.trans hstep.1, hstep.2.trans hdown⟩

end Route

/-- What some steps amount to. -/
def route (names : List String) : Route :=
  names.foldl Route.step .nil

theorem route_append (names rest : List String) :
    route (names ++ rest) = rest.foldl Route.step (route names) :=
  List.foldl_append

theorem route_concat (names : List String) (name : String) :
    route (names ++ [name]) = (route names).step name :=
  route_append names [name]

/-- **Where steps lead is told by their route.** -/
theorem foldl_move (start names : List String) :
    names.foldl move start = (route names).behind start := by
  induction names using List.reverseRecOn with
  | nil => rfl
  | append_singleton names name ih =>
    rw [List.foldl_concat, ih, route_concat, Route.behind_step]

theorem length_behind_route_le (start names : List String) :
    ((route names).behind start).length ≤ start.length + names.length := by
  rw [← foldl_move]
  induction names generalizing start with
  | nil => exact le_rfl
  | cons name rest ih =>
    have hmove := length_move_le start name
    have hrest := ih (move start name)
    rw [List.foldl_cons, List.length_cons]
    omega

/-! ## Straight paths -/

/-- All beginnings of a path are on the way to where it leads: what is taken back by `..` is named
again, and a path that starts from a current directory does not leave it. -/
structure IsStraight (p : String) : Prop where
  stays : ¬ isAbsolute p.toList → (route (steps p)).up = 0
  onWay : ∀ way ∈ (steps p).inits, (route way).down <:+ (route (steps p)).down

instance (p : String) : Decidable (IsStraight p) :=
  decidable_of_iff
    ((¬ isAbsolute p.toList → (route (steps p)).up = 0) ∧
      ∀ way ∈ (steps p).inits, (route way).down <:+ (route (steps p)).down)
    ⟨fun h => ⟨h.1, h.2⟩, fun h => ⟨h.stays, h.onWay⟩⟩

/-- **A path without `..` is straight.** -/
theorem isStraight_of_notMem (h : ".." ∉ steps p) : IsStraight p where
  stays _ := (Route.nil.foldl_step_of_notMem h).1
  onWay way hway := by
    obtain ⟨rest, hrest⟩ := (List.mem_inits _ _).1 hway
    rw [← hrest, route_append]
    refine ((route way).foldl_step_of_notMem fun hmem => h ?_).2
    rw [← hrest]
    exact List.mem_append_right _ hmem

/-- A name that was taken back may be named again, but not another one. -/
example : IsStraight "a/../a/b" ∧ ¬ IsStraight "a/../b" := by decide

/-- The beginnings of a straight path lead to the directory of the whole path or above it. -/
theorem IsStraight.behind_suffix (h : IsStraight p) {start : List String}
    (hstart : isAbsolute p.toList → start = []) (hway : way ∈ (steps p).inits) :
    (route way).behind start <:+ (route (steps p)).behind start := by
  have hdown := h.onWay way hway
  by_cases habsolute : isAbsolute p.toList
  · rw [hstart habsolute]
    simpa using hdown
  · obtain ⟨rest, hrest⟩ := (List.mem_inits _ _).1 hway
    have hup : (route way).up ≤ (route (steps p)).up := by
      rw [← hrest, route_append]
      exact Route.up_le_foldl _ _
    rw [h.stays habsolute] at hup
    rw [Route.behind, Route.behind, h.stays habsolute, Nat.le_zero.1 hup, List.drop_zero]
    exact (List.suffix_append_self_iff ..).2 hdown

/-- **From the root and from directories that bear one of two names, straight paths can be told from
all others.**  A path that goes up as many directories as there are all of one name would have to
name them again, and cannot do this for both names. -/
theorem isStraight_of_behind_suffix
    (hroot : ∀ way ∈ (steps p).inits, (route way).behind [] <:+ (route (steps p)).behind [])
    (hcurrent : ¬ isAbsolute p.toList → ∀ name ∈ ["a", "b"], ∀ n,
      List.replicate n name <:+ (route (steps p)).behind (List.replicate n name)) :
    IsStraight p where
  stays habsolute := by
    by_contra hup
    have hlast : ∀ name ∈ ["a", "b"], (route (steps p)).down.getLast? = some name := by
      intro name hname
      have hsuffix := hcurrent habsolute name hname (route (steps p)).up
      rw [Route.behind, List.drop_of_length_le (by simp), List.append_nil] at hsuffix
      obtain ⟨more, hmore⟩ := hsuffix
      rw [← hmore, List.getLast?_append_of_ne_nil _ (by simpa using hup), List.getLast?_replicate,
        if_neg hup]
    have ha := hlast "a" (by simp)
    rw [hlast "b" (by simp)] at ha
    simp at ha
  onWay way hway := by simpa using hroot way hway

end Path
end PrefixPattern
