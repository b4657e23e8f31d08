/-!
# Paths as they are written

A path is handled as text and never resolved here, so `..` is a component like any other.  Repeated
and trailing slashes do not count, and neither do `.` components except one at the very start.

## What is here

* `Path.parent?` — the path without its last component, where it has one.
* `Path.ancestors` — the path, its parent, the parent of that, and so on.  A relative path ends in
  the empty path, an absolute one in `/`.
* `Path.join` — a name below a directory, which is kept as it is written.
-/

set_option autoImplicit false

namespace PrefixPattern
namespace Path

/-- Drop trailing slashes and `.` components from a path that is written backwards. -/
def trimBack : List Char → List Char
  | '/' :: rest => trimBack rest
  | ['.'] => []
  | '.' :: '/' :: rest => trimBack rest
  | cs => cs

/-- Drop the last component, and the slash in front of it, from a path that is written backwards. -/
def dropLast (cs : List Char) : List Char :=
  (cs.dropWhile (· ≠ '/')).drop 1

/-- What a path starts with, apart from its components: the root, or a first `.`. -/
def head (p : List Char) : List Char :=
  match p with
  | '/' :: _ => ['/']
  | ['.'] => ['.']
  | '.' :: '/' :: _ => ['.']
  | _ => []

/-- The parent of a path. -/
def parentList? (p : List Char) : Option (List Char) :=
  let start := head p
  match trimBack (p.drop start.length).reverse with
  | [] => if start = ['.'] then some [] else none
  | body => some (start ++ (trimBack (dropLast body)).reverse)

/-! ## A parent is shorter -/

theorem length_trimBack_le (cs : List Char) : (trimBack cs).length ≤ cs.length := by
  fun_induction trimBack cs with
  | case1 rest ih => simp; omega
  | case2 => simp
  | case3 rest ih => simp; omega
  | case4 => simp

theorem length_dropLast_lt {cs : List Char} (h : cs ≠ []) : (dropLast cs).length < cs.length := by
  have hle : (cs.dropWhile (· ≠ '/')).length ≤ cs.length :=
    (List.dropWhile_sublist _).length_le
  have hpos : 0 < cs.length := List.length_pos_iff.2 h
  rw [dropLast, List.length_drop]
  omega

theorem length_head_le (p : List Char) : (head p).length ≤ p.length := by
  unfold head
  split <;> simp

theorem length_parentList?_lt {p q : List Char} (h : parentList? p = some q) :
    q.length < p.length := by
  have hhead := length_head_le p
  have htrim := length_trimBack_le (p.drop (head p).length).reverse
  rw [List.length_reverse, List.length_drop] at htrim
  simp only [parentList?] at h
  split at h
  · split at h
    · next hdot =>
      cases h
      rw [hdot] at hhead
      exact Nat.lt_of_lt_of_le (by simp) hhead
    · cases h
  · next hne =>
    cases h
    have h₁ := length_dropLast_lt hne
    have h₂ := length_trimBack_le (dropLast (trimBack (p.drop (head p).length).reverse))
    simp only [List.length_append, List.length_reverse]
    omega

/-- The path and everything above it. -/
def ancestorsList (p : List Char) : List (List Char) :=
  match _h : parentList? p with
  | none => [p]
  | some q => p :: ancestorsList q
termination_by p.length
decreasing_by exact length_parentList?_lt _h

/-! ## Paths as strings -/

/-- The parent of a path. -/
def parent? (p : String) : Option String :=
  (parentList? p.toList).map String.ofList

/-- The path and everything above it, the nearest first. -/
def ancestors (p : String) : List String :=
  (ancestorsList p.toList).map String.ofList

/-- A name below a directory. -/
def join (directory name : String) : String :=
  if directory = "" ∨ directory.toList.getLast? = some '/' then directory ++ name
  else directory ++ "/" ++ name

/-- The path has one component only, the given one, whatever slashes follow it. -/
def isName (name p : String) : Bool :=
  head p.toList = [] && (trimBack p.toList.reverse).reverse == name.toList

end Path
end PrefixPattern
