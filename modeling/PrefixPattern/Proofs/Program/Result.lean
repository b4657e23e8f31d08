import Mathlib.Data.List.Forall2
import PrefixPattern.Proofs.NameMap
import PrefixPattern.Proofs.Program.Effects

/-!
# What a run comes to

A run tells a good deal on its way, and its errors name paths and sets.  Of all this, a caller that
looks at the exit code and at the standard output sees very little, and most of the program only
matters for that little.

## What is here

* `Outcome.Shows` — what is seen of an outcome: a text with success, or an exit code and nothing
  printed.
* `Outcome.trace_of_result`, `Outcome.shows_of_does` — a command that prints texts as soon as it has
  what they are made of: what it does, and what is seen of it.
* `quiet_compileChecked_congr` — it does not matter on what a compile error is blamed;
  `quiet_compileChecked_eq_ok_iff` says when there is none.
* `quiet_compileSets_congr`, `quiet_compileSets_eq_ok_iff` — the same for the sets of a
  configuration, one after the other.
-/

set_option autoImplicit false

namespace PrefixPattern

open PrefixPattern.Action (quiet quiet_bind quiet_bind_of_ok quiet_ofExcept)

/-! ## What is seen -/

/-- No error ends a run with success. -/
theorem Error.exitCode_ne_success (e : Error) : e.exitCode ≠ .success := by
  cases e <;> simp [exitCode]

namespace Outcome

/-- What is seen of an outcome. -/
inductive Shows (o : Outcome) : Except ExitCode String → Prop where
  | text {s : String} (hexit : o.exit = .success) (hprinted : o.printed = s) : Shows o (.ok s)
  | failure {code : ExitCode} (hcode : code ≠ .success) (hexit : o.exit = code)
      (hprinted : o.printed = "") : Shows o (.error code)

variable {o o' : Outcome} {r : Except ExitCode String}

theorem Shows.exit_eq_success_iff (h : o.Shows r) : o.exit = .success ↔ ∃ s, r = .ok s := by
  cases h with
  | text hexit _ => simp [hexit]
  | failure hcode hexit _ => simp [hexit, hcode]

/-- Texts that are made of something are shown if there is something to make them of. -/
theorem Shows.exit_eq_success_iff_of_map {α : Type} {x : Except ExitCode α} {f : α → String}
    (h : o.Shows (x.map f)) : o.exit = .success ↔ ∃ a, x = .ok a := by
  rw [h.exit_eq_success_iff]
  cases x <;> simp [Except.map]

theorem Shows.printed_eq {s : String} (h : o.Shows (.ok s)) : o.printed = s := by
  cases h with
  | text _ hprinted => exact hprinted

/-- Outcomes of which the same is seen cannot be told apart. -/
theorem Shows.congr (h : o.Shows r) (h' : o'.Shows r) :
    o'.exit = o.exit ∧ o'.printed = o.printed := by
  cases h with
  | text hexit hprinted =>
    cases h' with
    | text hexit' hprinted' => exact ⟨hexit'.trans hexit.symm, hprinted'.trans hprinted.symm⟩
  | failure _ hexit hprinted =>
    cases h' with
    | failure _ hexit' hprinted' => exact ⟨hexit'.trans hexit.symm, hprinted'.trans hprinted.symm⟩

/-- Different texts that are made of the same thing come with the same exit code. -/
theorem Shows.exit_congr {α : Type} {x : Except ExitCode α} {f g : α → String}
    (h : o.Shows (x.map f)) (h' : o'.Shows (x.map g)) : o'.exit = o.exit := by
  cases x with
  | ok a =>
    cases h with
    | text hexit _ =>
      cases h' with
      | text hexit' _ => exact hexit'.trans hexit.symm
  | error code =>
    cases h with
    | failure _ hexit _ =>
      cases h' with
      | failure _ hexit' _ => exact hexit'.trans hexit.symm

/-! ## Commands -/

/-- What is only told is not printed. -/
theorem join_onOutput_tell (told : List Notice) :
    String.join ((told.map Effect.tell).map Effect.onOutput) = "" := by
  induction told with
  | nil => rfl
  | cons n told ih =>
    rw [List.map_cons, List.map_cons, String.join_cons, ih]
    rfl

theorem exists_map_tell {trace : List Effect} (h : ∀ e ∈ trace, e.IsRemark) :
    ∃ told : List Notice, trace = told.map .tell := by
  induction trace with
  | nil => exact ⟨[], rfl⟩
  | cons e rest ih =>
    obtain ⟨he, hrest⟩ := List.forall_mem_cons.1 h
    obtain ⟨n, rfl⟩ := he.exists_notice
    obtain ⟨told, rfl⟩ := ih hrest
    exact ⟨n :: told, rfl⟩

theorem printAll_eq (texts : List String) :
    printAll texts = ⟨texts.map fun s => .print (.text s), .ok ()⟩ := by
  rw [List.map_eq_flatMap]
  exact Action.forM_eq texts fun _ _ => rfl

theorem join_onOutput_texts (texts : List String) :
    String.join ((texts.map fun s => Effect.print (.text s)).map Effect.onOutput) =
      String.join texts := by
  rw [List.map_map]
  exact congrArg String.join (List.map_id texts)

section Command

variable {α : Type} {x : Action α} {Q : Error → Prop}

/-- **A command that makes texts of something** does all that has to be done for it, and then prints
the texts or tells why it failed. -/
theorem trace_of_result (x : Action α) (f : α → List String) :
    ofAction (x >>= fun a => printAll (f a)) =
      match x.result with
      | .ok a => ⟨.success, x.trace ++ (f a).map fun s => .print (.text s)⟩
      | .error e => ⟨e.exitCode, x.trace ++ [.tell (.failure e)]⟩ := by
  cases h : x.result with
  | ok a => rw [Action.bind_of_ok h, printAll_eq, ofAction]
  | error e => rw [Action.bind_of_error h, ofAction]

/-- Behind all that such a command does first there are only the texts or the failure, and the exit
code is that of the failure. -/
theorem exists_failure (x : Action α) (f : α → List String) :
    ∃ (texts : List Output) (failure : Option Error),
      ofAction (x >>= fun a => printAll (f a)) =
        ⟨failure.elim .success Error.exitCode,
          x.trace ++ texts.map .print ++ failure.toList.map fun e => .tell (.failure e)⟩ ∧
      ∀ e, x.result = .error e → failure = some e := by
  rw [trace_of_result]
  cases x.result with
  | ok a => exact ⟨(f a).map .text, none, by simp, nofun⟩
  | error e => exact ⟨[], some e, by simp, fun e' he' => congrArg some (Except.error.inj he')⟩

/-- **What is seen of a command** are the texts if there is something to make them of, and otherwise
the exit code alone. -/
theorem shows_of_does (hx : x.Does Effect.IsRemark Q) (f : α → List String) :
    (ofAction (x >>= fun a => printAll (f a))).Shows
      ((quiet x).map fun a => String.join (f a)) := by
  obtain ⟨told, htold⟩ := exists_map_tell hx.of_mem
  rw [trace_of_result, htold, quiet]
  cases x.result with
  | ok a =>
    refine .text rfl ?_
    rw [printed, List.map_append, String.join_append, join_onOutput_tell, join_onOutput_texts,
      String.empty_append]
  | error e =>
    refine .failure e.exitCode_ne_success rfl ?_
    rw [printed, List.map_append, String.join_append, join_onOutput_tell]
    rfl

end Command

end Outcome

/-! ## Compiling and checking -/

section CompileChecked

variable {strings : List String} {o : CompileOptions} {check : Bool}
variable {blame blame' : CompileError → Error}

theorem quiet_checkPattern (check : Bool) (p : Pattern) (strings : List String) :
    quiet (checkPattern check p strings) =
      if check then (verify p.fragment strings).mapError Error.exitCode else .ok () := by
  rw [checkPattern]
  split
  · rw [quiet_bind, quiet_ofExcept]
    cases verify p.fragment strings <;> rfl
  · rfl

theorem quiet_compileChecked :
    quiet (compileChecked strings o check blame) =
      ((Pattern.compile strings o).mapError fun e => (blame e).exitCode).bind fun p =>
        (quiet (checkPattern check p strings)).map fun _ => p := by
  rw [compileChecked, quiet_bind, quiet_ofExcept]
  cases Pattern.compile strings o with
  | error e => rfl
  | ok p =>
    change quiet (Action.tell _ >>= fun _ => checkPattern check p strings >>= fun _ => pure p) = _
    rw [quiet_bind_of_ok rfl, quiet_bind]
    rfl

/-- It does not matter on what a compile error is blamed, if the exit codes are the same. -/
theorem quiet_compileChecked_congr (h : ∀ e, (blame e).exitCode = (blame' e).exitCode) :
    quiet (compileChecked strings o check blame) =
      quiet (compileChecked strings o check blame') := by
  rw [quiet_compileChecked, quiet_compileChecked, funext h]

/-- **A list of strings is through if it compiles, and verifies where it is checked.** -/
theorem quiet_compileChecked_eq_ok_iff {p : Pattern} :
    quiet (compileChecked strings o check blame) = .ok p ↔
      Pattern.compile strings o = .ok p ∧
        (check = true → verify p.fragment strings = .ok ()) := by
  rw [quiet_compileChecked]
  cases Pattern.compile strings o with
  | error e => exact ⟨nofun, fun h => nomatch h.1⟩
  | ok q =>
    have hmap : quiet (checkPattern check q strings) = .ok () ↔
        (check = true → verify q.fragment strings = .ok ()) := by
      rw [quiet_checkPattern]
      cases check with
      | false => simp
      | true => simp [mapError_eq_ok_iff]
    change (quiet (checkPattern check q strings)).map (fun _ => q) = .ok p ↔ _
    rw [Except.ok.injEq]
    refine ⟨fun h => ?_, ?_⟩
    · cases hq : quiet (checkPattern check q strings) with
      | ok a =>
        rw [hq] at h
        obtain rfl : q = p := Except.ok.inj h
        exact ⟨rfl, hmap.1 hq⟩
      | error code =>
        rw [hq] at h
        cases h
    · rintro ⟨rfl, hp⟩
      rw [hmap.2 hp]
      rfl

end CompileChecked

/-! ## Sets one after the other -/

section CompileSets

variable {check : Bool}

/-- The report is on the set of the name, which is through. -/
def IsThrough (check : Bool) (named : String × SetConfig) (r : Report) : Prop :=
  ∃ p, Pattern.compile named.2.members named.2.options = .ok p ∧
    (check = true → verify p.fragment named.2.members = .ok ()) ∧ r = .ofPattern (some named.1) p

theorem quiet_compileSets_cons (path name : String) (s : SetConfig) (rest : NameMap SetConfig) :
    quiet (compileSets path check ((name, s) :: rest)) =
      (quiet (compileChecked s.members s.options check .compile)).bind fun p =>
        (quiet (compileSets path check rest)).map (.ofPattern (some name) p :: ·) := by
  have hblame : quiet (compileChecked s.members s.options check .compile) =
      quiet (compileChecked s.members s.options check
        fun e => .config (.badSet name e) (some path)) :=
    quiet_compileChecked_congr fun e => rfl
  rw [hblame, compileSets, quiet_bind_of_ok rfl, quiet_bind]
  refine congrArg _ (funext fun p => ?_)
  rw [quiet_bind]
  cases quiet (compileSets path check rest) <;> rfl

/-- The path of a configuration does not matter for its sets. -/
theorem quiet_compileSets_congr (path path' : String) (sets : NameMap SetConfig) :
    quiet (compileSets path check sets) = quiet (compileSets path' check sets) := by
  induction sets with
  | nil => rfl
  | cons named rest ih =>
    obtain ⟨name, s⟩ := named
    rw [quiet_compileSets_cons, quiet_compileSets_cons, ih]

/-- **Sets are through if each of them is**, and then every one has its report. -/
theorem quiet_compileSets_eq_ok_iff {path : String} {sets : NameMap SetConfig}
    {reports : List Report} :
    quiet (compileSets path check sets) = .ok reports ↔
      List.Forall₂ (IsThrough check) sets reports := by
  induction sets generalizing reports with
  | nil => simp [compileSets, eq_comm]
  | cons named rest ih =>
    obtain ⟨name, s⟩ := named
    have hstep : quiet (compileSets path check ((name, s) :: rest)) = .ok reports ↔
        ∃ p others, quiet (compileChecked s.members s.options check .compile) = .ok p ∧
          quiet (compileSets path check rest) = .ok others ∧
          reports = .ofPattern (some name) p :: others := by
      rw [quiet_compileSets_cons]
      cases quiet (compileChecked s.members s.options check .compile) <;>
        cases quiet (compileSets path check rest) <;>
        simp [Except.bind, Except.map, eq_comm]
    rw [hstep, List.forall₂_cons_left_iff]
    refine ⟨?_, ?_⟩
    · rintro ⟨p, others, hp, hothers, rfl⟩
      obtain ⟨hcompile, hverify⟩ := quiet_compileChecked_eq_ok_iff.1 hp
      exact ⟨_, others, ⟨p, hcompile, hverify, rfl⟩, ih.1 hothers, rfl⟩
    · rintro ⟨_, others, ⟨p, hcompile, hverify, rfl⟩, hothers, rfl⟩
      exact ⟨p, others, quiet_compileChecked_eq_ok_iff.2 ⟨hcompile, hverify⟩, ih.2 hothers, rfl⟩

end CompileSets

end PrefixPattern
