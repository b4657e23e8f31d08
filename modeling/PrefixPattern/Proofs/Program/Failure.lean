import PrefixPattern.Proofs.Program.Selection

/-!
# Runs that fail

A run can fail in many places: its words may be no request, a file may not be there or not be text,
a configuration may be malformed, a set may not compile.  Wherever it fails, it has printed nothing
by then, since a command does all that can fail before it prints.  And one failure that is provided
for never happens: that a compiled pattern missed some of its own strings.

## What is here

* `Outcome.never_missed_of_does` — a command does not end with a failed verification if none of its
  errors is one.
* `run_never_missed` — no run ends with a failed verification.
* `Outcome.Ends` — what can be seen of a run from its beginning to its end: all that it tells comes
  first, and what it prints comes only behind it and with success.
* `Outcome.ends_of_does` — a command ends so if it only remarks on things before it prints.
* `run_prints_nothing` — a run that fails prints nothing, wherever it fails.
-/

set_option autoImplicit false

namespace PrefixPattern

/-! ## No pattern misses its own strings -/

/-- The only error with the exit code of a failed verification is one. -/
theorem Error.isMiss_of_exitCode_eq_verifyFailed {e : Error} (h : e.exitCode = .verifyFailed) :
    e.IsMiss := by
  cases e with
  | verify missed => trivial
  | _ => cases h

namespace Outcome

theorem mem_notices_iff {o : Outcome} {n : Notice} : n ∈ o.notices ↔ .tell n ∈ o.trace := by
  rw [notices, List.mem_filterMap]
  refine ⟨?_, fun h => ⟨_, h, rfl⟩⟩
  rintro ⟨_ | _, he, hn⟩
  · obtain rfl := Option.some.inj hn
    exact he
  · cases hn

/-- A command whose errors are not misses, and that only remarks on things before it prints, does
not end with a failed verification. -/
theorem never_missed_of_does {α : Type} {x : Action α}
    (hx : x.Does Effect.IsRemark fun e => ¬e.IsMiss) (f : α → List String) :
    (ofAction (x >>= fun a => printAll (f a))).exit ≠ .verifyFailed ∧
      ∀ missed, .failure (.verify missed) ∉ (ofAction (x >>= fun a => printAll (f a))).notices := by
  have hremarks : ∀ missed, .tell (.failure (.verify missed)) ∉ x.trace := fun missed hmem =>
    (hx.of_mem _ hmem).ne_failure _ rfl
  simp only [mem_notices_iff, trace_of_result]
  cases h : x.result with
  | ok a => exact ⟨by simp, fun missed => by simpa using hremarks missed⟩
  | error e =>
    refine ⟨fun hexit => hx.of_error e h (Error.isMiss_of_exitCode_eq_verifyFailed hexit),
      fun missed hmem => ?_⟩
    obtain hmem | heq := List.mem_append.1 hmem
    · exact hremarks missed hmem
    · obtain rfl : Error.verify missed = e := by simpa using heq
      exact hx.of_error _ h trivial

end Outcome

theorem ExitCode.toNat_mem {c : ExitCode} (h : c ≠ .verifyFailed) : c.toNat ∈ [0, 2, 3] := by
  cases c with
  | verifyFailed => exact absurd rfl h
  | _ => decide

/-- **No run ends with a failed verification.**  Whatever the program is given, it does not report
that a pattern missed some strings, and its exit code is 0, 2 or 3. -/
theorem run_never_missed (s : Surroundings) :
    (∀ missed, .failure (.verify missed) ∉ (run s).notices) ∧
      (run s).exit ≠ .verifyFailed ∧ (run s).exit.toNat ∈ [0, 2, 3] := by
  obtain ⟨hexit, hnotices⟩ : (run s).exit ≠ .verifyFailed ∧
      ∀ missed, .failure (.verify missed) ∉ (run s).notices := by
    rw [run]
    split
    · rename_i i _
      cases i <;> simp [Outcome.ofInterruption, Outcome.mem_notices_iff]
    · simp [Outcome.mem_notices_iff]
    · exact Outcome.never_missed_of_does (does_compileStrings _ _ _) _
    · exact Outcome.never_missed_of_does (does_buildSets _ _ _ _) _
  exact ⟨hnotices, hexit, ExitCode.toNat_mem hexit⟩

/-! ## Nothing is printed before a failure -/

namespace Outcome

/-- What can be seen of a run from its beginning to its end: it tells all that it has to tell, and
then it either prints and succeeds or ends with a failure. -/
inductive Ends : Outcome → Prop where
  | success (told : List Notice) (printed : List Output) :
    Ends ⟨.success, told.map .tell ++ printed.map .print⟩
  | failure (told : List Notice) {code : ExitCode} (hcode : code ≠ .success) :
    Ends ⟨code, told.map .tell⟩

/-- **A command prints in the end.**  All that it does before is to remark on things, and if this
fails, it tells so and prints nothing. -/
theorem ends_of_does {α : Type} {x : Action α} {Q : Error → Prop}
    (hx : x.Does Effect.IsRemark Q) (f : α → List String) :
    (ofAction (x >>= fun a => printAll (f a))).Ends := by
  obtain ⟨told, htold⟩ := exists_map_tell hx.of_mem
  rw [trace_of_result, htold]
  cases x.result with
  | ok a =>
    have hends := Ends.success told ((f a).map .text)
    rwa [List.map_map] at hends
  | error e =>
    have hends := Ends.failure (told ++ [.failure e]) e.exitCode_ne_success
    rwa [List.map_append] at hends

theorem ends_run (s : Surroundings) : (run s).Ends := by
  rw [run]
  split
  · rename_i i _
    cases i with
    | help topic => exact .success [] [.help topic]
    | version topic => exact .success [] [.version topic]
    | usage fault => exact .failure [.usage fault] (by simp)
  · exact .success [] [.help none]
  · exact ends_of_does (does_compileStrings _ _ _) _
  · exact ends_of_does (does_buildSets _ _ _ _) _

theorem Ends.exists_told {o : Outcome} (h : o.Ends) :
    ∃ (told : List Notice) (printed : List Output),
      o.trace = told.map .tell ++ printed.map .print ∧ (printed ≠ [] → o.exit = .success) := by
  cases h with
  | success told printed => exact ⟨told, printed, rfl, fun _ => rfl⟩
  | failure told _ => exact ⟨told, [], (List.append_nil _).symm, fun h => absurd rfl h⟩

/-- What ends with a failure has nothing printed in it. -/
theorem Ends.silent {o : Outcome} (h : o.Ends) (hexit : o.exit ≠ .success) :
    (∀ output, .print output ∉ o.trace) ∧ o.printed = "" := by
  cases h with
  | success told printed => exact absurd rfl hexit
  | failure told _ => exact ⟨by simp, join_onOutput_tell told⟩

end Outcome

theorem ExitCode.toNat_eq_zero_iff {c : ExitCode} : c.toNat = 0 ↔ c = .success := by
  cases c <;> simp [toNat]

/-- A request for strings of which some cannot be read ends with the error, and nothing has been
compiled by then. -/
theorem run_eq_of_readMembers_eq_error {s : Surroundings} {requested : Option String}
    {args : CompileArgs} {source : String} {e : Error}
    (hparse : CommandLine.parse s.words s.config = .ok ⟨requested, some (.compile args)⟩)
    (hsource : args.source = some source) (hread : readMembers s.files s.stdin source = .error e) :
    run s = ⟨.internalError, [.tell (.failure e)]⟩ := by
  have hgather : gatherStrings s.files s.stdin args = .error e := by
    rw [gatherStrings, hsource]
    simp only [hread]
  obtain ⟨fault, rfl⟩ := exists_of_readMembers_eq_error hread
  rw [run, hparse]
  simp only [runCompile, compileStrings, hgather]
  rfl

/-- **A run that fails prints nothing.**  Whatever is told is told before anything is printed, and
only a run that succeeds gets to print.  This is so wherever a run fails: where one of the selected
sets does not pass, none is printed, and where strings cannot be read to their end, the run does
nothing but tell of this error. -/
theorem run_prints_nothing (s : Surroundings) :
    (∃ (told : List Notice) (printed : List Output),
      (run s).trace = told.map .tell ++ printed.map .print ∧
        (printed ≠ [] → (run s).exit = .success)) ∧
      ((run s).exit.toNat ≠ 0 →
        (∀ output, .print output ∉ (run s).trace) ∧ (run s).printed = "") ∧
      (∀ args config name set, s.Builds args config → args.Selects name →
        config.sets.find? name = some set → ¬ set.Passes args.verify →
          (run s).exit.toNat ≠ 0 ∧ (∀ output, .print output ∉ (run s).trace) ∧
            (run s).printed = "") ∧
      ∀ requested args source e,
        CommandLine.parse s.words s.config = .ok ⟨requested, some (.compile args)⟩ →
        args.source = some source → readMembers s.files s.stdin source = .error e →
          run s = ⟨.internalError, [.tell (.failure e)]⟩ ∧ (run s).printed = "" := by
  have hends := Outcome.ends_run s
  have hsilent : (run s).exit ≠ .success →
      (∀ output, .print output ∉ (run s).trace) ∧ (run s).printed = "" := hends.silent
  refine ⟨hends.exists_told, fun hexit => hsilent (mt ExitCode.toNat_eq_zero_iff.2 hexit), ?_, ?_⟩
  · intro args config name set hbuilds hname hset hfails
    have hexit : (run s).exit ≠ .success := fun hsuccess =>
      hfails ((hbuilds.exit_eq_success_iff (hbuilds.known_of_success hsuccess)).1 hsuccess
        name set hname hset)
    exact ⟨mt ExitCode.toNat_eq_zero_iff.1 hexit, hsilent hexit⟩
  · intro requested args source e hparse hsource hread
    have hrun := run_eq_of_readMembers_eq_error hparse hsource hread
    exact ⟨hrun, by rw [hrun]; rfl⟩

/-- Of two sets the second has an empty string in it, and of three lines the second is not text. -/
theorem run_prints_nothing_midway :
    let s := Surroundings.beside ["build"]
      "version = 1\nsets.a.members = [\"x\"]\nsets.b.members = [\"y\", \"\"]\n"
      fun _ => .error .notFound
    let s' := Surroundings.beside ["compile", "--from=list", "x"] ""
      fun path => if path = "list" then .ok (.file ⟨#[97, 10, 255, 10, 98]⟩) else .error .notFound
    (run s).exit.toNat ≠ 0 ∧ (∀ output, .print output ∉ (run s).trace) ∧ (run s).printed = "" ∧
      run s' = ⟨.internalError, [.tell (.failure (.io "list" .invalidUtf8))]⟩ ∧
      (run s').exit.toNat ≠ 0 ∧ (run s').printed = "" := by
  intro s s'
  have hbuilds : s.Builds ⟨[], false, .text⟩
      ⟨1, [("a", ⟨["x"], false, false⟩), ("b", ⟨["y", ""], false, false⟩)]⟩ :=
    Surroundings.builds_beside (by decide +kernel) (by cbv)
  have hfails : ¬ SetConfig.Passes false ⟨["y", ""], false, false⟩ := by
    rintro ⟨p, hp, -⟩
    cases hp
  obtain ⟨hexit, hnothing, hprinted⟩ :=
    (run_prints_nothing s).2.2.1 _ _ "b" _ hbuilds (Or.inl rfl) rfl hfails
  have hparse : CommandLine.parse s'.words s'.config =
      .ok ⟨none, some (.compile ⟨["x"], some "list", false, false, false, .text⟩)⟩ := by
    decide +kernel
  have hread : readMembers s'.files s'.stdin "list" = .error (.io "list" .invalidUtf8) := by
    decide +kernel
  obtain ⟨hrun, hprinted'⟩ := (run_prints_nothing s').2.2.2 _ _ "list" _ hparse rfl hread
  have hexit' : (run s').exit.toNat ≠ 0 := by
    rw [hrun]
    decide
  exact ⟨hexit, hnothing, hprinted, hrun, hexit', hprinted'⟩

end PrefixPattern
