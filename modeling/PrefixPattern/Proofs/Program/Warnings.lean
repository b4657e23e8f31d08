import PrefixPattern.Proofs.Program.Result

/-!
# What a run warns about

Warnings are about the keys of a configuration, so a run has none before it has read one, and none
while it compiles the sets.  All that it warns about is what it is told when the configuration is
read, and on the standard error there is nothing else besides, unless the run fails or the log is
shown.

## What is here

* `Warning.Says` — what is written of a warning; `Warning.says_render` ties this to the notice of it.
* `Effect.IsSilent` — what is not to be seen on the standard error while the log is not shown.
* `Outcome.warnings` — what a run warns about, with the paths that the warnings name.
* `Surroundings.Reads` — the run is a build, and this is the text that it finds.
* `Surroundings.Reads.exists_run_eq` — the run does what reading the text does, with something silent
  before and behind it, and tells of a failure if there is one.
* `Surroundings.Reads.exists_told` — what this comes to on the standard error.
-/

set_option autoImplicit false

namespace PrefixPattern

/-! ## The text of a warning -/

/-- What a warning about the file at a path says. -/
inductive Warning.Says (path : String) : Warning → String → Prop where
  | unknownKey (key : String) :
    Says path (.unknownKey key)
      ("routeset: warning: " ++ path ++ ": unrecognized field `" ++ key ++ "` (ignored)\n")
  | similarSetKey {set key known : String} (h : suggestSetKey? key = some known) :
    Says path (.unknownSetKey set key)
      ("routeset: warning: " ++ path ++ ": unknown key `" ++ key ++ "` in set `" ++ set ++
        "`. Did you mean `" ++ known ++ "`?\n")
  | unknownSetKey {set key : String} (h : suggestSetKey? key = none) :
    Says path (.unknownSetKey set key)
      ("routeset: warning: " ++ path ++ ": unknown key `" ++ key ++ "` in set `" ++ set ++
        "`\n  Valid keys: members, wrap, allow_empty\n")

/-- **The notice of a warning is what the warning says**, whatever is logged. -/
theorem Warning.says_render (path : String) (w : Warning) (filter : Log.Filter)
    (wording : Error → String) : w.Says path (Notice.render filter wording (.warning path w)) := by
  -- the ends of the lines are cut from the literals, so that both sides are made of the same parts
  change Says path w (w.message path ++ "\n")
  unfold message
  cases w with
  | unknownKey key =>
    have hend : "` (ignored)\n" = "` (ignored)" ++ "\n" := by decide
    have hsays : Says path (.unknownKey key) _ := .unknownKey key
    rw [hend, ← String.append_assoc] at hsays
    exact hsays
  | unknownSetKey set key =>
    cases hknown : suggestSetKey? key with
    | some known =>
      have hquestion : "`. Did you mean `" = "`" ++ ". Did you mean `" := by decide
      have hend : "`?\n" = "`?" ++ "\n" := by decide
      have hsays : Says path (.unknownSetKey set key) _ := .similarSetKey hknown
      rw [hquestion, hend] at hsays
      simp only [hknown, String.append_assoc] at hsays ⊢
      exact hsays
    | none =>
      have hend : "`\n  Valid keys: members, wrap, allow_empty\n" =
          "`" ++ ("\n  Valid keys: " ++ (", ".intercalate knownSetKeys ++ "\n")) := by decide
      have hsays : Says path (.unknownSetKey set key) _ := .unknownSetKey hknown
      rw [hend] at hsays
      simp only [hknown, String.append_assoc] at hsays ⊢
      exact hsays

/-- The texts of warnings that are logged and told, where the log is not shown. -/
theorem Warning.exists_texts (path : String) (warnings : List Warning) :
    ∃ texts, List.Forall₂ (Warning.Says path) warnings texts ∧
      String.join ((warnings.flatMap (Warning.effects path)).map (Effect.onError [])) =
        String.join texts := by
  induction warnings with
  | nil => exact ⟨[], .nil, rfl⟩
  | cons w rest ih =>
    obtain ⟨texts, htexts, hjoin⟩ := ih
    refine ⟨_, .cons (w.says_render path [] Error.message) htexts, ?_⟩
    rw [List.flatMap_cons, List.map_append, String.join_append, hjoin, String.join_cons]
    rfl

/-- Warnings that are logged and told are warned about once each. -/
theorem Warning.filterMap_effects (path : String) (warnings : List Warning) :
    (warnings.flatMap (Warning.effects path)).filterMap Effect.warning? =
      warnings.map fun w => (path, w) := by
  induction warnings with
  | nil => rfl
  | cons w rest ih =>
    rw [List.flatMap_cons, List.filterMap_append, ih]
    rfl

/-! ## What is not to be seen -/

namespace Effect

/-- Nothing of this is on the standard error while the log is not shown. -/
def IsSilent (e : Effect) : Prop :=
  e.IsEvent ∨ ∃ o, e = print o

theorem IsSilent.onError_eq {e : Effect} (h : e.IsSilent) : e.onError [] = "" := by
  obtain ⟨event, rfl⟩ | ⟨o, rfl⟩ := h <;> rfl

theorem IsSilent.warning?_eq {e : Effect} (h : e.IsSilent) : e.warning? = none := by
  obtain ⟨event, rfl⟩ | ⟨o, rfl⟩ := h <;> rfl

theorem join_onError_of_silent {trace : List Effect} (h : ∀ e ∈ trace, e.IsSilent) :
    String.join (trace.map (onError [])) = "" := by
  induction trace with
  | nil => rfl
  | cons e rest ih =>
    obtain ⟨he, hrest⟩ := List.forall_mem_cons.1 h
    rw [List.map_cons, String.join_cons, he.onError_eq, ih hrest]
    rfl

theorem filterMap_warning?_of_silent {trace : List Effect} (h : ∀ e ∈ trace, e.IsSilent) :
    trace.filterMap warning? = [] :=
  List.filterMap_eq_nil_iff.2 fun e he => (h e he).warning?_eq

end Effect

/-! ## Builds -/

/-- What a run warns about. -/
def Outcome.warnings (o : Outcome) : List (String × Warning) :=
  o.trace.filterMap Effect.warning?

/-- The command line asks for sets of a configuration, and this is the text at the path that is
found. -/
def Surroundings.Reads (s : Surroundings) (path content : String) : Prop :=
  ∃ requested args,
    CommandLine.parse s.words s.config = .ok ⟨requested, some (.build args)⟩ ∧
      resolveConfig s.files requested s.directory = .ok (some path) ∧
      s.files.readText path = .ok content

/-- Reading the configuration comes after the path is found, and compiling the sets comes after
that. -/
theorem exists_buildSets_eq {files : Files} {directory path content : String}
    {requested : Option String}
    (hresolve : resolveConfig files requested directory = .ok (some path))
    (hread : files.readText path = .ok content) (args : BuildArgs) :
    ∃ before, (∀ e ∈ before, e.IsEvent) ∧
      buildSets files directory requested args =
        ⟨before ++ (Config.read content path >>= (buildConfig path · args)).trace,
          (Config.read content path >>= (buildConfig path · args)).result⟩ := by
  have hload : Config.load files path = Config.read content path := by
    rw [Config.load, hread]
    rfl
  refine ⟨(discoveryEvents requested (some path)).map (fun e => .tell (.event e)) ++
    [.tell (.event (.loadingConfig path))], fun e he => ?_, ?_⟩
  · obtain he | he := List.mem_append.1 he
    · obtain ⟨event, -, rfl⟩ := List.mem_map.1 he
      exact Effect.isEvent_event event
    · obtain rfl := List.mem_singleton.1 he
      exact Effect.isEvent_event _
  · rw [buildSets, findPath_eq hresolve, Action.mk_bind, Action.tell, Action.mk_bind, hload,
      List.append_assoc]

variable {s : Surroundings} {path content : String}

/-- **A build does what reading its configuration does**, and nothing else of it is to be seen on the
standard error but a failure.  If the reading fails, this is the failure. -/
theorem Surroundings.Reads.exists_run_eq (h : s.Reads path content) :
    ∃ (before behind : List Effect) (failure : Option Error),
      (∀ e ∈ before, e.IsSilent) ∧ (∀ e ∈ behind, e.IsSilent) ∧
      run s = ⟨failure.elim .success Error.exitCode,
        before ++ (Config.read content path).trace ++ behind ++
          failure.toList.map fun e => .tell (.failure e)⟩ ∧
      ∀ e, (Config.read content path).result = .error e → failure = some e := by
  obtain ⟨requested, args, hwords, hfound, hread⟩ := h
  obtain ⟨before, hbefore, hbuild⟩ := exists_buildSets_eq hfound hread args
  obtain ⟨more, hmore, hevents⟩ :=
    Action.exists_trace_bind (Config.read content path) (buildConfig path · args)
  obtain ⟨texts, failure, hrun, herror⟩ := Outcome.exists_failure
    (buildSets s.files s.directory requested args) args.output.pieces
  have htrace : (buildSets s.files s.directory requested args).trace =
      before ++ ((Config.read content path).trace ++ more) := by
    rw [hbuild, hmore]
  refine ⟨before, more ++ texts.map .print, failure, fun e he => .inl (hbefore e he), ?_, ?_,
    fun e he => herror e ?_⟩
  · refine List.forall_mem_append.2 ⟨fun e he => ?_, List.forall_mem_map.2 fun o _ => .inr ⟨o, rfl⟩⟩
    obtain ⟨config, he⟩ := hevents e he
    exact .inl ((does_buildConfig path config args).of_mem e he)
  · rw [run, hwords]
    refine hrun.trans ?_
    rw [htrace]
    simp only [List.append_assoc]
  · rw [hbuild, Action.bind_of_error he]

/-- **What is told of a build** is what is told while its configuration is read, and the failure if
there is one. -/
theorem Surroundings.Reads.exists_told (h : s.Reads path content) :
    ∃ failure : Option Error,
      (run s).exit = failure.elim .success Error.exitCode ∧
      (run s).warnings = (Config.read content path).warnings ∧
      (run s).told [] =
        String.join ((Config.read content path).trace.map (Effect.onError [])) ++
          failure.elim "" (fun e => "routeset: " ++ e.message ++ "\n") ∧
      ∀ e, (Config.read content path).result = .error e → failure = some e := by
  obtain ⟨before, behind, failure, hbefore, hbehind, hrun, herror⟩ := h.exists_run_eq
  refine ⟨failure, by rw [hrun], ?_, ?_, herror⟩
  · have hfailure : (failure.toList.map fun e => Effect.tell (.failure e)).filterMap
        Effect.warning? = [] := by
      cases failure <;> rfl
    rw [hrun, Outcome.warnings, List.filterMap_append, List.filterMap_append,
      List.filterMap_append, Effect.filterMap_warning?_of_silent hbefore,
      Effect.filterMap_warning?_of_silent hbehind, hfailure, List.append_nil, List.append_nil]
    rfl
  · have hfailure : String.join ((failure.toList.map fun e => Effect.tell (.failure e)).map
        (Effect.onError [])) = failure.elim "" (fun e => "routeset: " ++ e.message ++ "\n") := by
      cases failure <;> simp [Effect.onError, Notice.render]
    rw [hrun, Outcome.told, List.map_append, List.map_append, List.map_append, String.join_append,
      String.join_append, String.join_append, Effect.join_onError_of_silent hbefore,
      Effect.join_onError_of_silent hbehind, hfailure, String.empty_append, String.append_empty]

end PrefixPattern
