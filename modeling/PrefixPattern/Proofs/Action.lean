import PrefixPattern.Action

/-!
# What actions do

An action is put together from others that come one behind the other, and so is what can be said of
it: what it does is what they do, in the same order, up to the first that fails.

## What is here

* `Action.quiet` — what an action yields, or else the exit code that it leads to;
  `Action.quiet_bind` puts two of them together.
* `Action.Does P Q` — all effects have the property `P`, and all errors the property `Q`;
  `Action.Does.bind` keeps it from one action to the next.
* `Action.forM_eq` — actions that never fail, for all elements of a list.
* `Effect.IsEvent`, `Effect.IsRemark` — what is logged, and what is logged or warned about;
  `Warning.effects` is what a warning does.
-/

set_option autoImplicit false

namespace PrefixPattern

/-! ## Kinds of effects -/

namespace Effect

/-- Something is logged. -/
def IsEvent (e : Effect) : Prop :=
  ∃ event, e = tell (.event event)

/-- Something is logged or warned about, but nothing is printed, and no failure is told. -/
def IsRemark (e : Effect) : Prop :=
  e.IsEvent ∨ ∃ path w, e = tell (.warning path w)

theorem isEvent_event (event : Log.Event) : IsEvent (tell (.event event)) :=
  ⟨event, rfl⟩

/-- A remark is told and not printed. -/
theorem IsRemark.exists_notice {e : Effect} (h : e.IsRemark) : ∃ n, e = tell n := by
  obtain ⟨event, rfl⟩ | ⟨path, w, rfl⟩ := h
  · exact ⟨_, rfl⟩
  · exact ⟨_, rfl⟩

theorem IsRemark.ne_failure {e : Effect} (h : e.IsRemark) (error : Error) :
    e ≠ tell (.failure error) := by
  obtain ⟨event, rfl⟩ | ⟨path, w, rfl⟩ := h
  · simp
  · simp

end Effect

/-- What is done for a warning about the file at a path: it is logged, and then it is told. -/
def Warning.effects (path : String) (w : Warning) : List Effect :=
  [.tell (.event w.event), .tell (.warning path w)]

theorem Warning.isRemark_of_mem {path : String} {w : Warning} {e : Effect}
    (h : e ∈ w.effects path) : e.IsRemark := by
  obtain rfl | rfl : e = .tell (.event w.event) ∨ e = .tell (.warning path w) := by
    simpa [effects] using h
  · exact .inl ⟨_, rfl⟩
  · exact .inr ⟨_, _, rfl⟩

/-- Errors that are worded in another way are still errors. -/
theorem mapError_eq_ok_iff {α ε ε' : Type} {r : Except ε α} {f : ε → ε'} {a : α} :
    r.mapError f = .ok a ↔ r = .ok a := by
  cases r with
  | ok b => exact ⟨fun h => congrArg _ (Except.ok.inj h), fun h => congrArg _ (Except.ok.inj h)⟩
  | error e => exact ⟨nofun, nofun⟩

theorem mapError_eq_error_iff {α ε ε' : Type} {r : Except ε α} {f : ε → ε'} {e' : ε'} :
    r.mapError f = .error e' ↔ ∃ e, r = .error e ∧ f e = e' := by
  cases r with
  | ok a => exact ⟨nofun, fun ⟨_, h, _⟩ => nomatch h⟩
  | error e =>
    refine ⟨fun h => ⟨e, rfl, Except.error.inj h⟩, ?_⟩
    rintro ⟨_, ⟨⟩, rfl⟩
    rfl

namespace Action

variable {α β : Type} {x : Action α} {f : α → Action β}

/-! ## What actions lead to -/

/-- What an action yields, or the exit code of its error. -/
def quiet (x : Action α) : Except ExitCode α :=
  x.result.mapError Error.exitCode

theorem quiet_eq_ok_iff {a : α} : quiet x = .ok a ↔ x.result = .ok a :=
  mapError_eq_ok_iff

/-- **What one action behind the other leads to** is decided by the first that fails. -/
theorem quiet_bind (x : Action α) (f : α → Action β) :
    quiet (x >>= f) = (quiet x).bind fun a => quiet (f a) := by
  cases h : x.result with
  | ok a =>
    rw [bind_of_ok h, quiet, quiet, h]
    rfl
  | error e =>
    rw [bind_of_error h, quiet, quiet, h]
    rfl

@[simp] theorem quiet_pure (a : α) : quiet (pure a) = .ok a := rfl

@[simp] theorem quiet_ofExcept (r : Except Error α) :
    quiet (ofExcept r) = r.mapError Error.exitCode := rfl

/-- An action that comes to nothing by itself decides nothing. -/
theorem quiet_bind_of_ok {a : α} (h : quiet x = .ok a) (f : α → Action β) :
    quiet (x >>= f) = quiet (f a) := by
  rw [quiet_bind, h]
  rfl

/-- What an action yields comes with the warnings in it. -/
theorem withWarnings_eq_ok_iff {a : α} {warnings : List Warning} :
    x.withWarnings = .ok (a, warnings) ↔
      x.result = .ok a ∧ x.warnings.map Prod.snd = warnings := by
  rw [withWarnings]
  cases x.result <;> simp [Except.map]

/-! ## What is done behind an action -/

/-- Behind what one action does there is nothing but what the next one does. -/
theorem exists_trace_bind (x : Action α) (f : α → Action β) :
    ∃ more, (x >>= f).trace = x.trace ++ more ∧ ∀ e ∈ more, ∃ a, e ∈ (f a).trace := by
  cases h : x.result with
  | ok a => exact ⟨(f a).trace, by rw [bind_of_ok h], fun e he => ⟨a, he⟩⟩
  | error e => exact ⟨[], by rw [bind_of_error h, List.append_nil], List.forall_mem_nil _⟩

/-! ## Actions for the elements of a list -/

/-- Actions that never fail do what each of them does, one behind the other. -/
theorem forM_eq {f : α → Action Unit} {g : α → List Effect} (l : List α)
    (h : ∀ a ∈ l, f a = ⟨g a, .ok ()⟩) : l.forM f = ⟨l.flatMap g, .ok ()⟩ := by
  induction l with
  | nil => rfl
  | cons a l ih =>
    obtain ⟨ha, hl⟩ := List.forall_mem_cons.1 h
    change f a >>= (fun _ => l.forM f) = _
    rw [ha, ih hl]
    rfl

theorem warn_eq (path : String) (w : Warning) : warn path w = ⟨w.effects path, .ok ()⟩ := rfl

/-! ## Properties of all effects and of all errors -/

/-- All effects of the action have one property, and all errors that it can end with another. -/
structure Does (P : Effect → Prop) (Q : Error → Prop) (x : Action α) : Prop where
  of_mem : ∀ e ∈ x.trace, P e
  of_error : ∀ e, x.result = .error e → Q e

variable {P P' : Effect → Prop} {Q Q' : Error → Prop}

theorem Does.mono (h : x.Does P Q) (hP : ∀ e, P e → P' e) (hQ : ∀ e, Q e → Q' e) :
    x.Does P' Q' where
  of_mem e he := hP e (h.of_mem e he)
  of_error e he := hQ e (h.of_error e he)

theorem does_pure (a : α) : (pure a : Action α).Does P Q where
  of_mem := List.forall_mem_nil _
  of_error _ h := by cases h

theorem does_tell {n : Notice} (h : P (.tell n)) : (tell n).Does P Q where
  of_mem := List.forall_mem_singleton.2 h
  of_error _ h := by cases h

theorem does_fail {e : Error} (h : Q e) : (fail e : Action α).Does P Q where
  of_mem := List.forall_mem_nil _
  of_error _ he := Except.error.inj he ▸ h

theorem does_ofExcept {r : Except Error α} (h : ∀ e, r = .error e → Q e) :
    (ofExcept r).Does P Q where
  of_mem := List.forall_mem_nil _
  of_error := h

/-- **One action behind the other** does what both do, and fails as one of them fails. -/
theorem Does.bind (hx : x.Does P Q) (hf : ∀ a, x.result = .ok a → (f a).Does P Q) :
    (x >>= f).Does P Q := by
  cases h : x.result with
  | ok a =>
    have ha := hf a h
    rw [bind_of_ok h]
    exact ⟨List.forall_mem_append.2 ⟨hx.of_mem, ha.of_mem⟩, ha.of_error⟩
  | error e =>
    rw [bind_of_error h]
    refine ⟨hx.of_mem, fun e' he' => ?_⟩
    obtain rfl := Except.error.inj he'
    exact hx.of_error e h

theorem does_forM {f : α → Action Unit} {l : List α} (h : ∀ a ∈ l, (f a).Does P Q) :
    (l.forM f).Does P Q := by
  induction l with
  | nil => exact does_pure ()
  | cons a l ih =>
    obtain ⟨ha, hl⟩ := List.forall_mem_cons.1 h
    exact ha.bind fun _ _ => ih hl

end Action
end PrefixPattern
