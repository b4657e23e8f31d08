import PrefixPattern.CommandLine.Help
import PrefixPattern.Config.Warning
import PrefixPattern.Error
import PrefixPattern.Log.Filter

/-!
# Actions: what a part of a run does

A part of a run does things that can be seen: it tells something on the standard error or prints
something on the standard output, again and again and in any order.  In the end it yields a value or
fails with an error.  What it did before it failed has been done all the same.

## What is here

* `Notice`, `Output`, `Effect` — what is told, what is printed, and one thing of either kind.
* `Action` — effects in their order, and what they lead to.  Actions are put one behind the other
  with `do`, and the first that fails is the last.
* `Action.tell`, `Action.print`, `Action.warn`, `Action.fail`, `Action.ofExcept` — the actions that
  all others are made of.
* `Action.warnings`, `Action.withWarnings` — what an action warns about.
* `Effect.onError`, `Effect.onOutput` — the text of an effect on either stream.
-/

set_option autoImplicit false

namespace PrefixPattern

/-! ## Effects -/

/-- What is told on the way. -/
inductive Notice where
  | event (e : Log.Event)
  | warning (path : String) (w : Warning)
  | failure (e : Error)
  | usage (fault : UsageFault)
  deriving DecidableEq, Repr

/-- What is printed. -/
inductive Output where
  | help (topic : Option CommandName)
  | version (topic : Option CommandName)
  | text (s : String)
  deriving DecidableEq, Repr

/-- Something that can be seen of a run. -/
inductive Effect where
  /-- on the standard error -/
  | tell (n : Notice)
  /-- on the standard output -/
  | print (o : Output)
  deriving DecidableEq, Repr

/-- The text of a notice, with errors worded by a function. -/
def Notice.render (filter : Log.Filter) (wording : Error → String) : Notice → String
  | event e => if filter.shows e then e.line ++ "\n" else ""
  | warning path w => w.message path ++ "\n"
  | failure e => "routeset: " ++ wording e ++ "\n"
  | usage fault => fault.message ++ "\n\nFor more information, try '--help'.\n"

/-- The text of an output. -/
def Output.render : Output → String
  | help topic => helpText topic
  | version topic => versionText topic
  | text s => s

/-- Several outputs as one, if there are any: texts that are printed one behind the other are one
text. -/
def Output.join? : List Output → Option Output
  | [] => none
  | [o] => some o
  | outputs => some (.text (String.join (outputs.map render)))

namespace Effect

/-- What is told, if this is on the standard error. -/
def notice? : Effect → Option Notice
  | tell n => some n
  | print _ => none

/-- What is printed, if this is on the standard output. -/
def output? : Effect → Option Output
  | tell _ => none
  | print o => some o

/-- The warning that is told, with the path that it names. -/
def warning? : Effect → Option (String × Warning)
  | tell (.warning path w) => some (path, w)
  | _ => none

/-- The text of an effect on the standard error, where the filter selects what is logged. -/
def onError (filter : Log.Filter) : Effect → String
  | tell n => n.render filter Error.message
  | print _ => ""

/-- The text of an effect on the standard output. -/
def onOutput : Effect → String
  | tell _ => ""
  | print o => o.render

end Effect

/-! ## Actions -/

/-- A part of a run: what it does to be seen, in order, and what it yields or the error that it ends
with. -/
structure Action (α : Type) where
  trace : List Effect
  result : Except Error α

namespace Action

variable {α β : Type}

/-- Do nothing, and yield a value. -/
def yield (a : α) : Action α := ⟨[], .ok a⟩

/-- Do one thing and then what its value leads to, unless it fails. -/
def andThen (x : Action α) (f : α → Action β) : Action β :=
  match x.result with
  | .ok a => ⟨x.trace ++ (f a).trace, (f a).result⟩
  | .error e => ⟨x.trace, .error e⟩

instance : Monad Action where
  pure := yield
  bind := andThen

/-- Tell something. -/
def tell (n : Notice) : Action Unit := ⟨[.tell n], .ok ()⟩

/-- Print something. -/
def print (o : Output) : Action Unit := ⟨[.print o], .ok ()⟩

/-- Fail at once. -/
def fail (e : Error) : Action α := ⟨[], .error e⟩

/-- Yield what is there, or fail. -/
def ofExcept (r : Except Error α) : Action α := ⟨[], r⟩

/-- Warn about the file at a path: the warning is logged, and then it is told. -/
def warn (path : String) (w : Warning) : Action Unit := do
  tell (.event w.event)
  tell (.warning path w)

/-- What an action warns about, with the paths that the warnings name. -/
def warnings (x : Action α) : List (String × Warning) :=
  x.trace.filterMap Effect.warning?

/-- What an action yields, and what it warns about on the way there. -/
def withWarnings (x : Action α) : Except Error (α × List Warning) :=
  x.result.map fun a => (a, x.warnings.map Prod.snd)

/-! ## One action behind the other -/

theorem bind_of_ok {x : Action α} {a : α} (h : x.result = .ok a) (f : α → Action β) :
    x >>= f = ⟨x.trace ++ (f a).trace, (f a).result⟩ := by
  change andThen x f = _
  rw [andThen, h]

theorem bind_of_error {x : Action α} {e : Error} (h : x.result = .error e) (f : α → Action β) :
    x >>= f = ⟨x.trace, .error e⟩ := by
  change andThen x f = _
  rw [andThen, h]

@[simp] theorem mk_bind (trace : List Effect) (a : α) (f : α → Action β) :
    (⟨trace, .ok a⟩ : Action α) >>= f = ⟨trace ++ (f a).trace, (f a).result⟩ :=
  bind_of_ok rfl f

@[simp] theorem pure_bind (a : α) (f : α → Action β) : pure a >>= f = f a :=
  bind_of_ok rfl f

end Action
end PrefixPattern
