import PrefixPattern.Config.Basic
import PrefixPattern.Files
import PrefixPattern.Path

/-!
# Finding the configuration

Without a path of its own, a configuration is looked for in a directory and in all directories above
it as the path is written, the nearest first.  A directory that holds an entry `.git` is the last
one.

## What is here

* `findConfig` — the search.
* `resolveConfig` — a path that was asked for, or the search.
* `Config.load` — reading the configuration at a path; `loadConfig` is what it yields, together with
  its warnings.
-/

set_option autoImplicit false

namespace PrefixPattern

/-- The first of the directories that holds a configuration, up to the first that holds `.git`. -/
def findAmong (files : Files) : List String → Option String
  | [] => none
  | directory :: rest =>
    let candidate := Path.join directory configFileName
    if files.isFile candidate then some candidate
    else if files.exists (Path.join directory ".git") then none
    else findAmong files rest

/-- The configuration for a directory. -/
def findConfig (files : Files) (directory : String) : Option String :=
  findAmong files (Path.ancestors directory)

/-- The configuration that was asked for, which has to exist, or else the one for a directory. -/
def resolveConfig (files : Files) (requested : Option String) (directory : String) :
    Except Error (Option String) :=
  match requested with
  | none => .ok (findConfig files directory)
  | some path =>
    if files.exists path then .ok (some path)
    else .error (.config (.fileNotFound path) (some path))

/-- The event of a search. -/
def discoveryEvents (requested found : Option String) : List Log.Event :=
  match requested, found with
  | none, some path => [.foundConfig path]
  | _, _ => []

/-- Read the configuration at a path. -/
def Config.load (files : Files) (path : String) : Action Config := do
  let content ← .ofExcept (files.readText path)
  read content path

/-- The configuration at a path, with all warnings. -/
def loadConfig (files : Files) (path : String) : Except Error (Config × List Warning) :=
  (Config.load files path).withWarnings

end PrefixPattern
