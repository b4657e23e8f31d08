import PrefixPattern.Error

/-!
# Files

All that a run needs to know of a file system is what lies at a path: `Files`.  A `FileTree` is a
file system without links that gives these answers.

## What is here

* `Entry`, `Files` — what lies at a path, or why nothing does.
* `Files.isFile`, `Files.exists`, `Files.read` — the questions that are asked.
* `FileTree`, `FileTree.locate` — following a path component by component: a slash, a `.` and a `..`
  all need a directory in front of them.  Names and paths have a greatest length, in bytes.
* `FileTree.files` — the answers of a tree to paths from a current directory.
-/

set_option autoImplicit false

namespace PrefixPattern

/-- What lies at a path. -/
inductive Entry where
  | file (content : ByteArray)
  | directory

/-- What lies at every path. -/
abbrev Files := String → Except ReadFault Entry

namespace Files

/-- A regular file lies at the path. -/
def isFile (files : Files) (path : String) : Bool :=
  match files path with
  | .ok (.file _) => true
  | _ => false

/-- Something lies at the path. -/
def «exists» (files : Files) (path : String) : Bool :=
  match files path with
  | .ok _ => true
  | .error _ => false

/-- The content of the file at the path. -/
def read (files : Files) (path : String) : Except Error ByteArray :=
  match files path with
  | .ok (.file content) => .ok content
  | .ok .directory => .error (.io path .isDirectory)
  | .error fault => .error (.io path fault)

/-- The content of the file at the path, as text. -/
def readText (files : Files) (path : String) : Except Error String :=
  match files.read path with
  | .error e => .error e
  | .ok content =>
    match String.fromUTF8? content with
    | some text => .ok text
    | none => .error (.io path .invalidUtf8)

end Files

/-! ## Trees -/

/-- A file system without links. -/
inductive FileTree where
  | file (content : ByteArray)
  | directory (entries : List (String × FileTree))
  deriving Inhabited

namespace FileTree

/-- What lies at this place. -/
def entry : FileTree → Entry
  | file content => .file content
  | directory _ => .directory

/-- A place of a tree: the names on the way to it with what they name, the last first. -/
abbrev Place := List (String × FileTree)

/-- What lies at a place of the tree. -/
def «at» (root : FileTree) : Place → FileTree
  | [] => root
  | (_, t) :: _ => t

/-- The greatest length of a name. -/
def maxNameLength : Nat := 255

/-- The greatest length of a path. -/
def maxPathLength : Nat := 4095

/-- Follow one component of a path. -/
def follow (root : FileTree) (place : Place) (name : String) : Except ReadFault Place :=
  match root.at place with
  | .file _ => .error .notDirectory
  | .directory entries =>
    if name = "" ∨ name = "." then .ok place
    else if name = ".." then .ok place.tail
    else if maxNameLength < name.utf8ByteSize then .error .nameTooLong
    else
      match entries.lookup name with
      | some t => .ok ((name, t) :: place)
      | none => .error .notFound

/-- Follow the components of a path. -/
def followAll (root : FileTree) : Place → List String → Except ReadFault Place
  | place, [] => .ok place
  | place, name :: names =>
    match root.follow place name with
    | .ok next => followAll root next names
    | .error fault => .error fault

/-- The place that a path leads to from a current directory. -/
def locate (root : FileTree) (current : Place) (path : String) : Except ReadFault Place :=
  if '\x00' ∈ path.toList then .error .containsNul
  else if maxPathLength < path.utf8ByteSize then .error .nameTooLong
  else
    match (path.toList.splitOn '/').map String.ofList with
    | [""] => .error .notFound
    | "" :: names => root.followAll [] names
    | names => root.followAll current names

/-- What lies at the paths from a current directory. -/
def files (root : FileTree) (current : Place) : Files := fun path =>
  match root.locate current path with
  | .ok place => .ok (root.at place).entry
  | .error fault => .error fault

end FileTree
end PrefixPattern
