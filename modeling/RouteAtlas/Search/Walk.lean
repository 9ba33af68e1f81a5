import RouteAtlas.FileTree
import RouteAtlas.Glob
import RouteAtlas.Search.Content

/-!
# Searching by walking a directory

The regular files below a root, found without any other program.  Links are not followed, hidden
directories are not entered, and neither is a directory in which a file called `_` would be
excluded.  Globs see paths relative to the root.
-/

set_option autoImplicit false

namespace RouteAtlas.Search

/-- A regular file met on a walk. -/
structure Walk.Met where
  path : FilePath
  /-- The path from the root. -/
  relative : String
  content : ByteArray
  deriving Inhabited

namespace Walk

/-- A path from the root in the form that globs see. -/
def posix (relative : String) : String := (FilePath.mk relative).posixText

mutual

/-- The files of one entry of a directory: the entry itself, or those below it when it may be
entered. -/
def metAt (enter : String → String → Bool) (path : FilePath) (relative name : String) :
    Entry → List Met
  | .file content _ => [⟨path, relative, content⟩]
  | .directory entries =>
    if enter name relative then metBelow enter path (relative ++ "/") entries else []
  | .link _ => []

/-- The files of the entries of a directory. -/
def metBelow (enter : String → String → Bool) (dir : FilePath) (above : String) :
    List (String × Entry) → List Met
  | [] => []
  | (name, e) :: rest =>
    metAt enter (dir.join name) (above ++ name) name e ++ metBelow enter dir above rest

end

/-- Whether a walk enters a directory. -/
def mayEnter (exclude : List Glob) (name relative : String) : Bool :=
  !name.startsWith "." && !Glob.anyMatch exclude (posix relative ++ "/_")

/-- The files met from a root.  A root that is a link is followed to a directory only. -/
def metFrom (t : FileTree) (exclude : List Glob) (root : FilePath) : List Met :=
  match t.entry root with
  | .ok (.directory entries) => metBelow (mayEnter exclude) root "" entries
  | .ok (.file content _) => if t.isLink root then [] else [⟨root, "", content⟩]
  | _ => []

/-- Whether a file counts by its path. -/
def counts (including exclude : List Glob) (relative : String) : Bool :=
  let p := posix relative
  (including.isEmpty || Glob.anyMatch including p) && !Glob.anyMatch exclude p

/-- Whether the contents of a file are text and match. -/
def holds (needles : List Needle) (content : ByteArray) : Bool :=
  (String.fromUTF8? content).any (Needle.anyIn needles)

/-- The files that a walk finds, in path order. -/
def search (t : FileTree) (q : Query) : Except Failure (List FilePath) :=
  if q.patterns.isEmpty then .ok []
  else
    match q.includeGlobs.mapM Glob.parse?, q.excludeGlobs.mapM Glob.parse?, Needle.ofQuery? q with
    | none, _, _ => .error .invalidGlob
    | _, none, _ => .error .invalidGlob
    | _, _, none => .error .invalidPattern
    | some including, some exclude, some needles =>
      -- The root is met first, so no time at all is too little for any walk.
      if q.budget = 0 then .error (.timedOut 0)
      else
        let hits := (metFrom t exclude q.root).filter fun m =>
          counts including exclude m.relative && holds needles m.content
        .ok (FilePath.sort (hits.map Met.path))

end Walk

end RouteAtlas.Search
