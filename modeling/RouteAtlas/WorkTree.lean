import RouteAtlas.FileTree
import RouteAtlas.Text.Blank

/-!
# Work trees

The top of the version-controlled tree that a directory is in: the nearest directory at or above it
whose `.git` is a repository, or a file that names one.  Inside a repository itself there is none.
-/

set_option autoImplicit false

namespace RouteAtlas.WorkTree

/-- Whether a head names a branch, by text or as a link, or a commit. -/
def isHead (t : FileTree) (p : FilePath) : Bool :=
  match t.top.at? (t.ownPlace p) with
  | some (.link target) => target.startsWith "refs/"
  | _ =>
    match t.readText p with
    | .error _ => false
    | .ok text =>
      let cs := text.toList
      if "ref:".toList.isPrefixOf cs then
        "refs/".toList.isPrefixOf ((cs.drop 4).dropWhile Text.isBlank)
      else 40 ≤ cs.length && (cs.take 40).all fun c =>
        c.isDigit || ('a' ≤ c && c ≤ 'f') || ('A' ≤ c && c ≤ 'F')

/-- Whether a directory is a repository. -/
def isRepository (t : FileTree) (dir : FilePath) : Bool :=
  isHead t (dir.join "HEAD") && t.isDirectory (dir.join "objects") && t.isDirectory (dir.join "refs")

/-- The repository that the text of a `.git` file names. -/
def namedRepository? (dir : FilePath) (text : String) : Option FilePath :=
  let cs := text.toList
  if "gitdir: ".toList.isPrefixOf cs then
    let named := Text.dropTrailing (fun c => c = '\n' || c = '\r') (cs.drop 8)
    if named.isEmpty then none else some (dir.join (String.ofList named))
  else none

/-- What a directory says about the question, if it says anything: that it is the top, or that there
is no top. -/
def verdict? (t : FileTree) (dir : FilePath) : Option (Option FilePath) :=
  let git := dir.join ".git"
  match t.entry git with
  | .ok (.file content _) =>
    let repository := (String.fromUTF8? content).bind (namedRepository? dir)
    some (if repository.any (isRepository t) then some dir else none)
  | _ =>
    if isRepository t git then some (some dir)
    else if isRepository t dir then some none
    else none

/-- The top of the work tree that a directory is in, the directory given by its place. -/
def top? (t : FileTree) (place : List String) : Option FilePath :=
  let above := (List.range (place.length + 1)).map fun i =>
    FileTree.pathOf (place.take (place.length - i))
  (above.findSome? (verdict? t)).join

end RouteAtlas.WorkTree
