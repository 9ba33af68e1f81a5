import RouteAtlas.CommandLine.Report

/-!
# The command

Reads the files that a request is about into a tree, asks for the report and prints it.  Of what is
above the working directory only the repositories are read; a file that cannot be read is left out.
-/

set_option autoImplicit false

namespace RouteAtlas.Command

/-- What is at a path: a file, a directory with all below it, or a link with the path it leads to. -/
partial def load (e : IO.FS.DirEntry) : IO (Option Entry) := do
  try
    match (← e.path.symlinkMetadata).type with
    | .dir =>
      let mut entries := []
      for inner in ← e.path.readDir do
        if let some found ← load inner then
          entries := (inner.fileName, found) :: entries
      return some (.directory (entries.mergeSort fun a b => a.1 ≤ b.1))
    | .symlink => return some (.link (← IO.FS.realPath e.path).toString)
    | _ =>
      let content ← IO.FS.readBinFile e.path
      return some (.file content (content.toList.take 2 = "#!".toUTF8.toList))
  catch _ => return none

/-- The names of an absolute path, and the path as the last of its directory's entries. -/
def locate (path : String) : List String × IO.FS.DirEntry :=
  let names := (FilePath.mk path).location.names
  (names, ⟨(FileTree.pathOf names.dropLast).text, names.getLast?.getD ""⟩)

/-- The tree with what is at an absolute path, and for a link with what it leads to. -/
def withLoaded (t : FileTree) (path : String) : IO FileTree := do
  let (names, e) := locate path
  let put (names : List String) (e : Entry) (t : FileTree) := { t with top := e.put names t.top }
  match ← load e with
  | none => return t
  | some (.link target) =>
    let (behind, e) := locate target
    return put names (.link target) (((← load e).map fun e => put behind e t).getD t)
  | some e => return put names e t

/-- The tree in which an absolute path leads somewhere if it does so outside. -/
def withPresence (t : FileTree) (path : String) : IO FileTree := do
  let (names, e) := locate path
  if ← e.path.isDir then return t.makeDirectory (FileTree.pathOf names)
  else if ← e.path.pathExists then return t.write (FileTree.pathOf names) ByteArray.empty false
  else return t

/-- The tree with the repositories in the directories at and above a place, as far as they tell where
a work tree begins. -/
def withRepositories (t : FileTree) (place : List String) : IO FileTree := do
  let mut t := t
  for i in List.range (place.length + 1) do
    let git := (FileTree.pathOf (place.take i ++ [".git"])).text
    t ← withLoaded t (git ++ "/HEAD")
    for part in ["/objects", "/refs"] do
      t ← withPresence t (git ++ part)
  return t

end RouteAtlas.Command

open RouteAtlas in
def main (args : List String) : IO UInt32 := do
  let here := (FilePath.mk (← IO.currentDir).toString).location.names
  let binary ← IO.getEnv Options.binaryVariable
  let timeout ← IO.getEnv Options.timeoutVariable
  let env (name : String) : Option String :=
    if name = Options.binaryVariable then binary
    else if name = Options.timeoutVariable then timeout else none
  let mut t : FileTree := { FileTree.empty with workingDirectory := here }
  t := t.makeDirectory (FileTree.pathOf here)
  t ← Command.withRepositories t here
  for arg in args.filter (·.startsWith "/") do
    t ← Command.withPresence t arg
  if let .ok r := CommandLine.Request.ofArguments (fun arg => t.isThere ⟨arg⟩) args then
    let root := (CommandLine.Setting.ofRequest t env r).root
    t ← Command.withLoaded t ((FileTree.pathOf here).join root.text).text
  let report := CommandLine.report t env args
  IO.print report.output
  IO.eprint report.errors
  return UInt32.ofNat report.code
