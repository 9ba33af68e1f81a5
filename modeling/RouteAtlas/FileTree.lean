import RouteAtlas.FilePath
import RouteAtlas.OsError

/-!
# File trees

The part of a file system that a run can see, as a value: directories, files with their bytes,
and symbolic links, together with the working directory against which relative paths are read.

Reaching a path follows it one step at a time from the top or from the working directory.  A step
needs a directory to stand in, `..` leaves a directory by its real parent, and a link is replaced by
its target; after forty links the walk gives up.  What is reached is named by its *place*, the
names from the top, in which no link and no `..` remains.

Writing never happens in place: `write` and `remove` answer a new tree.
-/

set_option autoImplicit false

namespace RouteAtlas

inductive Entry
  | file (content : ByteArray) (executable : Bool)
  | directory (entries : List (String × Entry))
  | link (target : String)
  deriving Inhabited

namespace Entry

def isFile : Entry → Bool
  | file .. => true
  | _ => false

def isDirectory : Entry → Bool
  | directory _ => true
  | _ => false

/-- The entry with a given name in a directory. -/
def child? : Entry → String → Option Entry
  | directory es, name => es.lookup name
  | _, _ => none

/-- Replaces or adds the entry called `name`, keeping names in order. -/
def putChild (name : String) (e : Entry) : List (String × Entry) → List (String × Entry)
  | [] => [(name, e)]
  | (n, e') :: rest =>
    if name < n then (name, e) :: (n, e') :: rest
    else if name = n then (name, e) :: rest
    else (n, e') :: putChild name e rest

/-- The entry found by following names alone, links not followed. -/
def at? : Entry → List String → Option Entry
  | e, [] => some e
  | e, n :: ns => (e.child? n).bind fun c => c.at? ns

/-- The entry with `new` at a place; missing directories on the way are made, and what stands in
the way and is no directory gives way to one. -/
def put (new : Entry) : List String → Entry → Entry
  | [], _ => new
  | n :: ns, e =>
    let es := match e with
      | directory es => es
      | _ => []
    directory (putChild n (put new ns ((es.lookup n).getD (directory []))) es)

/-- The entry without what is at a place. -/
def erase : List String → Entry → Entry
  | [], e => e
  | [n], directory es => directory (es.filter fun c => c.1 ≠ n)
  | n :: ns, directory es =>
    match es.lookup n with
    | some c => directory (putChild n (erase ns c) es)
    | none => directory es
  | _, e => e

end Entry

structure FileTree where
  top : Entry
  workingDirectory : List String
  deriving Inhabited

namespace FileTree

/-- A tree that holds nothing. -/
def empty : FileTree := ⟨.directory [], []⟩

/-- How many links one walk may follow. -/
def linkLimit : Nat := 40

/-- The steps of a path as they are walked.  A trailing slash asks for a directory, as `.` does. -/
def steps (text : String) : List String :=
  let ps := Text.pieces '/' text.toList
  let body := ps.filter (fun p => !p.isEmpty)
  let body := if ps.getLast? = some [] && !body.isEmpty then body ++ [['.']] else body
  body.map String.ofList

/-- Follows steps from a place; `follow` goes on after a link. -/
def descend (top : Entry) (follow : List String → List String → Except OsError (List String)) :
    List String → List String → Except OsError (List String)
  | place, [] => .ok place
  | place, s :: rest =>
    match top.at? place with
    | some (.directory es) =>
      if s = "." then descend top follow place rest
      else if s = ".." then descend top follow place.dropLast rest
      else if s.utf8ByteSize > 255 then .error .nameTooLong
      else
        match es.lookup s with
        | none => .error .notFound
        | some (.link target) =>
          if target.isEmpty then .error .notFound
          else follow (if target.startsWith "/" then [] else place) (steps target ++ rest)
        | some _ => descend top follow (place ++ [s]) rest
    | _ => .error .notDirectory

/-- Follows steps from a place through at most `n` links. -/
def follow (top : Entry) : Nat → List String → List String → Except OsError (List String)
  | 0, _, _ => .error .tooManyLinks
  | n + 1, place, todo => descend top (follow top n) place todo

/-- The place that a path leads to, links followed. -/
def place (t : FileTree) (p : FilePath) : Except OsError (List String) :=
  if p.text.toList.contains '\x00' then .error .nulInName
  else if p.text.isEmpty then .error .notFound
  else
    let start := if p.isAbsolute then [] else t.workingDirectory
    follow t.top (linkLimit + 1) start (steps p.text)

/-- The entry that a path leads to, links followed. -/
def entry (t : FileTree) (p : FilePath) : Except OsError Entry := do
  let pl ← t.place p
  match t.top.at? pl with
  | some e => pure e
  | none => throw .notFound

/-- Whether something can be reached by the path. -/
def isThere (t : FileTree) (p : FilePath) : Bool :=
  match t.entry p with
  | .ok _ => true
  | .error _ => false

/-- Whether the path leads to a regular file. -/
def isFile (t : FileTree) (p : FilePath) : Bool :=
  match t.entry p with
  | .ok e => e.isFile
  | .error _ => false

def isDirectory (t : FileTree) (p : FilePath) : Bool :=
  match t.entry p with
  | .ok e => e.isDirectory
  | .error _ => false

/-- The text of the file that a path leads to. -/
def readText (t : FileTree) (p : FilePath) : Except OsError String := do
  match ← t.entry p with
  | .file content _ =>
    match String.fromUTF8? content with
    | some s => pure s
    | none => throw .invalidText
  | .directory _ => throw .isDirectory
  | .link _ => throw .notFound

/-- The absolute path of a place. -/
def pathOf (place : List String) : FilePath :=
  (FilePath.Location.mk true place).toPath

/-- The path without links, `.` and `..`, if it leads anywhere. -/
def canonical? (t : FileTree) (p : FilePath) : Option FilePath :=
  match t.place p with
  | .ok pl => some (pathOf pl)
  | .error _ => none

/-- The key under which a file is recorded: its canonical path, or the path normalized by text
alone when nothing is there. -/
def key (t : FileTree) (p : FilePath) : String :=
  ((t.canonical? p).getD p.normalize).posixText

/-- The place at which a path would create a file: the last step is taken as written. -/
def targetPlace (t : FileTree) (p : FilePath) : List String :=
  match t.place p with
  | .ok pl => pl
  | .error _ =>
    match p.parent?, p.fileName? with
    | some dir, some name =>
      match t.place dir with
      | .ok pl => pl ++ [name]
      | .error _ => p.location.names
    | _, _ => p.location.names

/-- The tree after a file is written. -/
def write (t : FileTree) (p : FilePath) (content : ByteArray) (executable : Bool) : FileTree :=
  { t with top := Entry.put (.file content executable) (t.targetPlace p) t.top }

/-- The place of the path itself, a link in the last step not followed. -/
def ownPlace (t : FileTree) (p : FilePath) : List String :=
  match p.parent?, p.fileName? with
  | some dir, some name =>
    match t.place dir with
    | .ok pl => pl ++ [name]
    | .error _ => p.location.names
  | _, _ => p.location.names

/-- Whether the path itself names a link. -/
def isLink (t : FileTree) (p : FilePath) : Bool :=
  match t.top.at? (t.ownPlace p) with
  | some (.link _) => true
  | _ => false

/-- The tree after a directory is made; one that is there stays. -/
def makeDirectory (t : FileTree) (p : FilePath) : FileTree :=
  if t.isDirectory p then t else { t with top := Entry.put (.directory []) (t.targetPlace p) t.top }

/-- The tree after a link is made. -/
def makeLink (t : FileTree) (p : FilePath) (target : String) : FileTree :=
  { t with top := Entry.put (.link target) (t.ownPlace p) t.top }

/-- The tree after what the path names, and all below it, is removed. -/
def remove (t : FileTree) (p : FilePath) : FileTree :=
  { t with top := t.top.erase (t.ownPlace p) }

end FileTree

end RouteAtlas
