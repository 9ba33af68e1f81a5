import RouteAtlas.Text.Pieces

/-!
# File paths

A path is text; what it means is the list of its components.  Repeated and trailing slashes and
inner `.` components carry no meaning, so two spellings are the same path exactly when their
components agree, and paths are ordered by their components (`a/z` comes before `a-b`).  The text
is kept all the same: a path is shown the way it was built.

`normalize` resolves `.` and `..` by text alone, without asking any file tree, and its result is
determined by a `Location`: whether the path starts at the top, and the names below.
-/

set_option autoImplicit false

namespace RouteAtlas

open RouteAtlas.Text

structure FilePath where
  text : String
  deriving DecidableEq, Repr, Inhabited

namespace FilePath

/-- One step of a path, read from the left. -/
inductive Component
  | top
  | here
  | up
  | name (s : String)
  deriving DecidableEq, Repr, Inhabited

namespace Component

/-- Steps come in the order top, here, up, names; names by their text. -/
def compare : Component → Component → Ordering
  | top, top => .eq
  | top, _ => .lt
  | here, top => .gt
  | here, here => .eq
  | here, _ => .lt
  | up, name _ => .lt
  | up, up => .eq
  | up, _ => .gt
  | name a, name b => if a < b then .lt else if a = b then .eq else .gt
  | name _, _ => .gt

end Component

/-- The step that one slash-separated piece stands for, if it stands for any. -/
def stepOfPiece (p : List Char) : Option Component :=
  if p.isEmpty || p = ['.'] then none
  else if p = ['.', '.'] then some .up
  else some (.name (String.ofList p))

def isAbsolute (p : FilePath) : Bool :=
  p.text.toList.head? = some '/'

/-- The steps of a path.  A `.` counts only at the start of a relative path. -/
def components (p : FilePath) : List Component :=
  let ps := pieces '/' p.text.toList
  if p.isAbsolute then .top :: ps.filterMap stepOfPiece
  else if ps.head? = some ['.'] then .here :: ps.filterMap stepOfPiece
  else ps.filterMap stepOfPiece

/-- Whether two spellings name the same path. -/
def same (p q : FilePath) : Bool :=
  decide (p.components = q.components)

def compareComponents : List Component → List Component → Ordering
  | [], [] => .eq
  | [], _ :: _ => .lt
  | _ :: _, [] => .gt
  | a :: as, b :: bs => (a.compare b).then (compareComponents as bs)

/-- The order of paths: component by component. -/
def compare (p q : FilePath) : Ordering :=
  compareComponents p.components q.components

/-- Paths in order; equal paths keep the order they had. -/
def sort (ps : List FilePath) : List FilePath :=
  ps.mergeSort (fun p q => p.compare q ≠ .gt)

/-- Leaves of neighbours that name the same path only the first. -/
def dropRepeats : List FilePath → List FilePath
  | [] => []
  | p :: ps =>
    match dropRepeats ps with
    | [] => [p]
    | q :: qs => if p.same q then p :: qs else p :: q :: qs

/-- `q` seen from `p`.  An absolute `q` stands for itself; joining the empty path adds the
trailing slash. -/
def join (p : FilePath) (q : String) : FilePath :=
  if q.toList.head? = some '/' then ⟨q⟩
  else if p.text.isEmpty || p.text.toList.getLast? = some '/' then ⟨p.text ++ q⟩
  else ⟨p.text ++ "/" ++ q⟩

/-- Drops trailing pieces that stand for no step, then the slash before them. -/
def dropIdlePieces : List (List Char) → List (List Char)
  | [] => []
  | p :: ps => if p.isEmpty || p = ['.'] then dropIdlePieces ps else p :: ps

/-- The path without its last step; none for the top and the empty path. -/
def parent? (p : FilePath) : Option FilePath :=
  let absolute := p.isAbsolute
  let ps := pieces '/' p.text.toList
  let body := if absolute then ps.drop 1 else ps
  match dropIdlePieces body.reverse with
  | [] => if !absolute && ps.head? = some ['.'] then some ⟨""⟩ else none
  | _ :: before =>
    let kept :=
      match dropIdlePieces before with
      | [] => if !absolute && ps.head? = some ['.'] && !before.isEmpty then [['.']] else []
      | rest => rest.reverse
    let text := joinWith ['/'] kept
    some ⟨String.ofList (if absolute then '/' :: text else text)⟩

/-- The last step, when it is a name. -/
def fileName? (p : FilePath) : Option String :=
  match p.components.getLast? with
  | some (.name s) => some s
  | _ => none

/-- A file name cut at its last dot: stem and extension.  A name that only starts with a dot has no
extension. -/
def splitName (name : String) : String × Option String :=
  let cs := name.toList
  if '.' ∈ cs then
    let ext := (cs.reverse.takeWhile (· ≠ '.')).reverse
    let stem := cs.take (cs.length - ext.length - 1)
    if stem.isEmpty then (name, none) else (String.ofList stem, some (String.ofList ext))
  else (name, none)

/-- The text after the last dot of the file name. -/
def extension? (p : FilePath) : Option String :=
  p.fileName?.bind fun n => (splitName n).2

/-- The path with another extension, what trails the file name dropped; meant for paths that have
one. -/
def withExtension (p : FilePath) (ext : String) : FilePath :=
  match p.fileName? with
  | none => p
  | some n =>
    let trailing := dropIdlePieces ((pieces '/' p.text.toList).reverse)
    match trailing with
    | [] => p
    | _ :: before =>
      let last := ((splitName n).1 ++ "." ++ ext).toList
      ⟨String.ofList (joinWith ['/'] (last :: before).reverse)⟩

/-- The path with `.ext` written after it, whatever it ends in. -/
def appendExtension (p : FilePath) (ext : String) : FilePath :=
  if ext.isEmpty then p else ⟨p.text ++ "." ++ ext⟩

/-- Whether `q`'s steps begin with those of `p`. -/
def isWithin (q p : FilePath) : Bool :=
  p.components.isPrefixOf q.components

/-! ## Normal form -/

/-- Where a path leads by text alone: from the top or not, through these names. -/
structure Location where
  absolute : Bool
  names : List String
  deriving DecidableEq, Repr, Inhabited

namespace Location

/-- One step further; `..` drops the nearest name and is idle when there is none. -/
def step (l : Location) : Component → Location
  | .top => ⟨true, []⟩
  | .here => l
  | .up => ⟨l.absolute, l.names.dropLast⟩
  | .name s => ⟨l.absolute, l.names ++ [s]⟩

def ofComponents (cs : List Component) : Location :=
  cs.foldl step ⟨false, []⟩

def toPath (l : Location) : FilePath :=
  let text := String.intercalate "/" l.names
  ⟨if l.absolute then "/" ++ text else text⟩

end Location

def location (p : FilePath) : Location :=
  .ofComponents p.components

/-- The path with `.` and `..` resolved by text alone. -/
def normalize (p : FilePath) : FilePath :=
  p.location.toPath

/-- The path with forward slashes only. -/
def posixText (p : FilePath) : String :=
  String.ofList (p.text.toList.map fun c => if c = '\\' then '/' else c)

end FilePath

end RouteAtlas
