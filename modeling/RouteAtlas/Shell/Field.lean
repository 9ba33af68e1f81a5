import RouteAtlas.Shell.Pattern
import RouteAtlas.Shell.State

/-!
# Fields

A word expands to marks: characters, each quoted or not, and the places where one field ends and the
next begins.  Fields are what a command gets as arguments, after those that are open patterns have
given way to the paths they match.
-/

set_option autoImplicit false

namespace RouteAtlas.Shell

inductive Mark
  | char (l : Letter)
  /-- Quotes, which make a field even around nothing. -/
  | quotes
  /-- All arguments between quotes where there are none, which make no field. -/
  | nothing
  /-- The end of a field. -/
  | cut
  deriving DecidableEq, Repr, Inhabited

namespace Mark

def ofChars (quoted : Bool) (cs : List Char) : List Mark := cs.map fun c => char (c, quoted)

/-- A value that is split wherever one of the separators is; blanks that follow each other are one
place. -/
def ofValue (separators value : List Char) : List Mark :=
  value.flatMap fun c =>
    if separators.contains c then
      if c = ' ' || c = '\t' || c = '\n' then [cut] else [quotes, cut]
    else [char (c, false)]

/-- The marks of a list of values, each its own field. -/
def ofValues (quoted : Bool) (separators : List Char) (values : List (List Char)) : List Mark :=
  if values.isEmpty then (if quoted then [nothing] else [])
  else
    (values.map fun v => if quoted then quotes :: ofChars true v else ofValue separators v)
      |>.intersperse [cut] |>.flatten

/-- The letters of marks that are not split; where a field would end is a blank. -/
def letters (ms : List Mark) : List Letter :=
  ms.filterMap fun
    | char l => some l
    | cut => some (' ', true)
    | _ => none

/-- The text of marks that are not split. -/
def text (ms : List Mark) : List Char := (letters ms).map (·.1)

/-- The marks between the ends of fields. -/
def groups : List Mark → List (List Mark)
  | [] => [[]]
  | cut :: ms => [] :: groups ms
  | m :: ms =>
    match groups ms with
    | g :: gs => (m :: g) :: gs
    | [] => [[m]]

/-- Whether the marks between two ends make a field. -/
def isField (ms : List Mark) : Bool :=
  !(letters ms).isEmpty || (ms.contains quotes && !ms.contains nothing)

def fields (ms : List Mark) : List (List Letter) := ((groups ms).filter isField).map letters

end Mark

/-- The paths that an open pattern matches, step by step from a directory; hidden names are matched
only by a dot that is written. -/
def matchesOf (t : FileTree) (start : FilePath) : List Pattern → List Char → List (List Char)
  | [], shown => [shown]
  | p :: ps, shown =>
    let behind (name : List Char) : List (List Char) :=
      let shown := shown ++ name
      if ps.isEmpty then [shown] else matchesOf t start ps (shown ++ ['/'])
    if p.isOpen then
      let dir := if shown.isEmpty then start else start.join (String.ofList shown)
      match t.entry dir with
      | .ok (.directory es) =>
        ((es.map fun e => e.1.toList).filter fun name =>
          p.isMatch name && (name.head? ≠ some '.' || p.head? = some (.char '.'))).flatMap behind
      | _ => []
    else behind p.text

/-- The arguments that a field stands for. -/
def argumentsOf (s : State) (field : List Letter) : List (List Char) :=
  let p := Pattern.ofLetters field
  let plain := field.map (·.1)
  if p.isOpen && !s.flags.contains 'f' then
    let found := (matchesOf s.tree s.directory p.steps []).filter fun m =>
      s.tree.isThere (s.directory.join (String.ofList m)) ||
        s.tree.isLink (s.directory.join (String.ofList m))
    if found.isEmpty then [plain] else found
  else [plain]

end RouteAtlas.Shell
