import RouteAtlas.Search.Query
import RouteAtlas.Text.Blank

/-!
# Searching with another program

A search program is given a query on its command line and answers one path a line.  What it did is
an `Outcome`; what the outcome means for the query is decided here, away from how it came about.
-/

set_option autoImplicit false

namespace RouteAtlas.Search

/-- What became of a program that was to be run. -/
inductive Outcome
  | notStarted (cause : OsError)
  /-- It was still running when its time was over. -/
  | overtime
  /-- It ended, with a status or by a signal, having written some bytes. -/
  | ended (status : Option Nat) (output : List UInt8)
  deriving DecidableEq, Repr, Inhabited

namespace Program

/-- The command line for a query. -/
def arguments (q : Query) : List String :=
  ["--no-messages", "--color", "never", "--files-with-matches"] ++
    (if q.mode = .literal then ["-F", "-S"] else []) ++
    q.includeGlobs.flatMap (fun g => ["-g", g]) ++
    q.excludeGlobs.flatMap (fun g => ["-g", "!" ++ g]) ++
    q.patterns.flatMap (fun p => ["-e", p]) ++ [q.root.text]

/-- The text that a program wrote; nothing when it is no text. -/
def textOf (output : List UInt8) : List Char :=
  match String.fromUTF8? ⟨output.toArray⟩ with
  | some s => s.toList
  | none => []

/-- The paths named by lines of text, seen from a root; blank lines name none. -/
def pathsIn (root : FilePath) (text : List Char) : List FilePath :=
  let lines := (Text.pieces '\n' text).map Text.trimChars
  let named := (lines.filter fun l => !l.isEmpty).map fun l => root.join (String.ofList l)
  FilePath.dropRepeats (FilePath.sort named)

/-- What an outcome answers to a query. -/
def answer (program : FilePath) (q : Query) : Outcome → Except Failure (List FilePath)
  | .notStarted cause => .error (.notStarted program.text cause)
  | .overtime => .error (.timedOut q.budget)
  | .ended status output =>
    let text := textOf output
    -- Status 2 reports an error, which may still come with what was found before it.
    if status = some 2 && (Text.trimChars text).isEmpty then .error (.refused program.text)
    else .ok (pathsIn q.root text)

end Program

end RouteAtlas.Search
