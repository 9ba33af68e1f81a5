import RouteAtlas.Search.Program
import RouteAtlas.Shell.Execution

/-!
# Launching a program

Starting a program of the tree with a command line, in a directory and with a budget of time, and
what becomes of it.  Programs are scripts that name a shell in their first line.
-/

set_option autoImplicit false

namespace RouteAtlas.Shell

open Search (Outcome)

/-- How deep commands may be nested. -/
def depthLimit : Nat := 1000

/-- How many steps a script may take before it counts as one without end. -/
def stepLimit : Nat := 200000

/-- The state in which a script starts. -/
def State.start (t : FileTree) (directory : FilePath) (program : FilePath) (args : List String)
    (environment : List (String × String)) (budget : Nat) : State :=
  { (default : State) with
    tree := t
    directory := directory
    bindings := (("PWD", directory.text) :: environment).map fun v => (v.1.toList, v.2.toList)
    name := program.text.toList
    arguments := args.map String.toList
    budget := budget
    steps := stepLimit }

/-- Runs what a script asked for at its end; the status stays unless that sets another. -/
def sayFarewell : Run Unit := do
  let s ← get
  match Parse.script? s.farewell with
  | some c =>
    let stop ← Run.finish (run depthLimit c)
    match stop with
    | none => Run.setStatus s.status
    | some .exit => return
    | some other => throw other
  | none => return

/-- Runs a script to its end. -/
def runScript (c : Command) : Run Unit := do
  match ← Run.finish (run depthLimit c) with
  | some .overtime => throw .overtime
  | some .killed => throw .killed
  | _ => sayFarewell

/-- What becomes of a script. -/
def outcome (start : State) (text : String) (flags : List Char) : Outcome :=
  match Parse.script? text.toList with
  | none => .ended (some 2) []
  | some c =>
    let (ending, s) := (runScript c).run { start with flags := flags }
    match ending with
    | .error .overtime => .overtime
    | .error .killed => .ended none s.output.toList
    | _ => .ended (some s.status) s.output.toList

/-- Starts a program.  A name without a slash is looked for where no program of the tree is. -/
def launch (t : FileTree) (directory program : FilePath) (args : List String)
    (environment : List (String × String)) (budget : Nat) : Outcome :=
  match t.entry directory, t.place directory with
  | .error cause, _ | _, .error cause => .notStarted cause
  | .ok e, .ok here =>
    if !e.isDirectory then .notStarted .notDirectory
    else
      let t := { t with workingDirectory := here }
      if !program.text.toList.contains '/' then .notStarted .notFound
      else
        match t.entry program with
        | .error cause => .notStarted cause
        | .ok (.file content true) =>
          match interpreter? content with
          | none => .notStarted .notExecutable
          | some (path, option) =>
            match shell? path option with
            | none => .notStarted .notFound
            | some flags =>
              if budget = 0 then .overtime
              else
                let start := State.start t (FileTree.pathOf here) program args environment budget
                outcome start (String.fromUTF8? content |>.getD "") flags
        | .ok _ => .notStarted .permissionDenied

end RouteAtlas.Shell
