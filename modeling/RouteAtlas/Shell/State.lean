import RouteAtlas.FileTree
import RouteAtlas.Shell.Script

/-!
# The state of a running script

What a script can see and change, and the ways in which it can stop.  Time passes only when a script
sleeps; a script that goes on beyond its steps is one that would not end in its time.
-/

set_option autoImplicit false

namespace RouteAtlas.Shell

structure State where
  tree : FileTree
  directory : FilePath
  bindings : List (List Char × List Char)
  /-- The name of the script and its arguments. -/
  name : List Char
  arguments : List (List Char)
  functions : List (List Char × Command)
  status : Nat
  /-- What is left to be read. -/
  input : List UInt8
  /-- What has been written. -/
  output : ByteArray
  /-- Milliseconds that have passed, and those there are. -/
  time : Nat
  budget : Nat
  steps : Nat
  /-- The letters of the options that are on. -/
  flags : List Char
  /-- In how many tests the run stands. -/
  tests : Nat
  /-- How many loops the run stands in. -/
  loops : Nat
  /-- The variables that are local to the function that runs, with what they were outside. -/
  hidden : List (List Char × Option (List Char))
  /-- What is run when the script ends. -/
  farewell : List Char
  deriving Inhabited

namespace State

/-- Whether a command that fails ends the script. -/
def isStrict (s : State) : Bool := s.flags.contains 'e'

/-- The state with a variable set, or not set. -/
def bind (s : State) (name : List Char) (value : Option (List Char)) : State :=
  let others := s.bindings.filter fun v => v.1 ≠ name
  { s with bindings := (value.map (name, ·)).toList ++ others }

/-- The state with variables as they were. -/
def rebind (s : State) (old : List (List Char × Option (List Char))) : State :=
  old.foldl (fun s v => s.bind v.1 v.2) s

end State

/-- Why a script does not simply go on. -/
inductive Stop
  | exit
  /-- By a signal. -/
  | killed
  | overtime
  | returning
  /-- Out of this many loops, or to the next round of the last of them. -/
  | breaking (loops : Nat)
  | continuing (loops : Nat)
  deriving DecidableEq, Repr, Inhabited

abbrev Run := ExceptT Stop (StateM State)

namespace Run

/-- Ends with the next command when there is no time left. -/
def step : Run Unit := do
  let s ← get
  if s.steps = 0 then throw .overtime
  set { s with steps := s.steps - 1 }

/-- Lets time pass. -/
def wait (milliseconds : Nat) : Run Unit := do
  modify fun s => { s with time := s.time + milliseconds }
  let s ← get
  if s.budget ≤ s.time then throw .overtime

def write (bytes : List UInt8) : Run Unit :=
  modify fun s => { s with output := bytes.foldl ByteArray.push s.output }

def setStatus (n : Nat) : Run Unit := modify fun s => { s with status := n }

def valueOf (name : List Char) : Run (Option (List Char)) :=
  return (← get).bindings.lookup name

def assign (name value : List Char) : Run Unit := modify fun s => s.bind name (some value)

/-- The characters at which values are split. -/
def separators : Run (List Char) := return (← valueOf "IFS".toList).getD [' ', '\t', '\n']

/-- The bytes of a text. -/
def bytesOf (cs : List Char) : List UInt8 := (String.ofList cs).toUTF8.toList

/-- The text of bytes, wrong ones replaced. -/
def textOf (bytes : List UInt8) : List Char :=
  match String.fromUTF8? ⟨bytes.toArray⟩ with
  | some s => s.toList
  | none => bytes.map fun b => if b < 128 then Char.ofNat b.toNat else '\ufffd'

/-- Runs to the end, however that comes about. -/
def finish (run : Run Unit) : Run (Option Stop) :=
  tryCatch (do run; return none) fun stop => return some stop

/-- Goes on as a run ended. -/
def resume : Option Stop → Run Unit
  | none => return
  | some stop => throw stop

/-- Runs with what it writes handed to another place. -/
def withOutput (sink : ByteArray → Run Unit) (run : Run Unit) : Run Unit := do
  let outer := (← get).output
  modify fun s => { s with output := ByteArray.empty }
  let stop ← finish run
  let inner := (← get).output
  modify fun s => { s with output := outer }
  sink inner
  resume stop

/-- Runs in a copy of the state: what it writes, its status and its time stay, and only a signal
and the end of time reach beyond it. -/
def inCopy (run : Run Unit) : Run Unit := do
  let outer ← get
  let stop ← finish run
  modify fun s =>
    { outer with
      output := s.output, input := s.input, status := s.status, tree := s.tree, time := s.time,
      steps := s.steps }
  match stop with
  | some .overtime => throw .overtime
  | some .killed => throw .killed
  | _ => return

/-- What a run in a copy writes when it reads the given bytes. -/
def outputOf (input : List UInt8) (run : Run Unit) : Run ByteArray := do
  let s ← get
  set { s with input := input, output := ByteArray.empty }
  let stop ← finish (inCopy run)
  let inner := (← get).output
  modify fun t => { t with input := s.input, output := s.output }
  resume stop
  return inner

end Run

end RouteAtlas.Shell
