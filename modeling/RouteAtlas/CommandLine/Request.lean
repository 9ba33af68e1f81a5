import RouteAtlas.FilePath
import RouteAtlas.Options

/-!
# Requests

What a command line asks for: files of routes, routes of files, tests of both, or the list of all
routes.  Arguments are read from the left, and the first one that makes no sense is reported.
-/

set_option autoImplicit false

namespace RouteAtlas.CommandLine

structure Request where
  root : Option FilePath
  routes : List String
  sources : List String
  tests : Bool
  list : Bool
  /-- Time for each search, in milliseconds. -/
  timeout : Option Nat
  deriving DecidableEq, Repr, Inhabited

/-- The options that take a value. -/
inductive ValueOption
  | root
  | route
  | source
  | timeout
  deriving DecidableEq, Repr, Inhabited

/-- The full name of an option. -/
def ValueOption.name : ValueOption → String
  | root => "--root"
  | route => "--route"
  | source => "--source"
  | timeout => "--timeout"

inductive UsageError
  | missingValue (option : ValueOption)
  | invalidTimeout (text : String)
  | unknownOption (text : String)
  | nothingToDo
  | listWithTests
  deriving DecidableEq, Repr, Inhabited

/-- The wording of an error. -/
def UsageError.message : UsageError → String
  | missingValue option => option.name ++ " requires an argument"
  | invalidTimeout text => "--timeout: invalid milliseconds '" ++ text ++ "'"
  | unknownOption text => "unknown option: " ++ text
  | nothingToDo => "nothing to do: pass --route, --source or --list"
  | listWithTests => "--list and --tests are mutually exclusive"

namespace Request

/-- The request for nothing. -/
def empty : Request := ⟨none, [], [], false, false, none⟩

/-- The option of a text that takes a value. -/
def valueOption? : String → Option ValueOption
  | "--root" | "-r" => some .root
  | "--route" => some .route
  | "--source" | "-s" => some .source
  | "--timeout" => some .timeout
  | _ => none

/-- The request with the value of an option.  Routes and sources are kept in order; of roots and
times the last counts. -/
def withValue (r : Request) (value : String) : ValueOption → Except UsageError Request
  | .root => .ok { r with root := some ⟨value⟩ }
  | .route => .ok { r with routes := r.routes ++ [value] }
  | .source => .ok { r with sources := r.sources ++ [value] }
  | .timeout =>
    match decimal64? value with
    | some n => .ok { r with timeout := some n }
    | none => .error (.invalidTimeout value)

/-- The request with an argument that is no option with a value.  A bare argument is a route when it
looks like one and no such file is there, and a source otherwise. -/
def withArgument (isThere : String → Bool) (r : Request) (arg : String) :
    Except UsageError Request :=
  if arg = "--tests" || arg = "-t" then .ok { r with tests := true }
  else if arg = "--list" || arg = "-l" then .ok { r with list := true }
  else if arg.startsWith "-" then .error (.unknownOption arg)
  else if arg.startsWith "/" && !isThere arg then .ok { r with routes := r.routes ++ [arg] }
  else .ok { r with sources := r.sources ++ [arg] }

/-- The request with all of the arguments. -/
def withArguments (isThere : String → Bool) (r : Request) :
    List String → Except UsageError Request
  | [] => .ok r
  | [arg] =>
    match valueOption? arg with
    | some option => .error (.missingValue option)
    | none => r.withArgument isThere arg
  | arg :: value :: rest =>
    match valueOption? arg with
    | some option => do withArguments isThere (← r.withValue value option) rest
    | none => do withArguments isThere (← r.withArgument isThere arg) (value :: rest)

/-- Refuses a request for nothing, and one that is for two things at once. -/
def checked (r : Request) : Except UsageError Request :=
  if r.routes.isEmpty && r.sources.isEmpty && !r.list then .error .nothingToDo
  else if r.list && r.tests then .error .listWithTests
  else .ok r

/-- The request that arguments make. -/
def ofArguments (isThere : String → Bool) (args : List String) : Except UsageError Request := do
  (← empty.withArguments isThere args).checked

end Request

end RouteAtlas.CommandLine
