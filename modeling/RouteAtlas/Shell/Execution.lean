import RouteAtlas.Shell.Arithmetic
import RouteAtlas.Shell.Builtin
import RouteAtlas.Shell.Field
import RouteAtlas.Shell.Parse

/-!
# Running commands

Expanding words and running commands hang together: a word may hold a command whose output it
becomes.  Both are bounded in depth, and every simple command and every round of a loop takes one of
the steps that a run has, so a script without end ends by running out of them.
-/

set_option autoImplicit false

namespace RouteAtlas.Shell

open Run

/-- Runs as a test, whose failure does not end a strict script, and answers whether it succeeded. -/
def asTest (run : Run Unit) : Run Bool := do
  modify fun s => { s with tests := s.tests + 1 }
  let stop ← finish run
  modify fun s => { s with tests := s.tests - 1 }
  resume stop
  return (← get).status = 0

/-- Runs a part of a loop, and answers whether the loop goes on. -/
def inLoop (run : Run Unit) : Run Bool := do
  modify fun s => { s with loops := s.loops + 1 }
  let stop ← finish run
  modify fun s => { s with loops := s.loops - 1 }
  match stop with
  | none | some (.continuing 0) | some (.continuing 1) => return true
  | some (.breaking 0) | some (.breaking 1) => return false
  | some (.continuing (n + 1)) => throw (.continuing n)
  | some (.breaking (n + 1)) => throw (.breaking n)
  | some other => throw other

/-- Rounds of a loop, at most `n`: the body as long as the test answers so and the body goes on.  The
status is that of the last body. -/
def rounds (test body : Run Bool) (status : Nat) : Nat → Run Unit
  | 0 => throw .overtime
  | n + 1 => do
    step
    if ← test then
      if ← body then rounds test body (← get).status n
    else setStatus status

/-- Ends a strict script whose last command failed. -/
def checkStatus : Run Unit := do
  let s ← get
  if s.isStrict && s.tests = 0 && s.status ≠ 0 then throw .exit

/-- Runs with other input. -/
def withInput (input : List UInt8) (run : Run Unit) : Run Unit := do
  let outer := (← get).input
  modify fun s => { s with input := input }
  let stop ← finish run
  modify fun s => { s with input := outer }
  resume stop

/-- Runs with variables that are set for it alone. -/
def withVariables (bindings : List (List Char × List Char)) (run : Run Unit) : Run Unit := do
  if bindings.isEmpty then run
  else
    let outer ← get
    for (name, value) in bindings do assign name value
    let stop ← finish run
    modify fun s => s.rebind (bindings.map fun v => (v.1, outer.bindings.lookup v.1))
    resume stop

/-- Runs as another script or function would: with a name, arguments and variables of its own. -/
def withArguments (name : List Char) (args : List (List Char)) (run : Run Unit) : Run Unit := do
  let outer ← get
  set { outer with name := name, arguments := args, loops := 0, hidden := [] }
  let stop ← finish run
  modify fun s =>
    { s.rebind s.hidden with
      name := outer.name, arguments := outer.arguments, loops := outer.loops
      hidden := outer.hidden }
  match stop with
  | some .returning => return
  | _ => resume stop

/-- The value of a parameter other than the list of arguments; none when it is not set. -/
def parameter? (name : List Char) : Run (Option (List Char)) := do
  let s ← get
  match name with
  | ['#'] => return some (toString s.arguments.length).toList
  | ['?'] => return some (toString s.status).toList
  | ['$'] => return some ['1']
  | ['!'] => return none
  | ['-'] => return some s.flags
  | ['@'] | ['*'] =>
    return if s.arguments.isEmpty then none else some (Text.joinWith [' '] s.arguments)
  | _ =>
    match Builtin.nat? name with
    | some 0 => return some s.name
    | some (n + 1) => return s.arguments[n]?
    | none => valueOf name

/-- The marks of a value. -/
def marksOfValue (quoted : Bool) (value : List Char) : Run (List Mark) := do
  if quoted then return .quotes :: Mark.ofChars true value
  else return Mark.ofValue (← separators) value

/-- The bytes of a file that a command reads from. -/
def readFrom? (target : List Char) : Run (Option (List UInt8)) := do
  if target = "/dev/null".toList then return some []
  let s ← get
  match s.tree.entry (Builtin.pathOf s target) with
  | .ok (.file content _) => return some content.toList
  | _ => return none

/-- Puts bytes into a file, or behind those that are there. -/
def writeTo (target : List Char) (behind : Bool) (bytes : ByteArray) : Run Unit := do
  if !("/dev/".toList.isPrefixOf target) then
    let s ← get
    let p := Builtin.pathOf s target
    let before := match behind, s.tree.entry p with
      | true, .ok (.file content _) => content
      | _, _ => ByteArray.empty
    set { s with tree := s.tree.write p (before ++ bytes) false }

/-- Runs with a channel led to a target. -/
def redirect (channel : Nat) (sign : String) (target : List Char) (run : Run Unit) : Run Unit :=
  match channel, sign with
  | 0, "<<" => withInput (bytesOf target) run
  | 0, "<" => do
    match ← readFrom? target with
    | some bytes => withInput bytes run
    | none => setStatus 2
  | 1, ">&" => if target = ['1'] then run else withOutput (fun _ => return) run
  | 1, ">>" => withOutput (writeTo target true) run
  | 1, ">" | 1, ">|" => withOutput (writeTo target false) run
  | _, _ => run

/-- The options of a script that `set` changes, and the arguments if it gives any. -/
def setOptions (flags : List Char) : List (List Char) → List Char × Option (List (List Char))
  | [] => (flags, none)
  | ['-', '-'] :: args => (flags, some args)
  | ('-' :: os) :: args => setOptions (flags ++ os) args
  | ('+' :: os) :: args => setOptions (flags.filter fun f => !os.contains f) args
  | args => (flags, some args)

/-- Assignments among the arguments of a command, perhaps to variables of the function alone. -/
def assignAll (isLocal : Bool) (args : List (List Char)) : Run Unit := do
  for arg in args do
    let (name, value) := match Text.breakAt '=' arg with
      | some (name, value) => (name, some value)
      | none => (arg, none)
    if isLocal then
      modify fun s => { s with hidden := s.hidden ++ [(name, s.bindings.lookup name)] }
    if let some value := value then assign name value
  setStatus 0

/-- Steps out of loops. -/
def leave (stop : Nat → Stop) (args : List (List Char)) : Run Unit := do
  let s ← get
  let asked := ((args.head?.bind Builtin.nat?).getD 1)
  setStatus 0
  if s.loops ≠ 0 then throw (stop (min asked s.loops))

/-- The interpreter that a program names in its first line, with the option it is given. -/
def interpreter? (content : ByteArray) : Option (List Char × List Char) :=
  let line := (content.toList.takeWhile (· ≠ 10)).map fun b => Char.ofNat b.toNat
  match line with
  | '#' :: '!' :: rest =>
    let rest := Text.trimBoth (fun c => c = ' ' || c = '\t') rest
    let path := rest.takeWhile fun c => c ≠ ' ' && c ≠ '\t'
    some (path, (rest.drop path.length).dropWhile fun c => c = ' ' || c = '\t')
  | _ => none

/-- The letters of the options with which an interpreter is to run, if it is a shell. -/
def shell? (path option : List Char) : Option (List Char) :=
  let shells := ["/bin/sh", "/usr/bin/sh", "/bin/dash", "/usr/bin/dash", "/bin/bash",
    "/usr/bin/bash"].map String.toList
  if shells.contains path then some (if option.head? = some '-' then option.tail else [])
  else if path = "/usr/bin/env".toList && ["sh", "dash", "bash"].contains (String.ofList option) then
    some []
  else none

mutual

/-- The marks of a word. -/
def marks : Nat → Word → Run (List Mark)
  | 0, _ => throw .overtime
  | n + 1, w => do
    let parts ← w.mapM fun s =>
      match s with
      | .text quoted cs => pure (if quoted then .quotes :: Mark.ofChars true cs else Mark.ofChars false cs)
      | .output quoted c => do
        let bytes ← outputOf (← get).input (run n c)
        marksOfValue quoted (Text.dropTrailing (· = '\n') (textOf bytes.toList))
      | .arithmetic quoted e => do
        match Arithmetic.expr? (Mark.text (← marks n e)) with
        | some e => do marksOfValue quoted (toString (← Arithmetic.eval e)).toList
        | none => Arithmetic.malformed
      | .parameter quoted name op operand => do
        if op.isEmpty && (name = ['@'] || (name = ['*'] && !quoted)) then
          return Mark.ofValues quoted (← separators) (← get).arguments
        let value ← parameter? name
        if value.isNone && (← get).flags.contains 'u' && (op.isEmpty || op = ['l']) then
          Arithmetic.malformed
        let text := value.getD []
        let isMissing := value.isNone || (op.head? = some ':' && text.isEmpty)
        match op with
        | [] => marksOfValue quoted text
        | ['l'] => marksOfValue quoted (toString text.length).toList
        | ['-'] | [':', '-'] => if isMissing then marks n operand else marksOfValue quoted text
        | ['+'] | [':', '+'] => if isMissing then pure [] else marks n operand
        | ['='] | [':', '='] =>
          if isMissing then
            let value := Mark.text (← marks n operand)
            assign name value
            marksOfValue quoted value
          else marksOfValue quoted text
        | ['?'] | [':', '?'] => if isMissing then Arithmetic.malformed else marksOfValue quoted text
        | _ =>
          let p := Pattern.ofLetters (Mark.letters (← marks n operand))
          let longest := op.length = 2
          marksOfValue quoted
            (if op.head? = some '%' then p.dropEnd longest text else p.dropStart longest text)
    return parts.flatten

/-- Runs a command by its name. -/
def call (name : List Char) (args : List (List Char)) : Nat → Run Unit
  | 0 => throw .overtime
  | n + 1 => do
    let s ← get
    match s.functions.lookup name with
    | some body =>
      setStatus 0
      withArguments s.name args (run n body)
    | none =>
      let status := ((args.head?.bind Builtin.nat?).getD s.status) % 256
      match String.ofList name with
      | "exit" => do
        setStatus status
        throw .exit
      | "return" => do
        setStatus status
        throw .returning
      | "break" => leave .breaking args
      | "continue" => leave .continuing args
      | "exec" =>
        match args with
        | [] => return
        | name :: args => do
          call name args n
          throw .exit
      | "command" =>
        match args with
        | ['-', 'v'] :: name :: _ =>
          if (Builtin.find? (String.ofList name)).isSome || (s.functions.lookup name).isSome then
            write (bytesOf (name ++ ['\n']))
            setStatus 0
          else setStatus 127
        | name :: args => call name args n
        | [] => setStatus 0
      | "eval" =>
        match Parse.script? (Text.joinWith [' '] args) with
        | some c => do
          setStatus 0
          run n c
        | none => Arithmetic.malformed
      | "cd" =>
        match args with
        | dir :: _ =>
          let p := Builtin.pathOf s dir
          match s.tree.isDirectory p, s.tree.canonical? p with
          | true, some p =>
            set { s with directory := p, status := 0 }
            assign "PWD".toList p.text.toList
          | _, _ => setStatus 2
        | [] => setStatus 0
      | "set" =>
        let (flags, given) := setOptions s.flags args
        set { s with flags := flags, arguments := given.getD s.arguments, status := 0 }
      | "shift" =>
        let count := (args.head?.bind Builtin.nat?).getD 1
        if s.arguments.length < count then Arithmetic.malformed
        else set { s with arguments := s.arguments.drop count, status := 0 }
      | "unset" =>
        set { s with
          bindings := s.bindings.filter fun v => !args.contains v.1
          functions := s.functions.filter fun f => !args.contains f.1
          status := 0 }
      | "local" => assignAll true args
      | "export" | "readonly" => assignAll false args
      | "trap" =>
        let atEnd := args.tail.any fun a => a = ['0'] || a = "EXIT".toList
        set { s with
          farewell := if atEnd then args.head?.getD [] else s.farewell
          status := 0 }
      | "[" =>
        if args.getLast? = some [']'] then Builtin.test args.dropLast else setStatus 2
      | "." => file (args.head?.getD []) args.tail n
      | "sh" | "/bin/sh" =>
        match args with
        | ['-', 'c'] :: text :: rest =>
          match Parse.script? text with
          | some c => inCopy (withArguments (rest.head?.getD s.name) rest.tail (run n c))
          | none => setStatus 2
        | path :: rest => inCopy (withArguments path rest (file path rest n))
        | [] => setStatus 0
      | word =>
        match Builtin.find? word with
        | some action => action args
        | none =>
          if name.contains '/' then
            match s.tree.entry (Builtin.pathOf s name) with
            | .ok (.file content true) =>
              match (interpreter? content).bind fun i => shell? i.1 i.2 with
              | some flags => inCopy do
                modify fun s => { s with functions := [], flags := flags, tests := 0 }
                withArguments name args (file name args n)
              | none => setStatus 126
            | .ok _ => setStatus 126
            | .error _ => setStatus 127
          else setStatus 127

/-- Runs the text of a file. -/
def file (path : List Char) (args : List (List Char)) : Nat → Run Unit
  | 0 => throw .overtime
  | n + 1 => do
    let s ← get
    match s.tree.readText (Builtin.pathOf s path) with
    | .error _ => setStatus 127
    | .ok text =>
      match Parse.script? text.toList with
      | none => setStatus 2
      | some c => do
        setStatus 0
        if args.isEmpty then run n c else withArguments s.name args (run n c)

/-- Runs a command. -/
def run : Nat → Command → Run Unit
  | 0, _ => throw .overtime
  | n + 1, c => do
    match c with
    | .simple assignments words =>
      step
      let marked ← words.mapM (marks n)
      let s ← get
      let args := (marked.flatMap Mark.fields).flatMap (argumentsOf s)
      match args with
      | [] =>
        let hasOutput := (assignments.map (·.2) ++ words).any fun w => w.any fun
          | .output .. => true
          | _ => false
        for (name, w) in assignments do assign name (Mark.text (← marks n w))
        if !hasOutput then setStatus 0
        checkStatus
      | name :: args =>
        let values ← assignments.mapM fun (x, w) => do return (x, Mark.text (← marks n w))
        withVariables values (call name args n)
        checkStatus
    | .redirected c leads =>
      leads.foldr (fun (channel, sign, w) act => do
        redirect channel (String.ofList sign) (Mark.text (← marks n w)) act) (run n c)
      checkStatus
    | .pipeline cs =>
      let mut input := (← get).input
      for c in cs.dropLast do
        input := (← outputOf input (run n c)).toList
      match cs.getLast? with
      | some c => withInput input (inCopy (run n c))
      | none => return
      checkStatus
    | .negated c =>
      let succeeded ← asTest (run n c)
      setStatus (if succeeded then 1 else 0)
    | .both c d => if ← asTest (run n c) then run n d
    | .either c d => if !(← asTest (run n c)) then run n d
    | .list cs => for c in cs do run n c
    | .background c =>
      let time := (← get).time
      let stop ← finish (inCopy (run n c))
      modify fun s => { s with time := time, status := 0 }
      -- What still runs in the background does not keep the script.
      if stop = some .killed then throw .killed
    | .subshell c =>
      inCopy (run n c)
      checkStatus
    | .cond test yes no =>
      if ← asTest (run n test) then
        setStatus 0
        run n yes
      else
        setStatus 0
        run n no
    | .loop wanted test body =>
      rounds (return (← asTest (run n test)) = wanted) (inLoop (run n body)) 0 (← get).steps
    | .each name words body =>
      let values ← match words with
        | none => pure (← get).arguments
        | some ws =>
          let marked ← ws.mapM (marks n)
          let s ← get
          pure ((marked.flatMap Mark.fields).flatMap (argumentsOf s))
      setStatus 0
      let mut goesOn := true
      for value in values do
        if goesOn then
          step
          assign name value
          goesOn ← inLoop (run n body)
    | .choose w arms =>
      let text := Mark.text (← marks n w)
      let mut found := false
      setStatus 0
      for (patterns, body) in arms do
        if !found then
          for p in patterns do
            if !found then
              found := (Pattern.ofLetters (Mark.letters (← marks n p))).isMatch text
          if found then run n body
    | .define name body =>
      modify fun s =>
        { s with functions := (name, body) :: s.functions.filter (·.1 ≠ name), status := 0 }

end

end RouteAtlas.Shell
