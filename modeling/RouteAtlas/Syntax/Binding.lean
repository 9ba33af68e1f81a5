import RouteAtlas.Syntax.Annotation

/-!
# Bindings

Names, destructuring patterns and parameter lists.  The same shapes occur as expressions on the
left of an assignment; `asPattern` turns what was read as an expression into the pattern it is.
-/

set_option autoImplicit false

namespace RouteAtlas.Syntax.Binding

open Reader

/-- The words that are never names. -/
def reserved : List String :=
  ["break", "case", "catch", "class", "const", "continue", "debugger", "default", "delete", "do",
    "else", "enum", "export", "extends", "false", "finally", "for", "function", "if", "import", "in",
    "instanceof", "new", "null", "return", "super", "switch", "this", "throw", "true", "try",
    "typeof", "var", "void", "while", "with", "yield", "await"]

/-- A word that can be a name. -/
def name (kind : Kind) (label : Label) : Reader Node := do
  let t ← ahead
  if t.kind = .word && !reserved.contains t.text then leaf kind label else failure

/-- A default value behind `=`. -/
def defaultValue (g : Grammar) : Reader (Option Node) := do
  if ← accept "=" then return some (← g (.assignment .none)) else return none

/-- A binding with an optional default value. -/
def withDefault (g : Grammar) (label : Label) : Reader Node := do
  let at_ ← start
  let target ← g .binding
  match ← defaultValue g with
  | none => return target.as label
  | some value => close .assignmentPattern label at_ [target.as .left, value.as .right]

/-- The name of a property: a word, a literal or an expression in brackets. -/
def propertyName (g : Grammar) : Reader Node := do
  let t ← ahead
  match t.kind with
  | .word => leaf .propertyName .plain
  | .privateName => leaf .privateName .plain
  | .string => leaf .string .plain
  | .number => leaf .other .plain
  | _ =>
    let at_ ← start
    expect "["
    let inner ← g (.assignment .none)
    expect "]"
    close .other .plain at_ [inner]

def objectEntry (g : Grammar) : Reader (List Node) := do
  let at_ ← start
  let t ← ahead
  if ← accept "..." then return [← close .other .plain at_ [← g .binding]]
  if t.kind = .word && !t.next.is ":" then
    let target ← leaf .shorthandPattern .plain
    match ← defaultValue g with
    | none => return [target]
    | some value => return [← close .objectAssignmentPattern .plain at_ [target.as .left, value.as .right]]
  else
    let key ← propertyName g
    expect ":"
    let target ← withDefault g .value
    return [← close .pairPattern .plain at_ [key, target]]

def binding (g : Grammar) : Reader Node := do
  let at_ ← start
  if ← accept "\x7b" then
    close .objectPattern .plain at_ (← listUpTo "\x7d" "," (objectEntry g))
  else if ← accept "[" then
    close .other .plain at_ (← listUpTo "]" "," do
      discard (accept "...")
      return [← withDefault g .plain])
  else name .identifier .plain

/-! ## Parameters -/

def decorator (g : Grammar) : Reader Node := do
  let at_ ← start
  expect "@"
  close .other .plain at_ [← g .operand]

def decorators (g : Grammar) : Reader (List Node) :=
  collect do
    if ← sees "@" then return some (← decorator g) else return none

/-- Takes the words that may stand before a parameter of a constructor. -/
def passModifiers : Nat → Reader Unit
  | 0 => failure
  | n + 1 => do
    let t ← ahead
    let u := t.next
    if t.isOneOf ["public", "private", "protected", "readonly", "override"] &&
        (u.kind = .word || u.isOneOf ["[", "\x7b"]) then
      discard take
      passModifiers n

def parameter (g : Grammar) : Reader (List Node) := do
  let marks ← decorators g
  passModifiers (← limit)
  let at_ ← start
  discard (accept "...")
  let target ← if ← sees "this" then leaf .other .plain else g .binding
  discard (accept "?")
  Annotation.annotation g
  match ← defaultValue g with
  | none => return marks ++ [target]
  | some value => return marks ++ [← close .other .plain at_ [target, value]]

/-- A parameter list with its parentheses. -/
def parameters (g : Grammar) : Reader Node := do
  let at_ ← start
  expect "("
  close .other .plain at_ (← listUpTo ")" "," (parameter g))

/-! ## Expressions that turn out to be patterns -/

mutual

/-- The pattern that an expression on the left of an assignment is. -/
def asPattern : Node → Node
  | .mk .object l t s cs => .mk .objectPattern l t s (entryPatterns cs)
  | .mk .array l t s cs => .mk .other l t s (elementPatterns cs)
  | .mk .assignment l t s (target :: value) => .mk .assignmentPattern l t s (asPattern target :: value)
  | .mk .spread l t s cs => .mk .other l t s (elementPatterns cs)
  | n => n

def elementPatterns : List Node → List Node
  | [] => []
  | n :: ns => asPattern n :: elementPatterns ns

def entryPatterns : List Node → List Node
  | [] => []
  | .mk .shorthand l t s cs :: ns => .mk .shorthandPattern l t s cs :: entryPatterns ns
  | .mk .pair l t s cs :: ns => .mk .pairPattern l t s (elementPatterns cs) :: entryPatterns ns
  | n :: ns => asPattern n :: entryPatterns ns

end

end RouteAtlas.Syntax.Binding
