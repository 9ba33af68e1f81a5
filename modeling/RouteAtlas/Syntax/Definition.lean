import RouteAtlas.Syntax.Binding

/-!
# Functions and classes

The shapes that hold code of their own: functions, arrow functions, methods and class bodies.
-/

set_option autoImplicit false

namespace RouteAtlas.Syntax.Definition

open Reader Binding

/-- Type parameters, parameters and the type of the result. -/
def signature (g : Grammar) : Reader Node := do
  Annotation.passAnglesIfAny
  let ps ← parameters g
  Annotation.annotation g
  return ps

/-- A function from the word `function` on; `start` is where its modifiers begin.  Without a body it
is a declaration of its type. -/
def function (g : Grammar) (isDeclaration : Bool) (start : Nat) : Reader Node := do
  expect "function"
  let generates ← accept "*"
  let called ← attempt (name .identifier .name)
  let ps ← signature g
  if ← sees "\x7b" then
    let body ← g .block
    let kind :=
      match isDeclaration, generates with
      | true, false => Kind.functionDeclaration
      | true, true => .generatorDeclaration
      | false, false => .functionExpression
      | false, true => .generatorFunction
    close kind .plain start (called.toList ++ [ps, body.as .body])
  else if isDeclaration then
    discard (accept ";")
    close .other .plain start (called.toList ++ [ps])
  else failure

/-- The arrow and the body behind the parameters of an arrow function. -/
def arrowBody (g : Grammar) (limits : Limits) (start : Nat) (params : List Node) : Reader Node := do
  expect "=>"
  let body ← if ← sees "\x7b" then g .block else g (.assignment limits)
  close .arrowFunction .plain start (params ++ [body.as .body])

/-- An arrow function whose parameters stand in parentheses. -/
def arrow (g : Grammar) (limits : Limits) (start : Nat) : Reader Node := do
  Annotation.passAnglesIfAny
  let ps ← parameters g
  if !limits.noArrowType then Annotation.annotation g
  arrowBody g limits start [ps]

/-- Whether parentheses that start with these tokens may hold parameters. -/
def mayHoldParameters (opening : Token) : Bool :=
  let t := opening.next
  t.kind = .word || t.isOneOf [")", "\x7b", "[", "...", "@"]

/-! ## Members of classes and objects -/

/-- Whether the word before this token is a modifier and not itself a name. -/
def continuesMember (t : Token) : Bool :=
  (t.kind = .word || t.kind = .privateName || t.kind = .string || t.kind = .number ||
    t.isOneOf ["[", "*"])

/-- Takes the modifiers before the name of a member. -/
def passModifiers (words : List String) : Nat → Reader Unit
  | 0 => failure
  | n + 1 => do
    let t ← ahead
    if t.isOneOf words && continuesMember t.next then
      discard take
      passModifiers words n

/-- The rest of a method behind its name. -/
def method (g : Grammar) (start : Nat) (before : List Node) : Reader Node := do
  let ps ← signature g
  if ← sees "\x7b" then
    let body ← g .block
    close .method .plain start (before ++ [ps, body.as .body])
  else close .other .plain start (before ++ [ps])

/-- Whether a statement or a member may end here without a semicolon. -/
def mayEnd : Reader Bool := do
  let t ← ahead
  return t.kind = .ending || t.is "\x7d" || t.onNewLine

/-- The end of a statement: a semicolon, or a place where it can be left out. -/
def semicolon : Reader Unit := do
  if ← accept ";" then return
  if !(← mayEnd) then failure

def memberModifiers : List String :=
  ["static", "async", "get", "set", "readonly", "abstract", "declare", "override", "public",
    "private", "protected", "accessor"]

/-- `[key: T]: U` in a class body. -/
def indexSignature (g : Grammar) : Reader (List Node) := do
  let t ← ahead
  if t.is "[" && t.next.kind = .word && t.next.next.is ":" then
    Annotation.passBrackets
    Annotation.annotation g
    semicolon
    return []
  else failure

def member (g : Grammar) : Reader (List Node) := do
  let marks ← decorators g
  let at_ ← start
  let t ← ahead
  if t.is "static" && t.next.is "\x7b" then
    discard take
    return marks ++ [← close .other .plain at_ [← g .block]]
  passModifiers memberModifiers (← limit)
  match ← attempt (indexSignature g) with
  | some ns => return marks ++ ns
  | none =>
    discard (accept "*")
    let key ← propertyName g
    if !(← accept "?") then discard (accept "!")
    if ← seesOneOf ["(", "<"] then
      let m ← method g at_ [key.as .name]
      discard (accept ";")
      return marks ++ [m]
    else
      Annotation.annotation g
      let value ← defaultValue g
      let field ← close .other .plain at_ (key :: (value.map (Node.as .value)).toList)
      semicolon
      return marks ++ [field]

def classBody (g : Grammar) : Reader Node := do
  let at_ ← start
  expect "\x7b"
  let members ← collect do
    if ← accept "\x7d" then return none
    else if ← accept ";" then return some []
    else return some (← member g)
  close .other .plain at_ members.flatten

/-- What a class extends and the types it implements. -/
def heritage (g : Grammar) : Reader (List Node) := do
  let parent ←
    if ← accept "extends" then do
      let p ← g .operand
      Annotation.passAnglesIfAny
      pure [p]
    else pure []
  if ← accept "implements" then
    discard (collect do
      discard (g .type)
      return if ← accept "," then some () else none)
  return parent

/-- A class from the word `class` on. -/
def class' (g : Grammar) (kind : Kind) (start : Nat) (before : List Node) : Reader Node := do
  expect "class"
  let called ←
    if (← sees "implements") then pure none else attempt (name .identifier .name)
  Annotation.passAnglesIfAny
  let parents ← heritage g
  let body ← classBody g
  close kind .plain start (before ++ called.toList ++ parents ++ [body.as .body])

end RouteAtlas.Syntax.Definition
