import RouteAtlas.Syntax.Definition
import RouteAtlas.Syntax.Markup
import RouteAtlas.Syntax.Template

/-!
# Expressions

Operands with what may be written behind them, prefix and binary operators, conditionals and
assignments.  Binary operators only matter as far as they bound what a wrapper such as `as`
or `await` holds, so all of them are `other`.
-/

set_option autoImplicit false

namespace RouteAtlas.Syntax.Expression

open Reader Binding

/-- A spread element or an expression. -/
def element (g : Grammar) : Reader (List Node) := do
  let at_ ← start
  if ← accept "..." then
    return [← close .spread .plain at_ [← g (.assignment .none)]]
  else return [← g (.assignment .none)]

def arguments (g : Grammar) : Reader Node := do
  let at_ ← start
  expect "("
  close .arguments .arguments at_ (← listUpTo ")" "," (element g))

/-! ## Objects -/

/-- A member of an object literal. -/
def objectMember (g : Grammar) : Reader (List Node) := do
  let at_ ← start
  if ← accept "..." then
    return [← close .spread .plain at_ [← g (.assignment .none)]]
  Definition.passModifiers ["async", "get", "set"] (← limit)
  discard (accept "*")
  let t ← ahead
  let u := t.next
  if t.kind = .word && !u.isOneOf [":", "(", "<"] then
    let target ← leaf .shorthand .plain
    match ← defaultValue g with
    | none => return [target]
    | some value =>
      return [← close .objectAssignmentPattern .plain at_
        [(target.ofKind .shorthandPattern).as .left, value.as .right]]
  else
    let key ← propertyName g
    if ← accept ":" then
      let value ← g (.assignment .none)
      return [← close .pair .plain at_ [key, value.as .value]]
    else return [← Definition.method g at_ [key.as .name]]

def object (g : Grammar) : Reader Node := do
  let at_ ← start
  expect "\x7b"
  close .object .plain at_ (← listUpTo "\x7d" "," (objectMember g))

/-! ## Operands -/

/-- A pattern between slashes. -/
def pattern : Reader Node := do
  let t ← ahead
  match Token.patternLength false (t.here.drop 1) with
  | none => failure
  | some n =>
    let flags := Token.nameLength false (t.here.drop (n + 1))
    takeChars (n + 1 + flags)
    close .other .plain t.span.start []

def parenthesized (g : Grammar) : Reader Node := do
  let at_ ← start
  expect "("
  let inner ← g (.expression .none)
  Annotation.annotation g
  expect ")"
  close .parenthesized .plain at_ [inner]

/-- What starts with `async`. -/
def async (g : Grammar) (limits : Limits) : Reader Node := do
  let at_ ← start
  let t ← ahead
  let u := t.next
  if u.is "function" && !u.onNewLine then
    discard take
    Definition.function g false at_
  else if u.kind = .word && !u.onNewLine && u.next.is "=>" then
    discard take
    let p ← name .identifier .plain
    Definition.arrowBody g limits at_ [p]
  else
    let tried ←
      if u.is "<" || (u.is "(" && Definition.mayHoldParameters u) then
        attempt do
          discard take
          Definition.arrow g limits at_
      else pure none
    match tried with
    | some n => return n
    | none => leaf .identifier .plain

/-- `<T>x` where markup is not read. -/
def typeAssertion (g : Grammar) (limits : Limits) : Reader Node := do
  let at_ ← start
  Annotation.passAngles
  let types ← close .typeArguments .plain at_ []
  let inner ← g (.unary limits)
  close .typeAssertion .plain at_ [types, inner]

/-- What starts with `<`: a generic arrow function, markup or an asserted type. -/
def angled (g : Grammar) (limits : Limits) : Reader Node := do
  let at_ ← start
  let t ← ahead
  if (← read).markup then
    let afterName := t.next.next
    let tried ←
      if afterName.is "," || afterName.is "extends" then attempt (Definition.arrow g limits at_)
      else pure none
    match tried with
    | some n => return n
    | none => Markup.element g
  else Definition.arrow g limits at_ <|> typeAssertion g limits

/-- The words that denote a value of their own. -/
def valueWords : List String :=
  ["this", "super", "null", "true", "false", "undefined", "import"]

/-- An operand without anything behind it. -/
def primary (g : Grammar) (limits : Limits) : Reader Node := do
  let at_ ← start
  let t ← ahead
  match t.kind with
  | .number => leaf .other .plain
  | .string => leaf .string .plain
  | .privateName => leaf .privateName .plain
  | .backquote => Template.literal g .plain
  | .word =>
    if t.is "function" then Definition.function g false at_
    else if t.is "class" then Definition.class' g .classExpression at_ []
    else if t.is "async" then async g limits
    else if valueWords.contains t.text then leaf .other .plain
    else
      let n ← name .identifier .plain
      if ← sees "=>" then Definition.arrowBody g limits at_ [n] else return n
  | .mark =>
    if t.is "(" then
      let tried ←
        if Definition.mayHoldParameters t then attempt (Definition.arrow g limits at_) else pure none
      match tried with
      | some n => return n
      | none => parenthesized g
    else if t.is "[" then
      discard take
      close .array .plain at_ (← listUpTo "]" "," (element g))
    else if t.is "\x7b" then object g
    else if t.text.startsWith "/" then pattern
    else if t.text.startsWith "<" then angled g limits
    else if t.is "@" then
      let marks ← decorators g
      Definition.class' g .classExpression at_ marks
    else failure
  | _ => failure

/-! ## What may stand behind an operand -/

def propertyLeaf : Reader Node := do
  match (← ahead).kind with
  | .word => leaf .propertyName .property
  | .privateName => leaf .privateName .property
  | _ => failure

def subscript (g : Grammar) (at_ : Nat) (object : Node) : Reader Node := do
  expect "["
  let index ← g (.expression .none)
  expect "]"
  close .subscript .plain at_ [object.as .object, index]

def call (g : Grammar) (at_ : Nat) (callee : Node) : Reader Node := do
  let given ← if (← ahead).kind = .backquote then Template.literal g .arguments else arguments g
  close .call .plain at_ [callee.as .callee, given]

/-- Type arguments behind an operand, when what follows shows that they are no comparison. -/
def typeArguments : Reader Unit := do
  Annotation.passAngles
  let t ← ahead
  if t.kind = .backquote || t.kind = .ending ||
      t.isOneOf ["(", ")", "]", "\x7d", ",", ";", ":", "?", "=", "==", "===", "!=", "!==", "&&",
        "||", "??", "?."] then return
  else failure

/-- One more step behind an operand; `calls` tells whether it may be called. -/
def suffix (g : Grammar) (calls : Bool) (at_ : Nat) (node : Node) : Reader (Option Node) := do
  let t ← ahead
  if t.is "." then
    discard take
    return some (← close .member .plain at_ [node.as .object, ← propertyLeaf])
  else if t.is "?." then
    if !calls then return none
    discard take
    let u ← ahead
    if u.is "[" then return some (← subscript g at_ node)
    else if u.is "(" || u.is "<" || u.kind = .backquote then
      Annotation.passAnglesIfAny
      return some (← call g at_ node)
    else return some (← close .member .plain at_ [node.as .object, ← propertyLeaf])
  else if t.is "[" then return some (← subscript g at_ node)
  else if t.is "(" then
    if calls then return some (← call g at_ node) else return none
  else if t.kind = .backquote then return some (← call g at_ node)
  else if t.is "!" && !t.onNewLine then
    discard take
    return some (← close .nonNull .plain at_ [node])
  else if calls && (t.is "<" || t.is "<<") then
    match ← attempt typeArguments with
    | none => return none
    | some _ =>
      let u ← ahead
      if u.is "(" || u.kind = .backquote then return some (← call g at_ node)
      else return some (← close .other .plain at_ [node])
  else return none

/-- `new C(…)`. -/
def construction (g : Grammar) (limits : Limits) : Nat → Reader Node
  | 0 => failure
  | n + 1 => do
    let at_ ← start
    expect "new"
    if ← accept "." then
      discard take
      close .other .plain at_ []
    else
      let inner ← start
      let first ← if ← sees "new" then construction g limits n else primary g limits
      let class' ← grow (suffix g false inner) first
      if ← sees "<" then discard (attempt typeArguments)
      let given ← if ← sees "(" then pure [← arguments g] else pure []
      close .other .plain at_ (class' :: given)

/-- An operand with all that stands behind it. -/
def operand (g : Grammar) (limits : Limits) : Reader Node := do
  let at_ ← start
  let first ← if ← sees "new" then construction g limits (← limit) else primary g limits
  grow (suffix g true at_) first

/-! ## Operators -/

def unaryWords : List String :=
  ["!", "~", "+", "-", "++", "--", "typeof", "void", "delete"]

def unary (g : Grammar) (limits : Limits) : Reader Node := do
  let at_ ← start
  let t ← ahead
  if t.isOneOf unaryWords then
    discard take
    close .other .plain at_ [← g (.unary limits)]
  else if t.is "await" then
    discard take
    close .await .plain at_ [← g (.unary limits)]
  else
    let inner ← operand g limits
    let u ← ahead
    if u.isOneOf ["++", "--"] && !u.onNewLine then
      discard take
      close .other .plain at_ [inner]
    else return inner

/-- How tightly a binary operator binds. -/
def strength? (limits : Limits) (t : Token) : Option Nat :=
  if t.kind = .mark then
    match t.text with
    | "??" => some 1
    | "||" => some 2
    | "&&" => some 3
    | "|" => some 4
    | "^" => some 5
    | "&" => some 6
    | "==" | "!=" | "===" | "!==" => some 7
    | "<" | ">" | "<=" | ">=" => some 8
    | "<<" | ">>" | ">>>" => some 9
    | "+" | "-" => some 10
    | "*" | "/" | "%" => some 11
    | "**" => some 12
    | _ => none
  else if t.kind = .word then
    match t.text with
    | "in" => if limits.noIn then none else some 8
    | "instanceof" => some 8
    | "as" | "satisfies" => if t.onNewLine then none else some 8
    | _ => none
  else none

/-- The operator and the right side that may follow on one level of strength. -/
def operation (g : Grammar) (limits : Limits) (right : Reader Node) (level at_ : Nat) (left : Node) :
    Reader (Option Node) := do
  let t ← ahead
  if strength? limits t ≠ some level then return none
  discard take
  if t.is "as" || t.is "satisfies" then
    let kind := if t.is "as" then Kind.asCast else .satisfies
    if ← accept "const" then return some (← close kind .plain at_ [left])
    else return some (← close kind .plain at_ [left, ← g .type])
  else return some (← close .other .plain at_ [left, ← right])

/-- Binary operators of the `n` strongest levels, of twelve. -/
def binary (g : Grammar) (limits : Limits) : Nat → Reader Node
  | 0 => g (.unary limits)
  | n + 1 => do
    let at_ ← start
    let first ← binary g limits n
    grow (operation g limits (binary g limits n) (12 - n) at_) first

def updates : List String :=
  ["+=", "-=", "*=", "/=", "%=", "**=", "<<=", ">>=", ">>>=", "&=", "|=", "^=", "&&=", "||=", "??="]

/-- Whether an operand of `yield` may start with this token. -/
def startsOperand (t : Token) : Bool :=
  !(t.onNewLine || t.kind = .ending || t.isOneOf [")", "]", "\x7d", ",", ";", ":", "in", "of"])

def yielded (g : Grammar) (limits : Limits) : Reader Node := do
  let at_ ← start
  expect "yield"
  let all ← accept "*"
  if all || startsOperand (← ahead) then
    close .other .plain at_ [← g (.assignment limits)]
  else close .other .plain at_ []

/-- The middle of a conditional and the colon behind it. -/
def consequence (g : Grammar) (noArrowType : Bool) : Reader Node := do
  let n ← g (.assignment ⟨false, noArrowType⟩)
  expect ":"
  return n

/-- An expression without commas at the top. -/
def assignment (g : Grammar) (limits : Limits) : Reader Node := do
  if ← sees "yield" then yielded g limits
  else
    let at_ ← start
    let left ← binary g limits 12
    let t ← ahead
    if t.is "=" then
      discard take
      let right ← g (.assignment limits)
      close .assignment .plain at_ [(asPattern left).as .left, right.as .right]
    else if t.isOneOf updates then
      discard take
      close .other .plain at_ [left, ← g (.assignment limits)]
    else if t.is "?" then
      discard take
      let middle ← consequence g false <|> consequence g true
      close .other .plain at_ [left, middle, ← g (.assignment limits)]
    else return left

/-- Expressions separated by commas. -/
def expression (g : Grammar) (limits : Limits) : Reader Node := do
  let at_ ← start
  let first ← g (.assignment limits)
  let more ← collect do
    if ← accept "," then return some (← g (.assignment limits)) else return none
  if more.isEmpty then return first else close .other .plain at_ (first :: more)

end RouteAtlas.Syntax.Expression
