import RouteAtlas.Syntax.Expression

/-!
# Statements and declarations

What a module consists of: bindings, functions and classes, control flow, imports and exports, and
the declarations that only concern types.
-/

set_option autoImplicit false

namespace RouteAtlas.Syntax.Statement

open Reader Binding Definition

/-! ## Bindings -/

/-- A binding with its initial value. -/
def declarator (g : Grammar) (limits : Limits) : Reader Node := do
  let at_ ← start
  let target ← g .binding
  discard (accept "!")
  Annotation.annotation g
  let value ← if ← accept "=" then some <$> g (.assignment limits) else pure none
  close .declarator .plain at_ (target.as .name :: (value.map (Node.as .value)).toList)

/-- Bindings separated by commas. -/
def declarators (g : Grammar) (limits : Limits) : Reader (List Node) := do
  let first ← declarator g limits
  let more ← collect do
    if ← accept "," then return some (← declarator g limits) else return none
  return first :: more

/-- Whether `let` at this place starts a declaration. -/
def startsLet (t : Token) : Bool :=
  let u := t.next
  t.is "let" && (u.isOneOf ["[", "\x7b"] ||
    (u.kind = .word && !u.isOneOf ["in", "instanceof", "of"]))

def bindings (g : Grammar) (kind : Kind) : Reader Node := do
  let at_ ← start
  discard take
  let ns ← declarators g .none
  let n ← close kind .plain at_ ns
  semicolon
  return n

/-! ## Types and namespaces -/

/-- `type T = …` -/
def typeAlias (g : Grammar) : Reader Node := do
  let at_ ← start
  discard take
  discard take
  Annotation.passAnglesIfAny
  expect "="
  discard (g .type)
  let n ← close .other .plain at_ []
  semicolon
  return n

/-- `interface I extends J { … }` -/
def interface (g : Grammar) : Reader Node := do
  let at_ ← start
  discard take
  discard take
  Annotation.passAnglesIfAny
  if ← accept "extends" then
    discard (collect do
      discard (g .type)
      return if ← accept "," then some () else none)
  Annotation.passBrackets
  close .other .plain at_ []

def enumeration (g : Grammar) : Reader Node := do
  let at_ ← start
  discard (accept "const")
  expect "enum"
  discard take
  expect "\x7b"
  close .other .plain at_ (← listUpTo "\x7d" "," do
    let key ← propertyName g
    return key :: (← defaultValue g).toList)

/-- A namespace or the declaration of a module. -/
def namespace' (g : Grammar) : Reader Node := do
  let at_ ← start
  discard take
  discard take
  Annotation.passQualifiers (← limit)
  if ← sees "\x7b" then close .other .plain at_ [← g .block]
  else
    semicolon
    close .other .plain at_ []

/-! ## Imports -/

/-- `from 'm'` -/
def origin : Reader Node := do
  expect "from"
  leafOf .string .string .source

/-- `with { … }` behind the name of a module. -/
def importAttributes (g : Grammar) : Reader (List Node) := do
  let t ← ahead
  if t.is "with" || (t.is "assert" && !t.onNewLine) then
    discard take
    return [← g .operand]
  else return []

/-- The name of something exported: a name or a text. -/
def exportedName (label : Label) : Reader Node := do
  match (← ahead).kind with
  | .word => leaf .identifier label
  | .string => leaf .string label
  | _ => failure

/-- Whether `type` in front of this token marks what is imported as a type. -/
def marksType (t : Token) : Bool :=
  t.isOneOf ["type", "typeof"] &&
    (let u := t.next
     (u.kind = .word || u.kind = .string) && (!u.is "as" || u.next.isOneOf ["as", "\x7d", ","]))

/-- An imported or exported name, perhaps under another name. -/
def specifier (kind : Kind) : Reader Node := do
  let at_ ← start
  if marksType (← ahead) then discard take
  let called ← exportedName .name
  if ← accept "as" then close kind .plain at_ [called, ← exportedName .rename]
  else close kind .plain at_ [called]

def namedList (kind item : Kind) : Reader Node := do
  let at_ ← start
  expect "\x7b"
  close kind .plain at_ (← listUpTo "\x7d" "," do return [← specifier item])

def namespaceImport : Reader Node := do
  let at_ ← start
  expect "*"
  expect "as"
  close .namespaceImport .plain at_ [← leafOf .word .identifier .plain]

def importedNames : Reader Node := do
  if ← sees "*" then namespaceImport else namedList .namedImports .importSpecifier

def importClause : Reader Node := do
  let at_ ← start
  if ← seesOneOf ["*", "\x7b"] then close .importClause .plain at_ [← importedNames]
  else
    let first ← leafOf .word .identifier .plain
    if ← accept "," then close .importClause .plain at_ [first, ← importedNames]
    else close .importClause .plain at_ [first]

/-- `x = require('m')` -/
def importRequire : Reader Node := do
  let at_ ← start
  let called ← leafOf .word .identifier .plain
  expect "="
  expect "require"
  expect "("
  let source ← leafOf .string .string .source
  expect ")"
  close .importRequire .plain at_ [called, source]

def importStatement (g : Grammar) : Reader Node := do
  let at_ ← start
  expect "import"
  let t ← ahead
  if t.isOneOf ["type", "typeof"] &&
      (t.next.isOneOf ["\x7b", "*"] || (t.next.kind = .word && !t.next.is "from") ||
        (t.next.is "from" && t.next.next.is "from")) then discard take
  let parts ←
    if (← ahead).kind = .string then pure [← leaf .string .source]
    else
      match ← attempt importRequire with
      | some n => pure [n]
      | none =>
        if (← second).is "=" then
          discard take
          discard take
          pure [← g .operand]
        else
          let clause ← importClause
          pure [clause, ← origin]
  let attributes ← importAttributes g
  let n ← close .importStatement .plain at_ (parts ++ attributes)
  semicolon
  return n

/-! ## Exports -/

/-- The words that start a declaration wherever they stand. -/
def startsDeclaration (t : Token) : Bool :=
  let u := t.next
  t.isOneOf ["var", "const", "function", "class", "enum", "import"] || startsLet t ||
    (t.is "async" && u.is "function") ||
    (t.isOneOf ["type", "interface", "namespace", "module", "declare", "abstract"] &&
      !u.onNewLine && (u.kind = .word || u.kind = .string)) || t.is "@"

/-- A value behind `export default`, or the declaration it is when it has a name. -/
def defaultExport (g : Grammar) : Reader (List Node) := do
  let t ← ahead
  let afterFunction := if t.is "async" then t.next.next else t.next
  let afterStar := if afterFunction.is "*" then afterFunction.next else afterFunction
  let isFunction := t.is "function" || (t.is "async" && t.next.is "function")
  if (isFunction && afterStar.kind = .word) ||
      (t.is "class" && t.next.kind = .word && !t.next.isOneOf ["extends", "implements"]) ||
      (t.isOneOf ["interface", "abstract"] && t.next.kind = .word) then
    return [(← g .statement).as .declaration]
  else
    let value ← g (.assignment .none)
    return [value.as .value]

def exportStatement (g : Grammar) (start : Nat) (before : List Node) : Reader Node := do
  expect "export"
  let t ← ahead
  if t.is "default" then
    discard take
    let parts ← defaultExport g
    let n ← close .exportStatement .plain start (before ++ parts)
    discard (accept ";")
    return n
  else if t.is "=" then
    let mark ← leaf .token .plain
    let value ← g (.expression .none)
    let n ← close .exportStatement .plain start (before ++ [mark, value])
    semicolon
    return n
  else if t.is "*" then
    discard take
    let renamed ← if ← accept "as" then pure [← exportedName .plain] else pure []
    let source ← origin
    let attributes ← importAttributes g
    let n ← close .exportStatement .plain start (renamed ++ source :: attributes)
    semicolon
    return n
  else if t.is "\x7b" || (t.is "type" && t.next.is "\x7b") then
    discard (accept "type")
    let clause ← namedList .exportClause .exportSpecifier
    let source ← if ← sees "from" then pure (some (← origin)) else pure none
    let attributes ← if source.isSome then importAttributes g else pure []
    let n ← close .exportStatement .plain start (clause :: source.toList ++ attributes)
    semicolon
    return n
  else if t.is "as" && t.next.is "namespace" then
    discard take
    discard take
    let called ← leafOf .word .identifier .plain
    let n ← close .exportStatement .plain start [called]
    semicolon
    return n
  else if startsDeclaration t then
    let d ← g .statement
    close .exportStatement .plain start (before ++ [d.as .declaration])
  else failure

/-! ## Control flow -/

/-- An expression in parentheses. -/
def condition (g : Grammar) : Reader Node := do
  let at_ ← start
  expect "("
  let inner ← g (.expression .none)
  expect ")"
  close .parenthesized .plain at_ [inner]

def ifStatement (g : Grammar) : Reader Node := do
  let at_ ← start
  expect "if"
  let c ← condition g
  let yes ← g .statement
  if ← accept "else" then close .other .plain at_ [c, yes, ← g .statement]
  else close .other .plain at_ [c, yes]

def doStatement (g : Grammar) : Reader Node := do
  let at_ ← start
  expect "do"
  let body ← g .statement
  expect "while"
  let c ← condition g
  discard (accept ";")
  close .other .plain at_ [body, c]

/-- `while` and `with`. -/
def headedStatement (g : Grammar) : Reader Node := do
  let at_ ← start
  discard take
  let c ← condition g
  close .other .plain at_ [c, ← g .statement]

/-- The rest of a loop head behind its variable, when it runs over the parts of a value. -/
def loopOver (g : Grammar) : Reader (Option Node) := do
  if ← seesOneOf ["of", "in"] then
    discard take
    return some (← g (.expression .none))
  else return none

/-- What a loop head starts with, and the value it runs over, if it does. -/
def loopStart (g : Grammar) : Reader (List Node × Bool) := do
  let at_ ← start
  let t ← ahead
  if t.is ";" then return ([], false)
  else if t.isOneOf ["var", "const"] || startsLet t then
    let head ← attempt do
      discard take
      let target ← g .binding
      Annotation.annotation g
      let some value ← loopOver g | failure
      return [target, value]
    match head with
    | some ns => return (ns, true)
    | none =>
      discard take
      let kind := if t.is "var" then Kind.variableDeclaration else .lexicalDeclaration
      return ([← close kind .plain at_ (← declarators g ⟨true, false⟩)], false)
  else
    let first ← g (.expression ⟨true, false⟩)
    match ← loopOver g with
    | some value => return ([asPattern first, value], true)
    | none => return ([first], false)

/-- An expression that may be missing before the given mark. -/
def optionalUpTo (g : Grammar) (mark : String) : Reader (List Node) := do
  if ← accept mark then return []
  let n ← g (.expression .none)
  expect mark
  return [n]

def forStatement (g : Grammar) : Reader Node := do
  let at_ ← start
  expect "for"
  discard (accept "await")
  expect "("
  let (head, isOver) ← loopStart g
  let rest ←
    if isOver then
      expect ")"
      pure []
    else
      expect ";"
      let test ← optionalUpTo g ";"
      let update ← optionalUpTo g ")"
      pure (test ++ update)
  close .other .plain at_ (head ++ rest ++ [← g .statement])

def switchStatement (g : Grammar) : Reader Node := do
  let at_ ← start
  expect "switch"
  let c ← condition g
  expect "\x7b"
  let inner ← collect do
    if ← accept "\x7d" then return none
    else if ← accept "case" then
      let test ← g (.expression .none)
      expect ":"
      return some test
    else if (← sees "default") && (← second).is ":" then
      discard take
      discard take
      return some (.mk .other .plain "" ⟨← position, ← position⟩ [])
    else return some (← g .statement)
  close .other .plain at_ (c :: inner)

def tryStatement (g : Grammar) : Reader Node := do
  let at_ ← start
  expect "try"
  let body ← g .block
  let handler ←
    if ← accept "catch" then do
      let p ←
        if ← accept "(" then do
          let p ← g .binding
          Annotation.annotation g
          expect ")"
          pure [p]
        else pure []
      pure (p ++ [← g .block])
    else pure []
  let last ← if ← accept "finally" then pure [← g .block] else pure []
  close .other .plain at_ (body :: handler ++ last)

/-- Whether a line end before this token ends the statement even though the statement could go on:
a few marks can only continue an expression. -/
def endsByLine (t : Token) : Bool :=
  t.onNewLine && !(t.kind = .backquote ||
    (t.kind = .mark &&
      (t.text.startsWith "<" || t.text.startsWith "/" || t.text = "+" || t.text = "-")))

def returnStatement (g : Grammar) : Reader Node := do
  let at_ ← start
  expect "return"
  let t ← ahead
  if t.kind = .ending || t.isOneOf [";", "\x7d"] || endsByLine t then
    let n ← close .returnStatement .plain at_ []
    discard (accept ";")
    return n
  else
    let value ← g (.expression .none)
    let n ← close .returnStatement .plain at_ [value]
    semicolon
    return n

def throwStatement (g : Grammar) : Reader Node := do
  let at_ ← start
  expect "throw"
  let value ← g (.expression .none)
  let n ← close .other .plain at_ [value]
  semicolon
  return n

/-- `break`, `continue` and `debugger`. -/
def jump : Reader Node := do
  let at_ ← start
  discard take
  let t ← ahead
  if t.kind = .word && !t.onNewLine then discard take
  let n ← close .other .plain at_ []
  semicolon
  return n

def expressionStatement (g : Grammar) : Reader Node := do
  let at_ ← start
  let inner ← g (.expression .none)
  semicolon
  close .other .plain at_ [inner]

def block (g : Grammar) : Reader Node := do
  let at_ ← start
  expect "\x7b"
  let inner ← collect do
    if ← accept "\x7d" then return none else return some (← g .statement)
  close .block .plain at_ inner

/-! ## All statements -/

/-- A class or an export behind its decorators. -/
def decorated (g : Grammar) : Reader Node := do
  let at_ ← start
  let marks ← decorators g
  if ← sees "export" then exportStatement g at_ marks
  else if ← accept "abstract" then class' g .other at_ marks
  else class' g .classDeclaration at_ marks

/-- A statement behind `declare`. -/
def ambient (g : Grammar) : Reader Node := do
  let at_ ← start
  discard take
  if (← sees "global") && (← second).is "\x7b" then
    discard take
    close .other .plain at_ [← g .block]
  else close .other .plain at_ [← g .statement]

/-- The words that can start a statement and can be names as well, each with what must follow. -/
def contextual (g : Grammar) (t u : Token) : Option (Reader Node) :=
  if u.onNewLine then none
  else if t.is "type" && u.kind = .word && u.next.isOneOf ["=", "<"] then some (typeAlias g)
  else if t.is "interface" && u.kind = .word then some (interface g)
  else if t.is "namespace" && u.kind = .word then some (namespace' g)
  else if t.is "module" && (u.kind = .word || u.kind = .string) then some (namespace' g)
  else if t.is "abstract" && u.is "class" then some do
    let at_ ← start
    discard take
    class' g .other at_ []
  else if t.is "declare" && (u.kind = .word) then some (ambient g)
  else if t.is "async" && u.is "function" then some do
    let at_ ← start
    discard take
    function g true at_
  else none

def statement (g : Grammar) : Reader Node := do
  let at_ ← start
  let t ← ahead
  let u := t.next
  match t.kind with
  | .mark =>
    if t.is ";" then leaf .other .plain
    else if t.is "\x7b" then block g
    else if t.is "@" then decorated g
    else expressionStatement g
  | .word =>
    match contextual g t u with
    | some r => r
    | none =>
      if startsLet t then bindings g .lexicalDeclaration
      else if u.is ":" && !reserved.contains t.text then
        discard take
        discard take
        close .other .plain at_ [← g .statement]
      else
        match t.text with
        | "var" => bindings g .variableDeclaration
        | "const" => if u.is "enum" then enumeration g else bindings g .lexicalDeclaration
        | "enum" => enumeration g
        | "function" => function g true at_
        | "class" => class' g .classDeclaration at_ []
        | "import" => if u.is "(" || u.is "." then expressionStatement g else importStatement g
        | "export" => exportStatement g at_ []
        | "if" => ifStatement g
        | "while" | "with" => headedStatement g
        | "do" => doStatement g
        | "for" => forStatement g
        | "switch" => switchStatement g
        | "try" => tryStatement g
        | "throw" => throwStatement g
        | "return" => returnStatement g
        | "break" | "continue" | "debugger" => jump
        | _ => expressionStatement g
  | _ => expressionStatement g

end RouteAtlas.Syntax.Statement
