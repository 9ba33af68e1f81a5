import RouteAtlas.Syntax.Annotation

/-!
# Markup

Elements written inside expressions.  Names, attributes and running text say nothing about routes;
what stands in braces and nested elements do, and are the children of an element.
-/

set_option autoImplicit false

namespace RouteAtlas.Syntax.Markup

open Reader

/-- Takes the name of an element or an attribute. -/
def passName : Nat → Reader Unit
  | 0 => failure
  | n + 1 => do
    if (← ahead).kind = .word then
      discard take
      if ← seesOneOf [".", ":", "-", "--"] then
        discard take
        passName n
    else failure

/-- An expression, a spread or nothing in braces. -/
def inBraces (g : Grammar) : Reader Node := do
  let at_ ← start
  expect "\x7b"
  if ← accept "\x7d" then close .other .plain at_ []
  else
    let inner ← (do
      if ← accept "..." then g (.assignment .none) else g (.expression .none))
    expect "\x7d"
    close .other .plain at_ [inner]

/-- Takes a quoted value, in which nothing is escaped. -/
def passQuoted : Reader Unit := do
  match (← ahead).here with
  | q :: cs =>
    if q = '"' || q = '\'' then
      let inner := cs.takeWhile (· ≠ q)
      if inner.length = cs.length then failure else takeChars (inner.length + 2)
    else failure
  | [] => failure

def attributes (g : Grammar) : Reader (List Node) := do
  let found ← collect do
    if ← seesOneOf [">", "/", ">=", ">>"] then return none
    else if ← sees "\x7b" then return some [← inBraces g]
    else
      passName (← limit)
      if ← accept "=" then
        if ← sees "\x7b" then return some [← inBraces g]
        else if ← sees "<" then return some [← g .operand]
        else
          passQuoted
          return some []
      else return some []
  return found.flatten

/-- Takes a closing angle bracket and nothing behind it. -/
def passAngle : Reader Unit := do
  let t ← ahead
  if t.kind = .mark && t.text.startsWith ">" then takeChars 1 else failure

/-- Takes the running text of an element. -/
def passText : Reader Unit := do
  let p ← get
  let n := (p.rest.takeWhile fun c => c ≠ '<' && c ≠ '\x7b').length
  goTo (p.position + n) (p.rest.drop n)

/-- The contents of an element up to its closing tag, which is taken. -/
def contents (g : Grammar) : Reader (List Node) :=
  collect do
    passText
    let t ← ahead
    if t.is "\x7b" then return some (← inBraces g)
    else if t.is "<" && t.next.is "/" then
      discard take
      discard take
      if !(← seesOneOf [">", ">=", ">>"]) then passName (← limit)
      passAngle
      return none
    else return some (← g .operand)

def element (g : Grammar) : Reader Node := do
  let at_ ← start
  expect "<"
  if ← seesOneOf [">", ">=", ">>"] then
    passAngle
    close .other .plain at_ (← contents g)
  else
    passName (← limit)
    if ← sees "<" then Annotation.passAngles
    let given ← attributes g
    if ← accept "/" then
      passAngle
      close .other .plain at_ given
    else
      passAngle
      close .other .plain at_ (given ++ (← contents g))

end RouteAtlas.Syntax.Markup
