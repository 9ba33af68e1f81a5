import RouteAtlas.Syntax.Reader

/-!
# Types

A type says nothing about routes, so it is read only to find where it ends.  Bracketed parts are
passed over by counting brackets; what is left is names, literals and the operators between them.
-/

set_option autoImplicit false

namespace RouteAtlas.Syntax.Annotation

open Reader

/-- Takes a template literal that holds nothing of interest. -/
def passTemplate : Reader Unit := do
  let t ← take
  match Token.templateLength 0 t.rest with
  | some n => goTo (t.span.stop + n) (t.rest.drop n)
  | none => failure

/-- Takes tokens until `depth` open brackets are closed; with `angles`, `<` and `>` are brackets. -/
def passAtMost (angles : Bool) : Nat → Nat → Reader Unit
  | 0, _ => failure
  | n + 1, depth => do
    let t ← ahead
    if t.kind = .ending then failure
    else if t.kind = .backquote then
      passTemplate
      passAtMost angles n depth
    else if angles && t.kind = .mark && t.text.startsWith "<" then
      takeChars 1
      passAtMost angles n (depth + 1)
    else if angles && t.kind = .mark && t.text.startsWith ">" then
      takeChars 1
      if depth ≤ 1 then return else passAtMost angles n (depth - 1)
    else
      discard take
      if t.isOneOf ["(", "[", "\x7b"] then passAtMost angles n (depth + 1)
      else if t.isOneOf [")", "]", "\x7d"] then
        if depth ≤ 1 then return else passAtMost angles n (depth - 1)
      else passAtMost angles n depth

/-- Takes a bracketed part, from the opening bracket to the one that closes it. -/
def passBrackets : Reader Unit := do
  if ← seesOneOf ["(", "[", "\x7b"] then passAtMost false (← limit) 0 else failure

/-- Takes a part in angle brackets. -/
def passAngles : Reader Unit := do
  if (← sees "<") || (← sees "<<") then passAtMost true (← limit) 0 else failure

def passAnglesIfAny : Reader Unit := do
  if ← sees "<" then passAngles

/-- Whether the next token stands on the line of the one before it. -/
def onSameLine : Reader Bool := return !(← ahead).onNewLine

/-- Takes the dotted rest of a name. -/
def passQualifiers : Nat → Reader Unit
  | 0 => failure
  | n + 1 => do
    if (← sees ".") || (← sees "?.") then
      discard take
      discard take
      passQualifiers n

/-- Takes a type without operators between types. -/
def passOperand (g : Grammar) : Nat → Reader Unit
  | 0 => failure
  | n + 1 => do
    let t ← ahead
    let u := t.next
    match t.kind with
    | .backquote => passTemplate
    | .string | .number => discard take
    | .word =>
      discard take
      if t.isOneOf ["keyof", "unique", "readonly", "infer", "abstract", "new", "asserts"] &&
          (u.kind = .word || u.isOneOf ["(", "[", "\x7b", "<"]) && !u.onNewLine then
        passOperand g n
      else
        if t.is "typeof" then discard take
        if t.is "import" || u.is "import" then passBrackets
        passQualifiers n
        if (← onSameLine) then passAnglesIfAny
        if (← sees "is") && (← onSameLine) then
          discard take
          discard (g .type)
    | .mark =>
      if t.is "<" then
        passAngles
        passOperand g n
      else if t.is "(" then
        passBrackets
        if ← accept "=>" then discard (g .type)
      else if t.is "[" || t.is "\x7b" then passBrackets
      else if t.is "-" then
        discard take
        discard take
      else failure
    | _ => failure

/-- Takes the brackets of array and member types. -/
def passSuffixes : Nat → Reader Unit
  | 0 => failure
  | n + 1 => do
    if (← sees "[") && (← onSameLine) then
      passBrackets
      passSuffixes n

/-- Takes the members of a union or an intersection. -/
def passMembers (g : Grammar) : Nat → Reader Unit
  | 0 => failure
  | n + 1 => do
    passOperand g (← limit)
    passSuffixes (← limit)
    if ← seesOneOf ["|", "&"] then
      discard take
      passMembers g n

def type (g : Grammar) : Reader Node := do
  let at_ ← start
  if ← seesOneOf ["|", "&"] then discard take
  passMembers g (← limit)
  if (← sees "extends") && (← onSameLine) then
    discard take
    discard (g .type)
    if ← accept "?" then
      discard (g .type)
      expect ":"
      discard (g .type)
  close .other .plain at_ []

/-- The type behind a colon, if there is one. -/
def annotation (g : Grammar) : Reader Unit := do
  if ← accept ":" then discard (g .type)

end RouteAtlas.Syntax.Annotation
