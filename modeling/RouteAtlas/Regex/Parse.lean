import RouteAtlas.Regex.Basic

/-!
# Reading patterns

The written form of patterns.  Anything that has no meaning is refused as a whole: look-around,
back-references, escapes of letters that stand for nothing, a repetition of nothing, counts that
are malformed or out of order, ranges out of order, and brackets that do not close.

Settings such as `(?i)` hold up to the end of the group they stand in, across alternatives.
-/

set_option autoImplicit false

namespace RouteAtlas.Regex.Parse

open RouteAtlas.Text

structure Settings where
  ignoreCase : Bool
  multiLine : Bool
  dotAll : Bool
  swapGreed : Bool
  extended : Bool
  crlf : Bool
  unicode : Bool
  deriving DecidableEq, Inhabited

def Settings.start : Settings := ⟨false, false, false, false, false, false, true⟩

/-- How far the reading has come, the settings in force and the groups so far. -/
structure State where
  rest : List Char
  settings : Settings
  groups : Nat
  names : List (List Char)

abbrev Parser := StateT State Option

def peek : Parser (Option Char) := return (← get).rest.head?

def peekSecond : Parser (Option Char) := return (← get).rest.tail.head?

def drop (n : Nat) : Parser Unit := modify fun s => { s with rest := s.rest.drop n }

/-- Takes the next character. -/
def take : Parser Char := do
  match (← get).rest with
  | c :: cs =>
    modify fun s => { s with rest := cs }
    return c
  | [] => failure

/-- Takes a text if it is next. -/
def accept (text : String) : Parser Bool := do
  let s ← get
  if text.toList.isPrefixOf s.rest then
    drop text.length
    return true
  else return false

def expect (text : String) : Parser Unit := do
  if !(← accept text) then failure

/-- What is left after blanks and comments of an extended pattern. -/
def skipBlanks : Bool → List Char → List Char
  | _, [] => []
  | true, c :: cs => if c = '\n' then skipBlanks false cs else skipBlanks true cs
  | false, c :: cs =>
    if c = '#' then skipBlanks true cs else if isBlank c then skipBlanks false cs else c :: cs

/-- Passes blanks and comments when the settings say that they mean nothing. -/
def passBlanks : Parser Unit :=
  modify fun s => if s.settings.extended then { s with rest := skipBlanks false s.rest } else s

/-- The next character but one, blanks passed. -/
def peekPastBlanks : Parser (Option Char) := do
  let s ← get
  let rest := s.rest.tail
  return (if s.settings.extended then skipBlanks false rest else rest).head?

/-! ## Escapes -/

/-- What an escape stands for. -/
inductive Escape
  | literal (c : Char)
  | set (s : CharSet)
  | anchor (a : Anchor)

def hexValue? (c : Char) : Option Nat :=
  if c.isDigit then some (c.toNat - '0'.toNat)
  else if 'a' ≤ c && c ≤ 'f' then some (c.toNat - 'a'.toNat + 10)
  else if 'A' ≤ c && c ≤ 'F' then some (c.toNat - 'A'.toNat + 10)
  else none

/-- The character with a code in hexadecimal digits. -/
def hexChar? (ds : List Char) : Option Char := do
  guard (!ds.isEmpty)
  let n ← ds.foldlM (fun n d => (hexValue? d).map (16 * n + ·)) 0
  if n.isValidChar then some (Char.ofNat n) else none

/-- A character code behind `x`, `u` or `U`, in braces or of fixed length.  Two digits are a byte
where characters do not count, and only ASCII bytes are text. -/
def hexCode (digits : Nat) : Parser Char := do
  passBlanks
  let s ← get
  match s.rest with
  | '\x7b' :: cs =>
    let ds := cs.takeWhile (· ≠ '\x7d')
    let some c := hexChar? ds | failure
    if ds.length = cs.length then failure
    drop (ds.length + 2)
    return c
  | _ =>
    let ds := s.rest.take digits
    if ds.length < digits then failure
    let some c := hexChar? ds | failure
    if digits = 2 && !s.settings.unicode && 128 ≤ c.toNat then failure
    drop digits
    return c

/-- Whether an escaped character of this kind stands for itself. -/
def isEscapable (c : Char) : Bool :=
  c.toNat < 128 && !c.isAlphanum && c ≠ '<' && c ≠ '>'

/-- The kinds of word boundaries that have a name in braces. -/
def namedEdge? : String → Option Anchor
  | "start" => some .wordStart
  | "end" => some .wordEnd
  | "start-half" => some .wordStartHalf
  | "end-half" => some .wordEndHalf
  | _ => none

/-- A word boundary behind `\b`; braces that hold no name are a count. -/
def wordEdge : Parser Anchor := do
  match (← get).rest with
  | '\x7b' :: cs =>
    let name := cs.takeWhile fun c => c.isAlpha || c = '-'
    if name.isEmpty then return .wordEdge
    match cs.drop name.length, namedEdge? (String.ofList name) with
    | '\x7d' :: _, some a =>
      drop (name.length + 2)
      return a
    | _, _ => failure
  | _ => return .wordEdge

/-- The set of a property, named by one letter or in braces, where the kind of property may stand
before the name. -/
def property : Parser CharSet := do
  let s ← get
  if !s.settings.unicode then failure
  let c ← take
  if c ≠ '\x7b' then
    let some set := CharSet.property? s.settings.ignoreCase (String.singleton c) | failure
    return set
  let text := (← get).rest.takeWhile (· ≠ '\x7d')
  if text.length = (← get).rest.length then failure
  drop (text.length + 1)
  let sign := text.dropWhile fun c => c ≠ '=' && c ≠ ':'
  let kind := String.ofList ((text.take (text.length - sign.length)).filter (· ≠ '!'))
  let isCategory := ["gc", "general_category", "General_Category", "category"].contains kind
  let name := if sign.isEmpty then text else sign.tail
  if !sign.isEmpty && !isCategory then failure
  let some set := CharSet.property? s.settings.ignoreCase (String.ofList name) | failure
  return if !sign.isEmpty && text.contains '!' then .compl set else set

/-- One of the sets that a letter stands for, in its full or its ASCII form. -/
def lettered (full : CharSet) (ascii : String) : Parser CharSet := do
  if (← get).settings.unicode then return full
  else return (CharSet.named? false ascii).getD .none

def escape : Parser Escape := do
  expect "\\"
  let c ← take
  match c with
  | 'd' => return .set (← lettered .digit "digit")
  | 'D' => return .set (.compl (← lettered .digit "digit"))
  | 's' => return .set (← lettered .space "space")
  | 'S' => return .set (.compl (← lettered .space "space"))
  | 'w' => return .set (← lettered .word "word")
  | 'W' => return .set (.compl (← lettered .word "word"))
  | 'p' => return .set (← property)
  | 'P' => return .set (.compl (← property))
  | 'x' => return .literal (← hexCode 2)
  | 'u' => return .literal (← hexCode 4)
  | 'U' => return .literal (← hexCode 8)
  | 'a' => return .literal '\x07'
  | 'f' => return .literal '\x0c'
  | 't' => return .literal '\t'
  | 'n' => return .literal '\n'
  | 'r' => return .literal '\r'
  | 'v' => return .literal '\x0b'
  | 'A' => return .anchor .textStart
  | 'z' => return .anchor .textEnd
  | 'b' => return .anchor (← wordEdge)
  | 'B' => return .anchor .wordInside
  | '<' => return .anchor .wordStart
  | '>' => return .anchor .wordEnd
  | _ => if isEscapable c then return .literal c else failure

/-! ## Bracketed classes -/

/-- One item of a class: a character or a set. -/
def classItem : Parser Escape := do
  if (← peek) = some '\\' then escape else return .literal (← take)

/-- A range under the settings.  Where characters do not count it is one of ASCII, and so are the
letters that differ from its own only in case. -/
def rangeSet (s : Settings) (lo hi : Char) : Option CharSet :=
  if s.unicode then some (.range lo hi s.ignoreCase)
  else if 128 ≤ hi.toNat then none
  else some (.inter .ascii (.range lo hi s.ignoreCase))

def itemSet (s : Settings) : Escape → Option CharSet
  | .literal c => rangeSet s c c
  | .set t => some t
  | .anchor _ => none

/-- A range, or an item that starts none. -/
def classRange : Parser CharSet := do
  let settings := (← get).settings
  let first ← classItem
  passBlanks
  let after ← peekPastBlanks
  if (← peek).isNone then failure
  if (← peek) ≠ some '-' || after = some ']' || after = some '-' then
    match itemSet settings first with
    | some s => return s
    | none => failure
  else
    drop 1
    passBlanks
    match first, ← classItem with
    | .literal lo, .literal hi =>
      match rangeSet settings lo hi with
      | some s => if lo ≤ hi then return s else failure
      | none => failure
    | _, _ => failure

/-- A named class such as `[:alpha:]`, if one is next. -/
def namedClass : Parser (Option CharSet) := do
  let s ← get
  match s.rest with
  | '[' :: ':' :: cs =>
    let negated := cs.head? = some '^'
    let cs := if negated then cs.tail else cs
    let name := cs.takeWhile (· ≠ ':')
    match cs.drop name.length, CharSet.named? s.settings.ignoreCase (String.ofList name) with
    | ':' :: ']' :: rest, some set =>
      modify fun s => { s with rest := rest }
      return some (if negated then .compl set else set)
    | _, _ => return none
  | _ => return none

/-- An operation between two parts of a class. -/
inductive ClassOp
  | inter
  | diff
  | symmDiff

def ClassOp.apply : ClassOp → CharSet → CharSet → CharSet
  | inter, s, t => .inter s t
  | diff, s, t => .diff s t
  | symmDiff, s, t => .symmDiff s t

/-- What the class holds so far: a left side with its operation, and the items since. -/
structure ClassParts where
  pending : Option (CharSet × ClassOp)
  items : List CharSet

def ClassParts.value (p : ClassParts) : CharSet :=
  let items := CharSet.unions p.items.reverse
  match p.pending with
  | some (left, op) => op.apply left items
  | none => items

def ClassParts.add (p : ClassParts) (s : CharSet) : ClassParts := ⟨p.pending, s :: p.items⟩

/-- Leading dashes of a class stand for themselves. -/
def leadingDashes (ignoreCase : Bool) : Nat → ClassParts → Parser ClassParts
  | 0, p => pure p
  | n + 1, p => do
    passBlanks
    if (← peek) = some '-' then
      drop 1
      leadingDashes ignoreCase n (p.add (.single '-' ignoreCase))
    else return p

/-- The items of a class up to its closing bracket. -/
def classItems (nested : Parser CharSet) : Nat → ClassParts → Parser CharSet
  | 0, _ => failure
  | n + 1, p => do
    passBlanks
    match ← peek with
    | none => failure
    | some c =>
      let second ← peekSecond
      if c = ']' then
        drop 1
        return p.value
      else if c = '[' then
        match ← namedClass with
        | some s => classItems nested n (p.add s)
        | none => classItems nested n (p.add (← nested))
      else
        let op? := if second ≠ some c then none else
          match c with
          | '&' => some ClassOp.inter
          | '-' => some .diff
          | '~' => some .symmDiff
          | _ => none
        match op? with
        | some op =>
          drop 2
          classItems nested n ⟨some (p.value, op), []⟩
        | none => classItems nested n (p.add (← classRange))

/-- A bracketed class. -/
def bracketed : Nat → Parser CharSet
  | 0 => failure
  | n + 1 => do
    expect "["
    passBlanks
    let negated ← accept "^"
    let s ← get
    let p ← leadingDashes s.settings.ignoreCase (s.rest.length + 1) ⟨none, []⟩
    passBlanks
    let p ←
      if p.items.isEmpty then
        if ← accept "]" then pure (p.add (.single ']' s.settings.ignoreCase)) else pure p
      else pure p
    let set ← classItems (bracketed n) (s.rest.length + 1) p
    return if negated then .compl set else set

/-! ## Repetition -/

/-- The largest count that can be written. -/
def countLimit : Nat := 4294967295

/-- A count with the blanks around it. -/
def count : Parser Nat := do
  modify fun s => { s with rest := s.rest.dropWhile isBlank }
  let ds := (← get).rest.takeWhile Char.isDigit
  if ds.isEmpty then failure
  let n := ds.foldl (fun n d => 10 * n + (d.toNat - '0'.toNat)) 0
  if n > countLimit then failure
  drop ds.length
  modify fun s => { s with rest := s.rest.dropWhile isBlank }
  return n

/-- The least and the greatest number of rounds that an operator asks for. -/
def rounds? : Parser (Option (Nat × Option Nat)) := do
  passBlanks
  match ← peek with
  | some '*' =>
    drop 1
    return some (0, none)
  | some '+' =>
    drop 1
    return some (1, none)
  | some '?' =>
    drop 1
    return some (0, some 1)
  | some '\x7b' =>
    drop 1
    passBlanks
    let least ← count
    passBlanks
    if ← accept "," then
      passBlanks
      if ← accept "\x7d" then return some (least, none)
      let most ← count
      passBlanks
      expect "\x7d"
      if most < least then failure
      return some (least, some most)
    else
      expect "\x7d"
      return some (least, some least)
  | _ => return none

/-- The repetitions behind an operand. -/
def repeated : Nat → Regex → Parser Regex
  | 0, _ => failure
  | n + 1, r => do
    match ← rounds? with
    | none => return r
    | some (least, most) =>
      passBlanks
      let lazy ← accept "?"
      let greedy := lazy == (← get).settings.swapGreed
      repeated n (.many r least most greedy)

/-! ## Groups -/

/-- Turns one setting on or off. -/
def Settings.put (s : Settings) (on : Bool) : Char → Option Settings
  | 'i' => some { s with ignoreCase := on }
  | 'm' => some { s with multiLine := on }
  | 's' => some { s with dotAll := on }
  | 'U' => some { s with swapGreed := on }
  | 'x' => some { s with extended := on }
  | 'R' => some { s with crlf := on }
  | 'u' => some { s with unicode := on }
  | _ => none

/-- The settings named up to a colon or a parenthesis, which is answered too.  None may be named
twice, and a minus sign must be followed by one. -/
def namedSettings : List Char → Bool → Settings → List Char → Option (Settings × List Char × Bool)
  | _, _, _, [] => none
  | seen, on, s, c :: cs =>
    if c = ':' || c = ')' then
      if seen.head? = some '-' then none else some (s, c :: cs, seen.isEmpty)
    else if seen.contains c then none
    else if c = '-' then namedSettings (c :: seen) false s cs
    else
      match s.put on c with
      | some s => namedSettings (c :: seen) on s cs
      | none => none

/-- The name of a group, up to its closing mark. -/
def groupName : Parser (List Char) := do
  let s ← get
  let name := s.rest.takeWhile (· ≠ '>')
  match name with
  | [] => failure
  | c :: cs =>
    let isStart := c = '_' || c.isAlpha || (c.toNat ≥ 128 && isWordChar c && !isDecimalDigit c)
    let isRest := cs.all fun d =>
      d = '_' || d = '.' || d = '[' || d = ']' || d.isAlphanum || (d.toNat ≥ 128 && isWordChar d)
    if !(isStart && isRest) || name.length = s.rest.length || s.names.contains name then failure
    drop (name.length + 1)
    modify fun s => { s with names := name :: s.names }
    return name

/-- A set as it is used under the settings: where characters do not count it may hold ASCII only. -/
def usable (s : Settings) (set : CharSet) : Option Regex :=
  if s.unicode || !set.contains 'é' then some (.one set) else none

/-- A character under the settings. -/
def single (s : Settings) (c : Char) : Regex :=
  .one ((rangeSet s c c).getD (.single c false))

/-- The dot under the settings. -/
def dot (s : Settings) : CharSet :=
  if s.dotAll then .all
  else if s.crlf then .compl (.union (.single '\n' false) (.single '\r' false))
  else .compl (.single '\n' false)

/-- The caret under the settings. -/
def lineStart (s : Settings) : Anchor :=
  if !s.multiLine then .textStart else if s.crlf then .lineStartCrlf else .lineStart

/-- The dollar sign under the settings. -/
def lineEnd (s : Settings) : Anchor :=
  if !s.multiLine then .textEnd else if s.crlf then .lineEndCrlf else .lineEnd

/-- A group that is numbered, up to its closing parenthesis. -/
def numbered (inner : Parser Regex) : Parser Regex := do
  let saved := (← get).settings
  let index := (← get).groups + 1
  modify fun s => { s with groups := index }
  let r ← inner
  expect ")"
  modify fun s => { s with settings := saved }
  return .group index r

/-- A parenthesis: a group, or settings for what follows. -/
def parenthesis (inner : Parser Regex) : Parser (Option Regex) := do
  expect "("
  passBlanks
  if (← accept "?=") || (← accept "?!") || (← accept "?<=") || (← accept "?<!") then failure
  if (← accept "?P<") || (← accept "?<") then
    discard groupName
    return some (← numbered inner)
  if ← accept "?" then
    let s ← get
    match namedSettings [] true s.settings s.rest with
    | none => failure
    | some (settings, ')' :: rest, isEmpty) =>
      if isEmpty then failure
      set { s with rest := rest, settings := settings }
      return none
    | some (settings, _ :: rest, _) =>
      set { s with rest := rest, settings := settings }
      let r ← inner
      expect ")"
      modify fun t => { t with settings := s.settings }
      return some r
    | some (_, [], _) => failure
  return some (← numbered inner)

/-! ## Patterns -/

/-- An operand, or settings, which are none. -/
def operand (inner : Parser Regex) : Parser (Option Regex) := do
  let s ← get
  match ← peek with
  | none => failure
  | some c =>
    match c with
    | '(' => parenthesis inner
    | '[' =>
      let set ← bracketed (s.rest.length + 1)
      let some r := usable s.settings set | failure
      return some r
    | '\\' =>
      match ← escape with
      | .literal c => return some (single s.settings c)
      | .set t =>
        let some r := usable s.settings t | failure
        return some r
      | .anchor a => return some (.anchor a !s.settings.unicode)
    | '.' =>
      drop 1
      if s.settings.unicode then return some (.one (dot s.settings)) else failure
    | '^' =>
      drop 1
      return some (.anchor (lineStart s.settings) false)
    | '$' =>
      drop 1
      return some (.anchor (lineEnd s.settings) false)
    | '*' | '+' | '?' | '\x7b' => failure
    | _ =>
      drop 1
      return some (single s.settings c)

/-- Operands one after the other, up to the end of the alternative. -/
def sequence (inner : Parser Regex) : Nat → Parser (List Regex)
  | 0 => failure
  | n + 1 => do
    passBlanks
    match ← peek with
    | none => return []
    | some '|' => return []
    | some ')' => return []
    | some _ =>
      match ← operand inner with
      | none => sequence inner n
      | some r =>
        let r ← repeated ((← get).rest.length + 1) r
        return r :: (← sequence inner n)

def sequenceOf : List Regex → Regex
  | [] => .empty
  | [r] => r
  | r :: rs => .seq r (sequenceOf rs)

/-- The alternatives up to the end of the group. -/
def alternatives (inner : Parser Regex) : Nat → Parser Regex
  | 0 => failure
  | n + 1 => do
    let first := sequenceOf (← sequence inner ((← get).rest.length + 1))
    if ← accept "|" then return .alt first (← alternatives inner n) else return first

/-- A pattern with groups nested up to a depth. -/
def pattern : Nat → Parser Regex
  | 0 => failure
  | n + 1 => do alternatives (pattern n) ((← get).rest.length + 1)

end RouteAtlas.Regex.Parse

namespace RouteAtlas.Regex

/-- How deeply groups may be nested. -/
def nestLimit : Nat := 250

/-- The pattern that a text denotes, if it is one. -/
def parse? (text : String) : Option Regex := do
  let (r, s) ← (Parse.pattern (nestLimit + 1)).run ⟨text.toList, .start, 0, []⟩
  if s.rest.isEmpty then some r else none

end RouteAtlas.Regex
