import RouteAtlas.Shell.Script

/-!
# Reading scripts

From the text of a script to the command it is.  A script that is malformed anywhere is none.
-/

set_option autoImplicit false

namespace RouteAtlas.Shell.Parse

abbrev Parser := StateT (List Char) Option

def peek : Parser (Option Char) := return (← get).head?

def drop (n : Nat) : Parser Unit := modify (List.drop n)

/-- Takes a text if it is next. -/
def accept (s : String) : Parser Bool := do
  if s.toList.isPrefixOf (← get) then
    drop s.length
    return true
  else return false

def expect (s : String) : Parser Unit := do
  if !(← accept s) then failure

/-- What is left after blanks, joined lines and a comment. -/
def skipBlanks : Bool → List Char → List Char
  | _, [] => []
  | true, c :: cs => if c = '\n' then c :: cs else skipBlanks true cs
  | false, '\\' :: '\n' :: cs => skipBlanks false cs
  | false, c :: cs =>
    if c = ' ' || c = '\t' then skipBlanks false cs
    else if c = '#' then skipBlanks true cs
    else c :: cs

def blanks : Parser Unit := modify (skipBlanks false)

/-- Passes blanks, comments and line ends, at most `n` lines. -/
def linesAtMost : Nat → Parser Unit
  | 0 => failure
  | n + 1 => do
    blanks
    if ← accept "\n" then linesAtMost n

def lines : Parser Unit := do linesAtMost ((← get).length + 1)

/-- Whether a word ends before this character. -/
def endsWord (c : Char) : Bool :=
  c = ' ' || c = '\t' || c = '\n' || c = ';' || c = '&' || c = '|' || c = '<' || c = '>' ||
    c = '(' || c = ')'

def isNameStart (c : Char) : Bool := c.isAlpha || c = '_'

def isNamePart (c : Char) : Bool := c.isAlphanum || c = '_'

/-- Whether a reserved word is next. -/
def seesReserved (w : String) : Parser Bool := do
  let cs ← get
  if w.toList.isPrefixOf cs then
    match cs.drop w.length with
    | c :: _ => return endsWord c
    | [] => return true
  else return false

def reserved (w : String) : Parser Unit := do
  lines
  if ← seesReserved w then drop w.length else failure

/-- A number read from the front, if there is one. -/
def digits (cs : List Char) : List Char := cs.takeWhile Char.isDigit

def natOf (ds : List Char) : Nat :=
  ds.foldl (fun n d => 10 * n + (d.toNat - '0'.toNat)) 0

/-- The text up to a closing mark at depth zero, parentheses counted, and what follows the mark. -/
def upToClosing (mark : List Char) : Nat → List Char → Option (List Char × List Char)
  | _, [] => none
  | depth, c :: cs =>
    if depth = 0 && mark.isPrefixOf (c :: cs) then some ([], (c :: cs).drop mark.length)
    else
      let depth := if c = '(' then depth + 1 else if c = ')' then depth - 1 else depth
      (upToClosing mark depth cs).map fun (inside, rest) => (c :: inside, rest)

/-- The text up to a backquote that is not escaped, and what follows it. -/
def upToBackquote : List Char → Option (List Char × List Char)
  | [] => none
  | '\\' :: c :: cs =>
    (upToBackquote cs).map fun (inside, rest) =>
      (if c = '\x60' || c = '\\' || c = '$' then (c :: inside, rest) else ('\\' :: c :: inside, rest))
  | c :: cs =>
    if c = '\x60' then some ([], cs)
    else (upToBackquote cs).map fun (inside, rest) => (c :: inside, rest)

/-- The lines up to one that is the delimiter, and what follows it. -/
def bodyLines (stripTabs : Bool) (delimiter : List Char) : Nat → List Char →
    List Char × List Char
  | 0, cs => ([], cs)
  | _, [] => ([], [])
  | n + 1, cs =>
    let line := cs.takeWhile (· ≠ '\n')
    let rest := cs.drop (line.length + 1)
    let line := if stripTabs then line.dropWhile (· = '\t') else line
    if line = delimiter then ([], rest)
    else
      let (body, rest) := bodyLines stripTabs delimiter n rest
      (line ++ '\n' :: body, rest)

/-- The words that open a compound command's inner parts or close it. -/
def closers : List String :=
  ["then", "elif", "else", "fi", "do", "done", "esac", "\x7d", ")", ";;"]

def seesCloser : Parser Bool := do
  let cs ← get
  if cs.head? = some ')' || ";;".toList.isPrefixOf cs then return true
  closers.anyM seesReserved

/-- The operators inside the braces of a parameter. -/
def operators : List String :=
  [":-", ":=", ":+", ":?", "%%", "##", "-", "=", "+", "?", "%", "#"]

mutual

/-- A parameter behind `$`, or the sign itself. -/
def dollar (quoted : Bool) : Nat → Parser Segment
  | 0 => failure
  | n + 1 => do
    match ← get with
    | '(' :: '(' :: cs =>
      let some (inside, rest) := upToClosing [')', ')'] 0 cs | failure
      let some (e, _) := (segments true [] n).run inside | failure
      set rest
      return .arithmetic quoted e
    | '(' :: cs =>
      set cs
      let c ← list n
      lines
      expect ")"
      return .output quoted c
    | '\x7b' :: '#' :: cs =>
      let name := cs.takeWhile fun c => c ≠ '\x7d'
      if name.isEmpty then
        set (cs.drop 1)
        return .parameter quoted ['#'] [] []
      else
        set (cs.drop (name.length + 1))
        return .parameter quoted name ['l'] []
    | '\x7b' :: c :: cs =>
      let name := if isNameStart c then (c :: cs).takeWhile isNamePart
        else if c.isDigit then digits (c :: cs) else [c]
      set ((c :: cs).drop name.length)
      if ← accept "\x7d" then return .parameter quoted name [] []
      match ← operators.findM? accept with
      | none => failure
      | some op =>
        -- Quotes around a parameter do not quote the pattern that is cut off it.
        let cuts := op.startsWith "%" || op.startsWith "#"
        let operand ← segments (quoted && !cuts) ['\x7d'] n
        expect "\x7d"
        return .parameter quoted name op.toList operand
    | c :: cs =>
      if isNameStart c then
        let name := (c :: cs).takeWhile isNamePart
        set ((c :: cs).drop name.length)
        return .parameter quoted name [] []
      else if c.isDigit || "@*#?$!-".contains c then
        set cs
        return .parameter quoted [c] [] []
      else return .text quoted ['$']
    | [] => return .text quoted ['$']

/-- The parts of a word, up to a character that ends it.  Inside double quotes and arithmetic
(`quoted`) only the given characters end it. -/
def segments (quoted : Bool) (ends : List Char) : Nat → Parser Word
  | 0 => failure
  | n + 1 => do
    match ← get with
    | [] => return []
    | '\\' :: '\n' :: cs =>
      set cs
      segments quoted ends n
    | c :: cs =>
      if ends.contains c || (!quoted && ends.isEmpty && endsWord c) then return []
      else if c = '$' then
        set cs
        let s ← dollar quoted n
        return s :: (← segments quoted ends n)
      else if c = '\x60' then
        let some (inside, rest) := upToBackquote cs | failure
        let some (command, _) := (list n).run inside | failure
        set rest
        return .output quoted command :: (← segments quoted ends n)
      else if c = '\\' then
        match cs with
        | d :: cs =>
          set cs
          let kept := quoted && !(d = '$' || d = '\x60' || d = '"' || d = '\\')
          let s := Segment.text true (if kept then ['\\', d] else [d])
          return s :: (← segments quoted ends n)
        | [] => return [.text true ['\\']]
      else if c = '\'' && !quoted then
        let inside := cs.takeWhile (· ≠ '\'')
        if inside.length = cs.length then failure
        set (cs.drop (inside.length + 1))
        return .text true inside :: (← segments quoted ends n)
      else if c = '"' && ends ≠ ['\x00'] then
        set cs
        let inside ← segments true ['"'] n
        expect "\""
        return .text true [] :: inside ++ (← segments quoted ends n)
      else
        set cs
        return .text quoted [c] :: (← segments quoted ends n)

/-- A word that is not empty. -/
def word : Nat → Parser Word
  | 0 => failure
  | n + 1 => do
    let before := (← get).length
    let w ← segments false [] n
    if (← get).length = before then failure
    return w

/-- A redirection, if one is next. -/
def redirection : Nat → Parser (Option (Nat × List Char × Word))
  | 0 => failure
  | n + 1 => do
    let cs ← get
    let ds := digits cs
    match cs.drop ds.length with
    | c :: _ =>
      if c ≠ '<' && c ≠ '>' then return none
      drop ds.length
      let channel := if ds.isEmpty then (if c = '<' then 0 else 1) else natOf ds
      match ← ["<<-", "<<", ">>", ">&", "<&", ">|", "<", ">"].findM? accept with
      | none => failure
      | some op =>
        blanks
        if op = "<<" || op = "<<-" then
          let w ← word n
          let delimiter := w.flatMap fun
            | .text _ s => s
            | _ => []
          let isPlain := w.all fun
            | .text q _ => !q
            | _ => false
          let cs ← get
          let line := cs.takeWhile (· ≠ '\n')
          let (body, rest) := bodyLines (op = "<<-") delimiter (cs.length + 1)
            (cs.drop (line.length + 1))
          set (line ++ '\n' :: rest)
          let some (inside, _) :=
            (if isPlain then segments true ['\x00'] n else pure [.text true body]).run body
            | failure
          return some (channel, "<<".toList, inside)
        else return some (channel, op.toList, ← word n)
    | [] => return none

/-- The redirections behind a compound command. -/
def redirections : Nat → Parser (List (Nat × List Char × Word))
  | 0 => failure
  | n + 1 => do
    blanks
    match ← redirection n with
    | none => return []
    | some r => return r :: (← redirections n)

/-- Assignments, words and redirections up to the end of a simple command. -/
def simple (assignments : List (List Char × Word)) (words : List Word)
    (leads : List (Nat × List Char × Word)) : Nat → Parser Command
  | 0 => failure
  | n + 1 => do
    blanks
    match ← redirection n with
    | some r => simple assignments words (leads ++ [r]) n
    | none =>
      let cs ← get
      if cs.head?.all endsWord then
        let c := Command.simple assignments words
        return if leads.isEmpty then c else .redirected c leads
      else
        let name := cs.takeWhile isNamePart
        if words.isEmpty && cs.head?.any isNameStart && (cs.drop name.length).head? = some '=' then
          drop (name.length + 1)
          let value ← segments false [] n
          simple (assignments ++ [(name, value)]) words leads n
        else simple assignments (words ++ [← word n]) leads n

/-- What follows the test of a conditional. -/
def conditional : Nat → Parser Command
  | 0 => failure
  | n + 1 => do
    let test ← list n
    reserved "then"
    let yes ← list n
    lines
    if ← seesReserved "elif" then
      drop 4
      return .cond test yes (← conditional n)
    else if ← seesReserved "else" then
      drop 4
      let no ← list n
      reserved "fi"
      return .cond test yes no
    else
      reserved "fi"
      return .cond test yes (.list [])

/-- The patterns of one arm of a choice. -/
def patterns : Nat → Parser (List Word)
  | 0 => failure
  | n + 1 => do
    blanks
    let w ← word n
    blanks
    if ← accept "|" then return w :: (← patterns n)
    expect ")"
    return [w]

def arms : Nat → Parser (List (List Word × Command))
  | 0 => failure
  | n + 1 => do
    lines
    if ← seesReserved "esac" then
      drop 4
      return []
    discard (accept "(")
    let ps ← patterns n
    let body ← list n
    lines
    discard (accept ";;")
    return (ps, body) :: (← arms n)

/-- The words of a loop up to the end of the line. -/
def loopWords : Nat → Parser (List Word)
  | 0 => failure
  | n + 1 => do
    blanks
    if (← get).head?.all endsWord then return [] else return (← word n) :: (← loopWords n)

/-- A compound command, if its first word is next. -/
def compound : Nat → Parser (Option Command)
  | 0 => failure
  | n + 1 => do
    if ← accept "(" then
      let c ← list n
      lines
      expect ")"
      return some (.subshell c)
    else if ← seesReserved "\x7b" then
      drop 1
      let c ← list n
      reserved "\x7d"
      return some c
    else if ← seesReserved "if" then
      drop 2
      return some (← conditional n)
    else if (← seesReserved "while") || (← seesReserved "until") then
      let wanted ← seesReserved "while"
      drop 5
      let test ← list n
      reserved "do"
      let body ← list n
      reserved "done"
      return some (.loop wanted test body)
    else if ← seesReserved "for" then
      drop 3
      blanks
      let name := (← get).takeWhile isNamePart
      drop name.length
      lines
      let words ←
        if ← seesReserved "in" then
          drop 2
          some <$> loopWords n
        else pure none
      blanks
      discard (accept ";")
      reserved "do"
      let body ← list n
      reserved "done"
      return some (.each name words body)
    else if ← seesReserved "case" then
      drop 4
      blanks
      let w ← word n
      reserved "in"
      return some (.choose w (← arms n))
    else return none

/-- A compound command with its redirections, a function definition or a simple command. -/
def command : Nat → Parser Command
  | 0 => failure
  | n + 1 => do
    blanks
    let cs ← get
    match ← compound n with
    | some c =>
      let rs ← redirections n
      return if rs.isEmpty then c else .redirected c rs
    | none =>
      let name := cs.takeWhile isNamePart
      let behind := skipBlanks false (cs.drop name.length)
      if !name.isEmpty && ['(', ')'].isPrefixOf behind then
        set (behind.drop 2)
        lines
        match ← compound n with
        | some body => return .define name body
        | none => failure
      else
        if cs.head?.all endsWord && cs.head? ≠ some '<' && cs.head? ≠ some '>' then failure
        simple [] [] [] n

/-- Commands joined by pipes. -/
def pipeline : Nat → Parser (List Command)
  | 0 => failure
  | n + 1 => do
    let c ← command n
    blanks
    let cs ← get
    if cs.head? = some '|' && cs.tail.head? ≠ some '|' then
      drop 1
      lines
      return c :: (← pipeline n)
    else return [c]

/-- A pipeline, perhaps negated. -/
def negatable : Nat → Parser Command
  | 0 => failure
  | n + 1 => do
    blanks
    if ← seesReserved "!" then
      drop 1
      return .negated (← negatable n)
    match ← pipeline n with
    | [c] => return c
    | cs => return .pipeline cs

/-- Pipelines joined by `&&` and `||`, from the left. -/
def chain (left : Option Command) : Nat → Parser Command
  | 0 => failure
  | n + 1 => do
    match left with
    | none => chain (some (← negatable n)) n
    | some c =>
      blanks
      if ← accept "&&" then
        lines
        chain (some (.both c (← negatable n))) n
      else if ← accept "||" then
        lines
        chain (some (.either c (← negatable n))) n
      else return c

/-- Commands up to a word that closes the list. -/
def listItems : Nat → Parser (List Command)
  | 0 => failure
  | n + 1 => do
    lines
    if (← get).isEmpty || (← seesCloser) then return []
    let c ← chain none n
    blanks
    let cs ← get
    if ";;".toList.isPrefixOf cs then return [c]
    else if ← accept "&" then return .background c :: (← listItems n)
    else if ← accept ";" then return c :: (← listItems n)
    else if ← accept "\n" then return c :: (← listItems n)
    else return [c]

def list : Nat → Parser Command
  | 0 => failure
  | n + 1 => return .list (← listItems n)

end

/-- The command that a script is. -/
def script? (text : List Char) : Option Command := do
  let (c, rest) ← (list (12 * text.length + 100)).run text
  if rest.isEmpty then some c else none

end RouteAtlas.Shell.Parse
