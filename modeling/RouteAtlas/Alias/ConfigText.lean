import RouteAtlas.Text.Blank
import RouteAtlas.Text.WordChar

/-!
# Reading configuration modules as text

A configuration module is a program, and it is never run.  The few options that matter are found
by their shape instead: `key: { … }`, `key: [ … ]` and `key: '…'`.  What is computed when the
module runs is simply not seen.

Everything here looks at a text from left to right in one of three modes: outside quotes, inside
a quoted literal, or right after a backslash in one.  Three quote characters open a literal and
the same one closes it.
-/

set_option autoImplicit false

namespace RouteAtlas.Alias.ConfigText

open RouteAtlas.Text

/-- The characters that open and close a literal. -/
def isQuote (c : Char) : Bool :=
  c = '"' || c = '\'' || c = '\x60'

/-- Where a left-to-right reading stands with regard to quoted literals. -/
inductive Mode
  | outside
  | quoted (q : Char)
  | escaped (q : Char)
  deriving DecidableEq, Repr

/-- The mode after one more character. -/
def Mode.next : Mode → Char → Mode
  | outside, c => if isQuote c then quoted c else outside
  | quoted q, c => if c = '\\' then escaped q else if c = q then outside else quoted q
  | escaped q, _ => quoted q

/-- Whether a character read in this mode is code, and not part of a literal. -/
def Mode.isCode : Mode → Char → Bool
  | outside, c => !isQuote c
  | _, _ => false

/-! ## Comments -/

/-- Where the removal of comments stands. -/
inductive CommentMode
  | code
  | quoted (q : Char)
  | line
  | block
  deriving DecidableEq, Repr

/-- The text without its comments, read on from a mode. -/
def strip : CommentMode → List Char → List Char
  | _, [] => []
  | .code, '/' :: '/' :: s => strip .line s
  | .code, '/' :: '*' :: s => strip .block s
  | .code, c :: s => c :: strip (if isQuote c then .quoted c else .code) s
  | .quoted q, '\\' :: c :: s => '\\' :: c :: strip (.quoted q) s
  | .quoted q, c :: s => c :: strip (if c = q then .code else .quoted q) s
  | .line, '\n' :: s => '\n' :: strip .code s
  | .line, _ :: s => strip .line s
  | .block, '*' :: '/' :: s => strip .code s
  | .block, _ :: s => strip .block s

/-- The text without line comments (their newline stays) and block comments; literals are kept as
they are. -/
def stripComments (s : List Char) : List Char :=
  strip .code s

/-- Whether the next character that is no blank closes an object or an array. -/
def closesNext (s : List Char) : Bool :=
  match s.dropWhile isBlank with
  | c :: _ => c = '\x7d' || c = ']'
  | [] => false

/-- The text without the commas that nothing but blanks separates from a closing brace or
bracket; the flag tells whether the reading stands in a double-quoted string. -/
def stripCommas : Bool → List Char → List Char
  | _, [] => []
  | true, '\\' :: c :: s => '\\' :: c :: stripCommas true s
  | true, c :: s => c :: stripCommas (c ≠ '"') s
  | false, c :: s =>
    if c = ',' && closesNext s then stripCommas false s
    else c :: stripCommas (c = '"') s

def stripTrailingCommas (s : List Char) : List Char :=
  stripCommas false s

/-! ## Values by key -/

/-- What may follow an optional quote: without it first, then with it still there. -/
def pastQuote : List Char → List (List Char)
  | c :: s => if c = '"' || c = '\'' then [s, c :: s] else [c :: s]
  | [] => [[]]

/-- What follows `key:` when the text starts with it, the key perhaps quoted. -/
def afterKeyHere (key s : List Char) : Option (List Char) :=
  (pastQuote s).findSome? fun s =>
    (key.isPrefixOf? s).bind fun s =>
      (pastQuote s).findSome? fun s =>
        match s.dropWhile isBlank with
        | ':' :: s => some (s.dropWhile isBlank)
        | _ => none

/-- Whether a key may start right after this character: not inside a word or after a dot. -/
def endsKeyContext (c : Char) : Bool :=
  !(isWordChar c || c = '$' || c = '.')

/-- What follows the first `key:` after some character of the text. -/
def afterLaterKey (key : List Char) : List Char → Option (List Char)
  | [] => none
  | c :: s =>
    let here := if endsKeyContext c then afterKeyHere key s else none
    here.or (afterLaterKey key s)

/-- What follows the first `key:` of the text. -/
def afterKey (key s : List Char) : Option (List Char) :=
  (afterKeyHere key s).or (afterLaterKey key s)

/-- The text up to the closing character of a block, `depth` of which are open. -/
def blockTail (opening closing : Char) : Nat → Mode → List Char → Option (List Char)
  | _, _, [] => none
  | depth, m, c :: s =>
    if m.isCode c then
      if c = opening then (blockTail opening closing (depth + 1) (m.next c) s).map (c :: ·)
      else if c = closing then
        if depth ≤ 1 then some [] else (blockTail opening closing (depth - 1) (m.next c) s).map (c :: ·)
      else (blockTail opening closing depth (m.next c) s).map (c :: ·)
    else (blockTail opening closing depth (m.next c) s).map (c :: ·)

/-- The inside of the block that the text starts with. -/
def block (opening closing : Char) : List Char → Option (List Char)
  | c :: s => if c = opening then blockTail opening closing 1 .outside s else none
  | [] => none

/-- The body of `key: { … }`. -/
def objectBody (text key : List Char) : Option (List Char) :=
  (afterKey key text).bind (block '\x7b' '\x7d')

/-- The body of `key: [ … ]`. -/
def arrayBody (text key : List Char) : Option (List Char) :=
  (afterKey key text).bind (block '[' ']')

/-! ## Literals -/

/-- The literals of a text that are closed, each without its quotes and backslashes.  The first
argument holds the open literal, its characters in reverse. -/
def literalsFrom : Option (Char × List Char) → List Char → List (List Char)
  | _, [] => []
  | none, c :: s => literalsFrom (if isQuote c then some (c, []) else none) s
  | some (q, acc), '\\' :: c :: s => literalsFrom (some (q, c :: acc)) s
  | some (q, acc), c :: s =>
    if c = q then acc.reverse :: literalsFrom none s
    else literalsFrom (some (q, c :: acc)) s

/-- Every closed literal of a text, in order. -/
def literals (text : List Char) : List (List Char) :=
  literalsFrom none text

/-- Whether the text starts with a quote. -/
def startsQuoted (s : List Char) : Bool :=
  match s with
  | c :: _ => isQuote c
  | [] => false

/-- The value of `key: '…'`. -/
def stringValue (text key : List Char) : Option (List Char) :=
  (afterKey key text).bind fun rest => if startsQuoted rest then (literals rest).head? else none

/-- A key that may be bare or quoted. -/
def unquote (raw : List Char) : List Char :=
  let s := trimChars raw
  if startsQuoted s then (literals s).head?.getD s else s

/-- The value of an expression that starts with a literal and holds no second one. -/
def soleLiteral (expr : List Char) : Option (List Char) :=
  let s := trimChars expr
  if startsQuoted s then
    match literals s with
    | [only] => some only
    | _ => none
  else none

/-! ## Lists and entries -/

/-- How a bracket changes the depth. -/
def depthChange (c : Char) : Int :=
  if c = '\x7b' || c = '[' || c = '(' then 1
  else if c = '\x7d' || c = ']' || c = ')' then -1
  else 0

/-- The parts between the commas that stand outside brackets and quotes; `acc` is the part being
read, in reverse. -/
def partsFrom : Int → Mode → List Char → List Char → List (List Char)
  | _, _, acc, [] => [acc.reverse]
  | depth, m, acc, c :: s =>
    if m.isCode c && c = ',' && depth = 0 then acc.reverse :: partsFrom depth (m.next c) [] s
    else
      let depth := if m.isCode c then depth + depthChange c else depth
      partsFrom depth (m.next c) (c :: acc) s

/-- The parts of a body, trimmed; empty ones are left out. -/
def parts (body : List Char) : List (List Char) :=
  ((partsFrom 0 .outside [] body).map trimChars).filter fun p => !p.isEmpty

/-- The text on either side of the first colon outside quotes. -/
def breakAtColon : Mode → List Char → Option (List Char × List Char)
  | _, [] => none
  | m, c :: s =>
    if m.isCode c && c = ':' then some ([], s)
    else (breakAtColon (m.next c) s).map fun (before, after) => (c :: before, after)

/-- The `key: value` entries of an object body, keys unquoted, values as written. -/
def entries (body : List Char) : List (List Char × List Char) :=
  (parts body).filterMap fun part =>
    match breakAtColon .outside part with
    | some (k, v) =>
      let key := unquote k
      if key.isEmpty then none else some (key, trimChars v)
    | none => none

end RouteAtlas.Alias.ConfigText
