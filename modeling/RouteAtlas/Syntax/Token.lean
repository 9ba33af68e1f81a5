import RouteAtlas.Syntax.Tree

/-!
# Tokens

One token at a time is read off the front of the text, together with the blanks and comments
before it.  Which token stands at a place depends on what the grammar expects there only for a few
characters (`/` may open a pattern, `}` may go on with a template, `>` may close type arguments), so
a token keeps the text from which it was read and those readers start over from it.

Every function here is a structural recursion on the text.  The recognizers answer how many
characters belong to the lexeme, `none` when it does not end.
-/

set_option autoImplicit false

namespace RouteAtlas.Syntax

/-- A stretch of the text by the positions of its ends. -/
structure Span where
  start : Nat
  stop : Nat
  deriving DecidableEq, Repr, Inhabited

inductive TokenKind
  | word
  | privateName
  | number
  | string
  | mark
  | backquote
  /-- A character that starts no token. -/
  | stray
  | ending
  deriving DecidableEq, Repr, Inhabited

structure Token where
  kind : TokenKind
  text : String
  span : Span
  /-- Whether a line ends between the token before and this one, comments not counted. -/
  onNewLine : Bool
  /-- The comments before the token, in order. -/
  comments : List Span
  /-- The text from the token on. -/
  here : List Char
  /-- The text behind the token. -/
  rest : List Char
  deriving Inhabited

namespace Token

/-! ## Blanks and comments -/

def isSpace (c : Char) : Bool :=
  let n := c.toNat
  (0x9 ≤ n && n ≤ 0xD) || n = 0x20 || n = 0xA0 || n = 0x1680 || (0x2000 ≤ n && n ≤ 0x200B) ||
    n = 0x2028 || n = 0x2029 || n = 0x202F || n = 0x205F || n = 0x2060 || n = 0x3000 || n = 0xFEFF

/-- Whether a line comment ends before this character. -/
def endsLine (c : Char) : Bool :=
  c = '\n' || c = '\r' || c = '\u2028' || c = '\u2029'

inductive GapMode
  | code
  | line (start : Nat)
  | block (start : Nat)

/-- What stands before a token. -/
structure Gap where
  stop : Nat
  newLine : Bool
  comments : List Span
  rest : List Char

/-- Reads blanks and comments; `comments` are those before, the last first. -/
def gap : GapMode → Nat → Bool → List Span → List Char → Gap
  | .code, pos, newLine, comments, '/' :: '/' :: cs =>
    gap (.line pos) (pos + 2) newLine comments cs
  | .code, pos, newLine, comments, '/' :: '*' :: cs =>
    gap (.block pos) (pos + 2) newLine comments cs
  | .code, pos, newLine, comments, c :: cs =>
    if isSpace c then gap .code (pos + 1) (newLine || c = '\n') comments cs
    else ⟨pos, newLine, comments.reverse, c :: cs⟩
  | .line start, pos, newLine, comments, c :: cs =>
    if endsLine c then gap .code (pos + 1) (newLine || c = '\n') (⟨start, pos⟩ :: comments) cs
    else gap (.line start) (pos + 1) newLine comments cs
  | .block start, pos, newLine, comments, '*' :: '/' :: cs =>
    gap .code (pos + 2) newLine (⟨start, pos + 2⟩ :: comments) cs
  | .block start, pos, newLine, comments, _ :: cs =>
    gap (.block start) (pos + 1) newLine comments cs
  | .line start, pos, newLine, comments, [] =>
    ⟨pos, newLine, (⟨start, pos⟩ :: comments).reverse, []⟩
  | _, pos, newLine, comments, [] => ⟨pos, newLine, comments.reverse, []⟩

/-! ## Lexemes -/

def operatorCharacters : List Char :=
  [':', ';', '"', '\'', '@', '#', '.', ',', '|', '^', '&', '<', '=', '>', '+', '-', '*', '/', '\\',
    '%', '?', '!', '~', '(', ')', '[', ']', '\x7b', '\x7d', '\x60']

/-- Whether a name may go on with this character: every character may that means nothing else. -/
def isNamePart (c : Char) : Bool :=
  0x1F < c.toNat && !isSpace c && !operatorCharacters.contains c

def isNameStart (c : Char) : Bool :=
  isNamePart c && !c.isDigit

def isHexDigit (c : Char) : Bool :=
  c.isDigit || ('a' ≤ c && c ≤ 'f') || ('A' ≤ c && c ≤ 'F')

/-- The length of a name; the flag tells whether the reading stands in a braced character code. -/
def nameLength : Bool → List Char → Nat
  | false, '\\' :: 'u' :: '\x7b' :: cs => 3 + nameLength true cs
  | false, '\\' :: 'u' :: cs => 2 + nameLength false cs
  | false, c :: cs => if isNamePart c then 1 + nameLength false cs else 0
  | true, '\x7d' :: cs => 1 + nameLength false cs
  | true, c :: cs => if isHexDigit c then 1 + nameLength true cs else 0
  | _, [] => 0

/-- The length of a literal up to and with the closing quote; a line end must be escaped. -/
def stringLength (quote : Char) : List Char → Option Nat
  | [] => none
  | '\\' :: '\r' :: '\n' :: cs => (stringLength quote cs).map (· + 3)
  | '\\' :: _ :: cs => (stringLength quote cs).map (· + 2)
  | c :: cs =>
    if c = quote then some 1
    else if c = '\n' || c = '\r' then none
    else (stringLength quote cs).map (· + 1)

/-- The length of a pattern behind its opening slash, up to and with the closing one; a slash in a
bracketed class does not close it. -/
def patternLength : Bool → List Char → Option Nat
  | _, [] => none
  | inClass, '\\' :: c :: cs =>
    if endsLine c then none else (patternLength inClass cs).map (· + 2)
  | inClass, c :: cs =>
    if endsLine c then none
    else if c = '/' && !inClass then some 1
    else
      let inClass := if c = '[' then true else if c = ']' then false else inClass
      (patternLength inClass cs).map (· + 1)

/-- Where the reading of a number stands. -/
inductive NumberMode
  | whole
  | fraction
  | exponentSign
  | tail

def numberLength : NumberMode → List Char → Nat
  | _, [] => 0
  | .whole, c :: cs =>
    if c = '.' then 1 + numberLength .fraction cs
    else if c = 'e' || c = 'E' then 1 + numberLength .exponentSign cs
    else if c.isDigit || c = '_' then 1 + numberLength .whole cs
    else if isNamePart c then 1 + numberLength .tail cs
    else 0
  | .fraction, c :: cs =>
    if c = 'e' || c = 'E' then 1 + numberLength .exponentSign cs
    else if c.isDigit || c = '_' then 1 + numberLength .fraction cs
    else 0
  | .exponentSign, c :: cs =>
    if c = '+' || c = '-' || isNamePart c then 1 + numberLength .tail cs else 0
  | .tail, c :: cs => if isNamePart c then 1 + numberLength .tail cs else 0

/-- The length of a template literal behind its opening quote, up to and with the closing one;
`depth` counts the braces of substitutions that are open. -/
def templateLength : Nat → List Char → Option Nat
  | _, [] => none
  | depth, '\\' :: _ :: cs => (templateLength depth cs).map (· + 2)
  | 0, '$' :: '\x7b' :: cs => (templateLength 1 cs).map (· + 2)
  | 0, c :: cs => if c = '\x60' then some 1 else (templateLength 0 cs).map (· + 1)
  | depth + 1, c :: cs =>
    let depth := if c = '\x7b' then depth + 2 else if c = '\x7d' then depth else depth + 1
    (templateLength depth cs).map (· + 1)

/-- The marks of more than one character, longer ones first. -/
def longMarks : List String :=
  [">>>=", "...", "===", "!==", "**=", "<<=", ">>=", ">>>", "&&=", "||=", "??=", "=>", "==", "!=",
    "<=", ">=", "&&", "||", "??", "?.", "++", "--", "+=", "-=", "*=", "/=", "%=", "&=", "|=", "^=",
    "<<", ">>", "**"]

/-- The mark that the text starts with. -/
def markLength (cs : List Char) : Nat :=
  match longMarks.find? fun m => m.toList.isPrefixOf cs with
  | some "?." =>
    match cs.drop 2 with
    | c :: _ => if c.isDigit then 1 else 2
    | [] => 2
  | some m => m.length
  | none => 1

/-- The kind and the length of the lexeme that the text starts with. -/
def lexeme : List Char → TokenKind × Nat
  | [] => (.ending, 0)
  | c :: cs =>
    if isNameStart c || (c = '\\' && cs.head? = some 'u') then (.word, nameLength false (c :: cs))
    else if c.isDigit then
      (.number, if c = '0' && cs.head?.any (fun d => d.isAlpha && d ≠ 'e' && d ≠ 'E')
        then numberLength .tail (c :: cs) else numberLength .whole (c :: cs))
    else if c = '.' && cs.head?.any Char.isDigit then (.number, 1 + numberLength .fraction cs)
    else if c = '"' || c = '\'' then
      match stringLength c cs with
      | some n => (.string, n + 1)
      | none => (.stray, 1)
    else if c = '\x60' then (.backquote, 1)
    else if c = '#' then
      if cs.head?.any isNameStart then (.privateName, 1 + nameLength false cs) else (.stray, 1)
    else if operatorCharacters.contains c && c ≠ '\\' then (.mark, markLength (c :: cs))
    else (.stray, 1)

/-- The token of a known kind and length at a place. -/
def make (kind : TokenKind) (length start : Nat) (newLine : Bool) (comments : List Span)
    (here : List Char) : Token :=
  ⟨kind, String.ofList (here.take length), ⟨start, start + length⟩, newLine, comments, here,
    here.drop length⟩

/-- The first token of the text that starts at position `pos`. -/
def scan (pos : Nat) (cs : List Char) : Token :=
  let g := gap .code pos false [] cs
  let (kind, length) := lexeme g.rest
  make kind length g.stop g.newLine g.comments g.rest

/-- The token behind this one. -/
def next (t : Token) : Token :=
  scan t.span.stop t.rest

/-- Whether this is the given word or mark. -/
def is (t : Token) (s : String) : Bool :=
  (t.kind = .word || t.kind = .mark) && t.text = s

/-- Whether this is one of the given words or marks. -/
def isOneOf (t : Token) (ss : List String) : Bool :=
  (t.kind = .word || t.kind = .mark) && ss.contains t.text

end Token

end RouteAtlas.Syntax
