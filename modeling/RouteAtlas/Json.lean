import RouteAtlas.Text.Pieces

/-!
# JSON documents

The configuration files that other tools leave in a repository are JSON documents.  Members keep
the order they were written in; a member written twice keeps its first position and its last
value.  Numbers are only checked, never used, so a document keeps none of them: but a number too
large for a double refuses the document, as do a lone surrogate escape, a raw control character
in a string, and more than 127 levels of nesting.
-/

set_option autoImplicit false

namespace RouteAtlas

inductive Json
  | null
  | bool (b : Bool)
  | number
  | string (s : String)
  | array (items : List Json)
  | object (members : List (String × Json))
  deriving Inhabited

namespace Json

/-- The member of an object. -/
def get? : Json → String → Option Json
  | object ms, k => ms.lookup k
  | _, _ => none

def string? : Json → Option String
  | string s => some s
  | _ => none

def array? : Json → Option (List Json)
  | array xs => some xs
  | _ => none

def object? : Json → Option (List (String × Json))
  | object ms => some ms
  | _ => none

/-- The strings among the items of an array, in order. -/
def strings (xs : List Json) : List String :=
  xs.filterMap string?

/-! ## Reading -/

/-- The white space of a JSON document. -/
def isSpace (c : Char) : Bool :=
  c = ' ' || c = '\t' || c = '\n' || c = '\r'

def skipSpace (s : List Char) : List Char :=
  s.dropWhile isSpace

def hexValue? (c : Char) : Option Nat :=
  if '0' ≤ c && c ≤ '9' then some (c.toNat - '0'.toNat)
  else if 'a' ≤ c && c ≤ 'f' then some (c.toNat - 'a'.toNat + 10)
  else if 'A' ≤ c && c ≤ 'F' then some (c.toNat - 'A'.toNat + 10)
  else none

/-- Four hexadecimal digits and the rest. -/
def unit? : List Char → Option (Nat × List Char)
  | a :: b :: c :: d :: rest => do
    let a ← hexValue? a
    let b ← hexValue? b
    let c ← hexValue? c
    let d ← hexValue? d
    pure (((a * 16 + b) * 16 + c) * 16 + d, rest)
  | _ => none

/-- The character of a `\u` escape; a high surrogate needs its low half right after it. -/
def unicodeEscape? (s : List Char) : Option (Char × List Char) := do
  let (u, rest) ← unit? s
  if 0xD800 ≤ u && u ≤ 0xDBFF then
    match rest with
    | '\\' :: 'u' :: rest =>
      let (v, rest) ← unit? rest
      if 0xDC00 ≤ v && v ≤ 0xDFFF then
        pure (Char.ofNat (0x10000 + (u - 0xD800) * 0x400 + (v - 0xDC00)), rest)
      else none
    | _ => none
  else if 0xDC00 ≤ u && u ≤ 0xDFFF then none
  else pure (Char.ofNat u, rest)

/-- The character of an escape, what follows the backslash given. -/
def escape? : List Char → Option (Char × List Char)
  | '"' :: rest => some ('"', rest)
  | '\\' :: rest => some ('\\', rest)
  | '/' :: rest => some ('/', rest)
  | 'b' :: rest => some ('\x08', rest)
  | 'f' :: rest => some ('\x0c', rest)
  | 'n' :: rest => some ('\n', rest)
  | 'r' :: rest => some ('\r', rest)
  | 't' :: rest => some ('\t', rest)
  | 'u' :: rest => unicodeEscape? rest
  | _ => none

/-- The rest of a string after its opening quote; `fuel` bounds the characters read. -/
def stringTail? : Nat → List Char → List Char → Option (String × List Char)
  | 0, _, _ => none
  | _ + 1, _, [] => none
  | n + 1, acc, c :: rest =>
    if c = '"' then some (String.ofList acc.reverse, rest)
    else if c = '\\' then
      match escape? rest with
      | some (e, rest) => stringTail? n (e :: acc) rest
      | none => none
    else if c.toNat < 0x20 then none
    else stringTail? n (c :: acc) rest

/-- A string, its opening quote included. -/
def stringLiteral? : List Char → Option (String × List Char)
  | '"' :: rest => stringTail? (rest.length + 1) [] rest
  | _ => none

/-- A number is refused when no double is near enough: from 2^1024 - 2^970 on, in absolute value.
`mantissa` is its digits without the point, `exponent` the power of ten that scales them. -/
def fitsDouble (mantissa : Nat) (digits : Nat) (exponent : Int) : Bool :=
  if mantissa = 0 then true
  else
    let magnitude := exponent + digits
    if magnitude > 320 then false
    else if magnitude < 300 then true
    else
      let limit := Nat.pow 2 1024 - Nat.pow 2 970
      if exponent ≥ 0 then mantissa * Nat.pow 10 exponent.toNat < limit
      else mantissa < limit * Nat.pow 10 (-exponent).toNat

def digitsValue (ds : List Char) : Nat :=
  ds.foldl (fun n c => n * 10 + (c.toNat - '0'.toNat)) 0

/-- A number; the rest after it when it is well formed and fits. -/
def number? (s : List Char) : Option (List Char) := do
  let s := if s.head? = some '-' then s.drop 1 else s
  let whole := s.takeWhile Char.isDigit
  let s := s.dropWhile Char.isDigit
  if whole.isEmpty || (whole.head? = some '0' && whole.length > 1) then none
  else
    let (fraction, s, ok) :=
      match s with
      | '.' :: rest =>
        let f := rest.takeWhile Char.isDigit
        (f, rest.dropWhile Char.isDigit, !f.isEmpty)
      | _ => ([], s, true)
    if !ok then none
    else
      let (exponent, s, ok) : Int × List Char × Bool :=
        match s with
        | 'e' :: rest | 'E' :: rest =>
          let negative := rest.head? = some '-'
          let rest := if negative || rest.head? = some '+' then rest.drop 1 else rest
          let ds := rest.takeWhile Char.isDigit
          let n : Int := digitsValue ds
          (if negative then -n else n, rest.dropWhile Char.isDigit, !ds.isEmpty)
        | _ => (0, s, true)
      if !ok then none
      else
        let ds := whole ++ fraction
        let significant := ds.dropWhile (· = '0')
        if fitsDouble (digitsValue ds) significant.length (exponent - fraction.length) then some s
        else none

/-- Adds a member; one that is there keeps its place and takes the new value. -/
def addMember (k : String) (v : Json) : List (String × Json) → List (String × Json)
  | [] => [(k, v)]
  | (k', v') :: rest => if k = k' then (k, v) :: rest else (k', v') :: addMember k v rest

/-- The items of an array after the first, up to and with the closing bracket. -/
def itemsTail? (value : List Char → Option (Json × List Char)) :
    Nat → List Json → List Char → Option (Json × List Char)
  | 0, _, _ => none
  | n + 1, acc, s =>
    match skipSpace s with
    | ']' :: rest => some (array acc.reverse, rest)
    | ',' :: rest =>
      match value rest with
      | some (v, rest) => itemsTail? value n (v :: acc) rest
      | none => none
    | _ => none

/-- One member of an object: its name, a colon, its value. -/
def member? (value : List Char → Option (Json × List Char)) (s : List Char) :
    Option ((String × Json) × List Char) := do
  let (k, rest) ← stringLiteral? (skipSpace s)
  match skipSpace rest with
  | ':' :: rest =>
    let (v, rest) ← value rest
    pure ((k, v), rest)
  | _ => none

/-- The members of an object after the first, up to and with the closing brace. -/
def membersTail? (value : List Char → Option (Json × List Char)) :
    Nat → List (String × Json) → List Char → Option (Json × List Char)
  | 0, _, _ => none
  | n + 1, acc, s =>
    match skipSpace s with
    | '\x7d' :: rest => some (object acc, rest)
    | ',' :: rest =>
      match member? value rest with
      | some ((k, v), rest) => membersTail? value n (addMember k v acc) rest
      | none => none
    | _ => none

/-- A value nested at most `depth` deep, with what follows it. -/
def value? : Nat → List Char → Option (Json × List Char)
  | 0, _ => none
  | depth + 1, s =>
    match skipSpace s with
    | '"' :: rest => (stringLiteral? ('"' :: rest)).map fun (t, rest) => (string t, rest)
    | '[' :: rest =>
      if depth = 0 then none
      else
        match skipSpace rest with
        | ']' :: rest => some (array [], rest)
        | _ =>
          match value? depth rest with
          | some (v, after) => itemsTail? (value? depth) (after.length + 1) [v] after
          | none => none
    | '\x7b' :: rest =>
      if depth = 0 then none
      else
        match skipSpace rest with
        | '\x7d' :: rest => some (object [], rest)
        | _ =>
          match member? (value? depth) rest with
          | some (m, after) => membersTail? (value? depth) (after.length + 1) [m] after
          | none => none
    | 't' :: 'r' :: 'u' :: 'e' :: rest => some (bool true, rest)
    | 'f' :: 'a' :: 'l' :: 's' :: 'e' :: rest => some (bool false, rest)
    | 'n' :: 'u' :: 'l' :: 'l' :: rest => some (null, rest)
    | s => (number? s).map fun rest => (number, rest)

/-- How deep arrays and objects may nest. -/
def depthLimit : Nat := 127

/-- The document that the whole text is. -/
def parse? (text : String) : Option Json :=
  match value? (depthLimit + 1) text.toList with
  | some (v, rest) => if (skipSpace rest).isEmpty then some v else none
  | none => none

end Json

end RouteAtlas
