import RouteAtlas.Shell.State

/-!
# Arithmetic of scripts

Whole numbers of 64 bits with the usual operators; names stand for variables, and a variable that
is not set counts as zero.
-/

set_option autoImplicit false

namespace RouteAtlas.Shell.Arithmetic

inductive Expr
  | number (n : Int)
  | named (name : List Char)
  | unary (op : String) (e : Expr)
  | binary (op : String) (a b : Expr)
  | choice (test yes no : Expr)
  /-- Sets a variable, by an operator to what it was or plainly by the empty one. -/
  | assign (op : String) (name : List Char) (e : Expr)
  deriving Inhabited

inductive Token
  | number (n : Int)
  | name (s : List Char)
  | sign (s : String)
  deriving DecidableEq, Repr, Inhabited

/-- The value of digits in a base; none when one of them is no digit there. -/
def valueIn? (base : Nat) (ds : List Char) : Option Nat :=
  ds.foldlM (fun n c =>
    let d := if c.isDigit then c.toNat - '0'.toNat
      else if c.isAlpha then c.toLower.toNat - 'a'.toNat + 10 else base
    if d < base then some (base * n + d) else none) 0

/-- A number as written: decimal, octal with a leading zero or hexadecimal. -/
def number? : List Char → Option Int
  | '0' :: 'x' :: ds | '0' :: 'X' :: ds => (valueIn? 16 ds).map Int.ofNat
  | '0' :: ds => (valueIn? 8 ds).map Int.ofNat
  | ds => (valueIn? 10 ds).map Int.ofNat

/-- The signs, the longest first. -/
def signs : List String :=
  ["<<=", ">>=", "||", "&&", "==", "!=", "<=", ">=", "<<", ">>", "+=", "-=", "*=", "/=", "%=", "&=",
    "|=", "^=", "|", "^", "&", "<", ">", "+", "-", "*", "/", "%", "!", "~", "?", ":", "=", "(", ")"]

def isNamePart (c : Char) : Bool := c.isAlphanum || c = '_'

/-- The tokens of an expression, at most `n`. -/
def tokens? : Nat → List Char → Option (List Token)
  | _, [] => some []
  | 0, _ => none
  | n + 1, c :: cs =>
    if c = ' ' || c = '\t' || c = '\n' then tokens? n cs
    else if isNamePart c then
      let word := (c :: cs).takeWhile isNamePart
      let rest := (c :: cs).drop word.length
      if c.isDigit then do return .number (← number? word) :: (← tokens? n rest)
      else (tokens? n rest).map (.name word :: ·)
    else
      match signs.find? fun s => s.toList.isPrefixOf (c :: cs) with
      | some s => (tokens? n ((c :: cs).drop s.length)).map (.sign s :: ·)
      | none => none

/-- How tightly an operator between two operands binds. -/
def strength? : String → Option Nat
  | "||" => some 1
  | "&&" => some 2
  | "|" => some 3
  | "^" => some 4
  | "&" => some 5
  | "==" | "!=" => some 6
  | "<" | "<=" | ">" | ">=" => some 7
  | "<<" | ">>" => some 8
  | "+" | "-" => some 9
  | "*" | "/" | "%" => some 10
  | _ => none

/-- The operator of an assignment. -/
def assignment? : String → Option String
  | "=" => some ""
  | "+=" => some "+"
  | "-=" => some "-"
  | "*=" => some "*"
  | "/=" => some "/"
  | "%=" => some "%"
  | "&=" => some "&"
  | "|=" => some "|"
  | "^=" => some "^"
  | "<<=" => some "<<"
  | ">>=" => some ">>"
  | _ => none

abbrev Parser := StateT (List Token) Option

def accept (s : String) : Parser Bool := do
  match ← get with
  | t :: rest =>
    if t = .sign s then
      set rest
      return true
    else return false
  | [] => return false

mutual

/-- An assignment, a choice or less. -/
def expr : Nat → Parser Expr
  | 0 => failure
  | n + 1 => do
    match ← get with
    | .name x :: .sign s :: rest =>
      match assignment? s with
      | some op =>
        set rest
        return .assign op x (← expr n)
      | none => choice n
    | _ => choice n

def choice : Nat → Parser Expr
  | 0 => failure
  | n + 1 => do
    let test ← operation 1 n
    if ← accept "?" then
      let yes ← expr n
      if !(← accept ":") then failure
      return .choice test yes (← expr n)
    else return test

/-- Operators that bind at least this tightly. -/
def operation (least : Nat) : Nat → Parser Expr
  | 0 => failure
  | n + 1 => do extended least (← operand n) n

/-- What follows a left operand. -/
def extended (least : Nat) (left : Expr) : Nat → Parser Expr
  | 0 => failure
  | n + 1 => do
    match ← get with
    | .sign s :: rest =>
      match strength? s with
      | some k =>
        if least ≤ k then
          set rest
          let right ← operation (k + 1) n
          extended least (.binary s left right) n
        else return left
      | none => return left
    | _ => return left

def operand : Nat → Parser Expr
  | 0 => failure
  | n + 1 => do
    match ← get with
    | .number k :: rest =>
      set rest
      return .number k
    | .name x :: rest =>
      set rest
      return .named x
    | .sign "(" :: rest =>
      set rest
      let e ← expr n
      if !(← accept ")") then failure
      return e
    | .sign s :: rest =>
      if ["+", "-", "!", "~"].contains s then
        set rest
        return .unary s (← operand n)
      else failure
    | [] => failure

end

/-- The expression that a text is; blanks alone are zero. -/
def expr? (text : List Char) : Option Expr := do
  let ts ← tokens? (text.length + 1) text
  if ts.isEmpty then return .number 0
  let (e, rest) ← (expr (8 * ts.length + 8)).run ts
  if rest.isEmpty then some e else none

/-- Ends a script that makes no sense. -/
def malformed {α : Type} : Run α := do
  Run.setStatus 2
  throw .exit

/-- A number as 64 bits hold it. -/
def wrapped (n : Int) : Int := n.bmod (Nat.pow 2 64)

def truth (b : Bool) : Int := if b then 1 else 0

/-- An operator on the bits of two numbers. -/
def bitwise (f : BitVec 64 → BitVec 64 → BitVec 64) (a b : Int) : Int :=
  (f (BitVec.ofInt 64 a) (BitVec.ofInt 64 b)).toInt

def applied (op : String) (a b : Int) : Run Int :=
  match op with
  | "+" => return wrapped (a + b)
  | "-" => return wrapped (a - b)
  | "*" => return wrapped (a * b)
  | "/" => if b = 0 then malformed else return wrapped (a.tdiv b)
  | "%" => if b = 0 then malformed else return wrapped (a.tmod b)
  | "==" => return truth (a = b)
  | "!=" => return truth (a ≠ b)
  | "<" => return truth (a < b)
  | "<=" => return truth (a ≤ b)
  | ">" => return truth (b < a)
  | ">=" => return truth (b ≤ a)
  | "|" => return bitwise (· ||| ·) a b
  | "^" => return bitwise (· ^^^ ·) a b
  | "&" => return bitwise (· &&& ·) a b
  | "<<" => return bitwise (fun x y => x <<< (y.toNat % 64)) a b
  | ">>" => return bitwise (fun x y => x.sshiftRight (y.toNat % 64)) a b
  | _ => malformed

/-- The value of a variable as a number. -/
def numberOf (name : List Char) : Run Int := do
  let text := ((← Run.valueOf name).getD []).filter fun c => c ≠ ' ' && c ≠ '\t'
  match text with
  | [] => return 0
  | '-' :: ds => match number? ds with
    | some n => return wrapped (-n)
    | none => malformed
  | ds => match number? ds with
    | some n => return wrapped n
    | none => malformed

def eval : Expr → Run Int
  | .number n => return wrapped n
  | .named name => numberOf name
  | .unary op e => do
    let n ← eval e
    match op with
    | "-" => return wrapped (-n)
    | "!" => return truth (n = 0)
    | "~" => return wrapped (-n - 1)
    | _ => return n
  | .binary op a b => do
    let x ← eval a
    -- The second operand counts only when the first does not settle the value.
    if op = "&&" then
      if x = 0 then return 0 else return truth ((← eval b) ≠ 0)
    else if op = "||" then
      if x ≠ 0 then return 1 else return truth ((← eval b) ≠ 0)
    else applied op x (← eval b)
  | .choice test yes no => do
    if (← eval test) ≠ 0 then eval yes else eval no
  | .assign op name e => do
    let n ← eval e
    let n ← if op.isEmpty then pure n else applied op (← numberOf name) n
    Run.assign name (toString n).toList
    return n

end RouteAtlas.Shell.Arithmetic
