import RouteAtlas.Shell.State
import RouteAtlas.Text.Pieces

/-!
# Commands that are always there

The commands that a script can use without any file: writing, testing, and the small filters that
scripts put behind a pipe.  A command gets its arguments and sets a status.
-/

set_option autoImplicit false

namespace RouteAtlas.Shell.Builtin

open Run RouteAtlas.Text

abbrev Arguments := List (List Char)

/-! ## Numbers -/

def nat? (cs : List Char) : Option Nat :=
  if cs.isEmpty || !cs.all Char.isDigit then none
  else some (cs.foldl (fun n d => 10 * n + (d.toNat - '0'.toNat)) 0)

def int? (cs : List Char) : Option Int :=
  match trimBoth (fun c => c = ' ' || c = '\t') cs with
  | '-' :: cs => (nat? cs).map fun n => -(n : Int)
  | '+' :: cs => (nat? cs).map Int.ofNat
  | cs => (nat? cs).map Int.ofNat

def showInt (n : Int) : List Char := (toString n).toList

/-! ## Writing -/

def octalDigits (n : Nat) (cs : List Char) : List Char :=
  (cs.take n).takeWhile fun c => '0' ≤ c && c ≤ '7'

def octalByte (ds : List Char) : UInt8 :=
  UInt8.ofNat (ds.foldl (fun n d => 8 * n + (d.toNat - '0'.toNat)) 0)

/-- The byte that a letter behind a backslash stands for. -/
def escapedByte? : Char → Option UInt8
  | 'a' => some 7
  | 'b' => some 8
  | 'f' => some 12
  | 'n' => some 10
  | 'r' => some 13
  | 't' => some 9
  | 'v' => some 11
  | '\\' => some 92
  | _ => none

/-- The bytes of a text with escapes, and whether `\c` cut it short.  `leadingZero` tells whether
octal codes must start with a zero; `skip` counts characters that are already taken. -/
def unescape (leadingZero : Bool) : Nat → List Char → List UInt8 × Bool
  | _, [] => ([], false)
  | skip + 1, _ :: cs => unescape leadingZero skip cs
  | 0, '\\' :: c :: cs =>
    let go (bytes : List UInt8) (skip : Nat) :=
      let (more, cut) := unescape leadingZero skip cs
      (bytes ++ more, cut)
    if c = 'c' then ([], true)
    else if c = '0' && leadingZero then
      let ds := octalDigits 3 cs
      go [octalByte ds] ds.length
    else if '0' ≤ c && c ≤ '7' && !leadingZero then
      let ds := octalDigits 3 (c :: cs)
      go [octalByte ds] (ds.length - 1)
    else
      match escapedByte? c with
      | some b => go [b] 0
      | none => go (92 :: bytesOf [c]) 0
  | 0, c :: cs =>
    let (more, cut) := unescape leadingZero 0 cs
    (bytesOf [c] ++ more, cut)

def echo (args : Arguments) : Run Unit := do
  let (newline, args) := match args with
    | ['-', 'n'] :: rest => (false, rest)
    | _ => (true, args)
  let (bytes, cut) := unescape true 0 (joinWith [' '] args)
  write (if newline && !cut then bytes ++ [10] else bytes)
  setStatus 0

/-- How a value is filled up. -/
structure Padding where
  left : Bool
  zero : Bool
  width : Nat
  limit : Option Nat

def pad (p : Padding) (bytes : List UInt8) : List UInt8 :=
  let fill := List.replicate (p.width - bytes.length) (if p.zero && !p.left then 48 else 32)
  if p.left then bytes ++ fill else fill ++ bytes

def digitsIn (base n : Nat) : List Char := Nat.toDigits base n

/-- The bytes of one value under a conversion. -/
def converted (p : Padding) (c : Char) (value : List Char) : List UInt8 × Bool :=
  let number := (int? value).getD 0
  match c with
  | 's' =>
    let bytes := bytesOf value
    (pad p (match p.limit with | some n => bytes.take n | none => bytes), false)
  | 'b' =>
    let (bytes, cut) := unescape true 0 value
    (pad p bytes, cut)
  | 'd' | 'i' => (pad p (bytesOf (showInt number)), false)
  | 'u' => (pad p (bytesOf (showInt number)), false)
  | 'o' => (pad p (bytesOf (digitsIn 8 number.toNat)), false)
  | 'x' => (pad p (bytesOf (digitsIn 16 number.toNat)), false)
  | 'X' => (pad p (bytesOf ((digitsIn 16 number.toNat).map Char.toUpper)), false)
  | 'c' => (pad p (bytesOf (value.take 1)), false)
  | _ => ([], false)

/-- One pass over a format: the bytes, the arguments left, and whether it was cut short. -/
def formatOnce : Nat → List Char → Arguments → List UInt8 × Arguments × Bool
  | 0, _, args => ([], args, true)
  | _, [], args => ([], args, false)
  | n + 1, '%' :: '%' :: cs, args =>
    let (more, args, cut) := formatOnce n cs args
    (37 :: more, args, cut)
  | n + 1, '%' :: cs, args =>
    let flags := cs.takeWhile fun c => c = '-' || c = '0' || c = '+' || c = ' ' || c = '#'
    let cs := cs.drop flags.length
    let width := cs.takeWhile Char.isDigit
    let cs := cs.drop width.length
    let (limit, cs) := match cs with
      | '.' :: rest =>
        let ds := rest.takeWhile Char.isDigit
        (some ((nat? ds).getD 0), rest.drop ds.length)
      | _ => (none, cs)
    match cs with
    | [] => ([], args, true)
    | c :: cs =>
      let p : Padding := ⟨flags.contains '-', flags.contains '0', (nat? width).getD 0, limit⟩
      let (bytes, cut) := converted p c (args.head?.getD [])
      if cut then (bytes, args.tail, true)
      else
        let (more, args, cut) := formatOnce n cs args.tail
        (bytes ++ more, args, cut)
  | n + 1, '\\' :: cs, args =>
    let taken := 1 + max 1 (octalDigits 3 cs).length
    let (bytes, cut) := unescape false 0 (('\\' :: cs).take taken)
    if cut then ([], args, true)
    else
      let (more, args, cut) := formatOnce n (('\\' :: cs).drop taken) args
      (bytes ++ more, args, cut)
  | n + 1, c :: cs, args =>
    let (more, args, cut) := formatOnce n cs args
    (bytesOf [c] ++ more, args, cut)

/-- A format is used again as long as it takes arguments and some are left. -/
def formatAll (format : List Char) : Nat → Arguments → List UInt8
  | 0, _ => []
  | n + 1, args =>
    let (bytes, left, cut) := formatOnce (format.length + 1) format args
    if cut || left.isEmpty || left.length = args.length then bytes
    else bytes ++ formatAll format n left

def printf (args : Arguments) : Run Unit :=
  match args with
  | [] => setStatus 2
  | ['-', '-'] :: format :: args | format :: args => do
    write (formatAll format (args.length + 1) args)
    setStatus 0

/-! ## Tests -/

/-- The path of an argument. -/
def pathOf (s : State) (arg : List Char) : FilePath := s.directory.join (String.ofList arg)

/-- A test of one operand. -/
def unaryTest? (s : State) (op : String) (arg : List Char) : Option Bool :=
  let p := pathOf s arg
  match op with
  | "-n" => some (!arg.isEmpty)
  | "-z" => some arg.isEmpty
  | "-e" | "-r" | "-w" => some (!arg.isEmpty && s.tree.isThere p)
  | "-f" => some (!arg.isEmpty && s.tree.isFile p)
  | "-d" => some (!arg.isEmpty && s.tree.isDirectory p)
  | "-h" | "-L" => some (s.tree.isLink p)
  | "-s" => some (match s.tree.entry p with
    | .ok (.file content _) => content.size ≠ 0
    | .ok (.directory _) => true
    | _ => false)
  | "-x" => some (match s.tree.entry p with
    | .ok (.file _ executable) => executable
    | .ok (.directory _) => true
    | _ => false)
  | "-t" => some false
  | _ => none

/-- A test of two operands; none when a number is malformed or the operator is unknown. -/
def binaryTest? (a : List Char) (op : String) (b : List Char) : Option Bool :=
  let compare (f : Int → Int → Bool) := do return f (← int? a) (← int? b)
  match op with
  | "=" | "==" => some (a = b)
  | "!=" => some (a ≠ b)
  | "<" => some (String.ofList a < String.ofList b)
  | ">" => some (String.ofList b < String.ofList a)
  | "-eq" => compare fun x y => x = y
  | "-ne" => compare fun x y => x ≠ y
  | "-lt" => compare fun x y => x < y
  | "-le" => compare fun x y => x ≤ y
  | "-gt" => compare fun x y => y < x
  | "-ge" => compare fun x y => y ≤ x
  | _ => none

def isBinary (op : List Char) : Bool :=
  ["=", "==", "!=", "<", ">", "-eq", "-ne", "-lt", "-le", "-gt", "-ge"].contains (String.ofList op)

/-- The arguments on either side of the first operator, one of them at least on each side. -/
def splitAt? (op : List Char) (args : Arguments) : Option (Arguments × Arguments) :=
  let before := args.takeWhile (· ≠ op)
  let after := args.drop (before.length + 1)
  if before.length < args.length && !before.isEmpty && !after.isEmpty then some (before, after)
  else none

/-- The value of a test, by at most `n` operators. -/
def testValue (s : State) : Nat → Arguments → Option Bool
  | 0, _ => none
  | _, [] => some false
  | _, [a] => some (!a.isEmpty)
  | n + 1, args =>
    match args with
    | [a, op, b] =>
      if isBinary op then binaryTest? a (String.ofList op) b
      else longer n args
    | ['!'] :: rest => (testValue s n rest).map (!·)
    | [op, a] => unaryTest? s (String.ofList op) a
    | _ => longer n args
where
  longer (n : Nat) (args : Arguments) : Option Bool :=
    match splitAt? "-o".toList args with
    | some (a, b) => do return (← testValue s n a) || (← testValue s n b)
    | none =>
      match splitAt? "-a".toList args with
      | some (a, b) => do return (← testValue s n a) && (← testValue s n b)
      | none =>
        match args with
        | ['!'] :: rest => (testValue s n rest).map (!·)
        | _ => none

def test (args : Arguments) : Run Unit := do
  match testValue (← get) (args.length + 1) args with
  | some true => setStatus 0
  | some false => setStatus 1
  | none => setStatus 2

/-! ## Filters -/

/-- The lines of bytes, each with its line end. -/
def linesOf : List UInt8 → List (List UInt8)
  | [] => []
  | b :: bs =>
    if b = 10 then [b] :: linesOf bs
    else
      match linesOf bs with
      | [] => [[b]]
      | l :: ls => (b :: l) :: ls

/-- The bytes of the files named, or of the input when none is. -/
def contents (files : Arguments) : Run (List UInt8) := do
  let s ← get
  if files.isEmpty then
    set { s with input := [] }
    setStatus 0
    return s.input
  else
    let found := files.map fun f =>
      if f = ['-'] then some s.input
      else
        match s.tree.entry (pathOf s f) with
        | .ok (.file content _) => some content.toList
        | _ => none
    setStatus (if found.any Option.isNone then 1 else 0)
    return (found.filterMap id).flatten

/-- The options and the other arguments of a filter. -/
def splitOptions (args : Arguments) : Arguments × Arguments :=
  args.partition fun a => a.head? = some '-' && a ≠ ['-']

/-- The number of lines that `head` and `tail` are asked for. -/
def lineCount : Arguments → Option (Nat × Arguments)
  | ['-', 'n'] :: n :: rest => (nat? n).map (·, rest)
  | ('-' :: 'n' :: n) :: rest => (nat? n).map (·, rest)
  | ('-' :: n) :: rest => (nat? n).map (·, rest)
  | rest => some (10, rest)

def head (args : Arguments) : Run Unit := do
  match lineCount args with
  | some (n, files) => write ((linesOf (← contents files)).take n).flatten
  | none => setStatus 1

def tail (args : Arguments) : Run Unit := do
  match args with
  | ['-', 'n'] :: ('+' :: n) :: files =>
    write ((linesOf (← contents files)).drop ((nat? n).getD 1 - 1)).flatten
  | _ =>
    match lineCount args with
    | some (n, files) =>
      let ls := linesOf (← contents files)
      write (ls.drop (ls.length - n)).flatten
    | none => setStatus 1

/-- Whether bytes come before or are the same as others. -/
def bytesLe : List UInt8 → List UInt8 → Bool
  | [], _ => true
  | _ :: _, [] => false
  | a :: as, b :: bs => a < b || (a = b && bytesLe as bs)

/-- Lines without their ends. -/
def bareLines (bytes : List UInt8) : List (List UInt8) :=
  (linesOf bytes).map fun l => l.filter (· ≠ 10)

/-- Neighbours that are the same, once. -/
def dropSame : List (List UInt8) → List (List UInt8)
  | a :: b :: rest => if a = b then dropSame (b :: rest) else a :: dropSame (b :: rest)
  | ls => ls

def writeLines (ls : List (List UInt8)) : Run Unit := write (ls.flatMap (· ++ [10]))

def sort (args : Arguments) : Run Unit := do
  let (options, files) := splitOptions args
  let ls := (bareLines (← contents files)).mergeSort bytesLe
  let ls := if options.any (·.contains 'u') then dropSame ls else ls
  writeLines (if options.any (·.contains 'r') then ls.reverse else ls)

def uniq (args : Arguments) : Run Unit := do
  writeLines (dropSame (bareLines (← contents (splitOptions args).2)))

/-- The number of line ends, or of bytes when that is asked for, with the name of a single file. -/
def countLines (args : Arguments) : Run Unit := do
  let (options, files) := splitOptions args
  let bytes ← contents files
  let n := if options.any (·.contains 'c') then bytes.length else bytes.count 10
  let named := match files with
    | [f] => ' ' :: f
    | _ => []
  writeLines [bytesOf ((toString n).toList ++ named)]

def seq (args : Arguments) : Run Unit := do
  match args.mapM int? with
  | some [last] => write' 1 1 last
  | some [first, last] => write' first 1 last
  | some [first, step, last] => write' first step last
  | _ => setStatus 1
where
  write' (first step last : Int) : Run Unit := do
    let count := if step = 0 then 0 else ((last - first).fdiv step + 1).toNat
    writeLines ((List.range (min count 100000)).map fun (i : Nat) =>
      bytesOf (showInt (first + step * (i : Int))))
    setStatus 0

/-- The entries of a directory that are not hidden, or the file itself. -/
def ls (args : Arguments) : Run Unit := do
  let s ← get
  let (_, files) := splitOptions args
  let shown (f : List Char) : Option Arguments :=
    match s.tree.entry (pathOf s f) with
    | .ok (.directory es) => some ((es.map fun e => e.1.toList).filter fun n => n.head? ≠ some '.')
    | .ok _ => some [f]
    | .error _ => none
  let found := (if files.isEmpty then [['.']] else files).map shown
  writeLines ((found.filterMap id).flatten.map bytesOf)
  setStatus (if found.any Option.isNone then 2 else 0)

def basename (args : Arguments) : Run Unit := do
  let name := (FilePath.mk (String.ofList (args.head?.getD []))).fileName?.getD "/"
  let name := name.toList
  let ending := (args.drop 1).head?.getD []
  let name := if ending.isSuffixOf name && name ≠ ending then name.take (name.length - ending.length)
    else name
  writeLines [bytesOf name]
  setStatus 0

def dirname (args : Arguments) : Run Unit := do
  let p := FilePath.mk (String.ofList (args.head?.getD []))
  let dir := (p.parent?.map FilePath.text).getD "/"
  writeLines [bytesOf (if dir.isEmpty then "." else dir).toList]
  setStatus 0

/-- A duration in milliseconds, from seconds with a fraction and perhaps a unit. -/
def duration? (cs : List Char) : Option Nat := do
  let whole := cs.takeWhile Char.isDigit
  let rest := cs.drop whole.length
  let (fraction, unit) := match rest with
    | '.' :: rest =>
      let ds := rest.takeWhile Char.isDigit
      (ds, rest.drop ds.length)
    | _ => ([], rest)
  guard (!(whole.isEmpty && fraction.isEmpty))
  let scale ← match unit with
    | [] | ['s'] => some 1
    | ['m'] => some 60
    | ['h'] => some 3600
    | _ => none
  let thousandths := (nat? ((fraction ++ ['0', '0', '0']).take 3)).getD 0
  return (((nat? whole).getD 0) * 1000 + thousandths) * scale

def sleep (args : Arguments) : Run Unit := do
  match args.mapM duration? with
  | some ds =>
    wait (ds.foldl (· + ·) 0)
    setStatus 0
  | none => setStatus 1

/-- Reads a line of the input into variables, cut at the separators; the last gets what is left. -/
def read (args : Arguments) : Run Unit := do
  let names := (splitOptions args).2
  let marks ← separators
  let s ← get
  let line := s.input.takeWhile (· ≠ 10)
  set { s with input := s.input.drop (line.length + 1) }
  let isBlank (c : Char) : Bool := marks.contains c
  let rec fill (rest : List Char) : List (List Char) → Run Unit
    | [] => return
    | [name] => assign name (trimBoth isBlank rest)
    | name :: names => do
      let rest := rest.dropWhile isBlank
      let field := rest.takeWhile fun c => !isBlank c
      assign name field
      fill (rest.drop field.length) names
  fill (textOf line) names
  setStatus (if line.length = s.input.length then 1 else 0)

/-- Sends a signal to the script itself, unless it is only a question. -/
def kill (args : Arguments) : Run Unit := do
  if args.any fun a => a = ['-', '0'] then setStatus 0
  else if args.any fun a => (nat? a).isSome then throw .killed
  else setStatus 1

/-- The command of a name, if it is one of these. -/
def find? : String → Option (Arguments → Run Unit)
  | "echo" => some echo
  | "printf" => some printf
  | "test" => some test
  | "true" | ":" | "wait" | "umask" => some fun _ => setStatus 0
  | "false" => some fun _ => setStatus 1
  | "pwd" => some fun _ => do
    writeLines [bytesOf (← get).directory.text.toList]
    setStatus 0
  | "cat" => some fun args => do write (← contents args)
  | "head" => some head
  | "tail" => some tail
  | "sort" => some sort
  | "uniq" => some uniq
  | "wc" => some countLines
  | "seq" => some seq
  | "ls" => some ls
  | "basename" => some basename
  | "dirname" => some dirname
  | "sleep" => some sleep
  | "read" => some read
  | "kill" => some kill
  | _ => none

end RouteAtlas.Shell.Builtin
