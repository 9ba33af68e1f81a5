/-!
# Shell scripts

The small part of the command language that search programs kept in a repository are written in:
words with their quoting and expansions, simple commands, pipelines, lists, conditions, loops and
functions.
-/

set_option autoImplicit false

namespace RouteAtlas.Shell

mutual

/-- A part of a word.  What is quoted is neither split nor taken for a file pattern. -/
inductive Segment
  | text (quoted : Bool) (s : List Char)
  /-- The value of a parameter, with an operator and its operand where one is written. -/
  | parameter (quoted : Bool) (name operator : List Char) (operand : List Segment)
  | output (quoted : Bool) (c : Command)
  | arithmetic (quoted : Bool) (e : List Segment)

inductive Command
  | simple (assignments : List (List Char × List Segment)) (words : List (List Segment))
  /-- A command with some of its channels led elsewhere: channel, sign and target. -/
  | redirected (c : Command) (redirections : List (Nat × List Char × List Segment))
  | pipeline (cs : List Command)
  | negated (c : Command)
  | both (c d : Command)
  | either (c d : Command)
  | list (cs : List Command)
  | background (c : Command)
  | subshell (c : Command)
  | cond (test yes no : Command)
  /-- Runs the body while the test ends as wanted. -/
  | loop (wanted : Bool) (test body : Command)
  /-- Runs the body for each word, or for each argument when no words are given. -/
  | each (name : List Char) (words : Option (List (List Segment))) (body : Command)
  | choose (word : List Segment) (arms : List (List (List Segment) × Command))
  | define (name : List Char) (body : Command)

end

abbrev Word := List Segment

instance : Inhabited Command := ⟨.list []⟩

end RouteAtlas.Shell
