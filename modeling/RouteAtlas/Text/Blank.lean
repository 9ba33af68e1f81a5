import RouteAtlas.Text.Pieces

/-!
# White space

The characters with the Unicode property White_Space.  The set is closed and small, so it is
written out; trimming removes all of them, not only the ASCII ones.
-/

set_option autoImplicit false

namespace RouteAtlas.Text

/-- The Unicode property White_Space. -/
def isBlank (c : Char) : Bool :=
  let n := c.toNat
  (0x9 ≤ n && n ≤ 0xD) || n = 0x20 || n = 0x85 || n = 0xA0 || n = 0x1680 ||
    (0x2000 ≤ n && n ≤ 0x200A) || n = 0x2028 || n = 0x2029 || n = 0x202F || n = 0x205F ||
    n = 0x3000

/-- The text without white space at either end. -/
def trimChars (s : List Char) : List Char :=
  trimBoth isBlank s

/-- The text without white space at either end. -/
def trim (s : String) : String :=
  String.ofList (trimChars s.toList)

/-- Every ASCII blank is a blank. -/
theorem isBlank_of_isWhitespace {c : Char} (h : c.isWhitespace = true) : isBlank c = true := by
  simp only [Char.isWhitespace, Bool.or_eq_true, decide_eq_true_eq] at h
  rcases h with ((rfl | rfl) | rfl) | rfl <;> decide

end RouteAtlas.Text
