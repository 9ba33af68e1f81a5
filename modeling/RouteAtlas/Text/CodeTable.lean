/-!
# Tables of code points

Character properties of the Unicode standard are given as runs of code points.  A run has a
stride, because upper and lower case letters often alternate; a shift is a run with the distance
that every code point of it is moved by.
-/

set_option autoImplicit false

namespace RouteAtlas.Text

/-- Whether a code point lies in one of the inclusive ranges. -/
def inRanges (table : List (Nat × Nat)) (n : Nat) : Bool :=
  table.any fun (lo, hi) => lo ≤ n && n ≤ hi

/-- Every `stride`-th code point from `lo` to `hi`. -/
structure Run where
  lo : Nat
  hi : Nat
  stride : Nat

def Run.contains (r : Run) (n : Nat) : Bool :=
  r.lo ≤ n && n ≤ r.hi && (n - r.lo) % r.stride = 0

/-- A run and the distance between each of its code points and its image. -/
structure Shift where
  lo : Nat
  hi : Nat
  stride : Nat
  distance : Int

def Shift.contains (r : Shift) (n : Nat) : Bool :=
  r.lo ≤ n && n ≤ r.hi && (n - r.lo) % r.stride = 0

/-- The image of a code point under the first shift that holds it; itself when none does. -/
def shifted (table : List Shift) (n : Nat) : Nat :=
  match table.find? (·.contains n) with
  | some r => (n + r.distance).toNat
  | none => n

end RouteAtlas.Text
