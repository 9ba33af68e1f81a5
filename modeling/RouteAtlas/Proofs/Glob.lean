import Mathlib.Data.List.Basic
import RouteAtlas.Glob

/-!
# What a glob takes

The matcher asks of every piece whether what follows it is accepted.  Seen from outside, a piece
takes a run of bytes, whatever follows (`Takes`), and a path matches when the pieces take it one
after the other (`isMatch_iff`).

So a glob whose last piece is all that lies below some directory does not care what that is: with
one path below a directory it matches every other (`EndsBelow.isMatch_below`).  A glob that ends
otherwise does care, and `**/_` matches one name in every directory.
-/

set_option autoImplicit false

namespace RouteAtlas.Glob

/-! ## Runs of bytes -/

mutual

/-- The runs of bytes that a piece takes. -/
inductive Takes : Piece → List UInt8 → Prop
  | literal (bytes : List UInt8) : Takes (.literal bytes) bytes
  | any (b : UInt8) : Takes .any [b]
  | anyRun (bytes : List UInt8) : Takes .anyRun bytes
  | noPath : Takes .anyPath []
  | path (bytes : List UInt8) : Takes .anyPath (bytes ++ [slash])
  | slash : Takes .anyBetween [slash]
  | between (bytes : List UInt8) : Takes .anyBetween (slash :: (bytes ++ [slash]))
  | subtree (bytes : List UInt8) : Takes .anyBelow (slash :: bytes)
  | set {negated : Bool} {ranges : List (UInt8 × UInt8)} {b : UInt8}
      (h : (ranges.any (fun r => r.1 ≤ b && b ≤ r.2) != negated) = true) :
      Takes (.set negated ranges) [b]
  | noChoice : Takes (.choice []) []
  | choice {alternatives : List (List Piece)} {ps : List Piece} {bytes : List UInt8}
      (h : ps ∈ alternatives) (htakes : TakesAll ps bytes) : Takes (.choice alternatives) bytes

/-- The runs of bytes that pieces take one after the other. -/
inductive TakesAll : List Piece → List UInt8 → Prop
  | nil : TakesAll [] []
  | cons {p : Piece} {ps : List Piece} {bytes bytes' : List UInt8} (h : Takes p bytes)
      (hs : TakesAll ps bytes') : TakesAll (p :: ps) (bytes ++ bytes')

end

/-! ## The matcher

Each lemma splits what is read into what is taken and the rest, for every judge `k` of the rest: a
piece hands the pieces behind it to the matcher as such a judge.
-/

section Matcher

variable {k : List UInt8 → Bool} {s : List UInt8}

theorem afterSome_iff : afterSome k s = true ↔ ∃ taken rest, s = taken ++ rest ∧ k rest = true := by
  induction s with
  | nil =>
    rw [afterSome]
    constructor
    · exact fun h => ⟨[], [], rfl, h⟩
    · rintro ⟨taken, rest, hs, h⟩
      obtain ⟨rfl, rfl⟩ := List.nil_eq_append_iff.mp hs
      exact h
  | cons b s ih =>
    rw [afterSome, Bool.or_eq_true, ih]
    constructor
    · rintro (h | ⟨taken, rest, rfl, h⟩)
      · exact ⟨[], b :: s, rfl, h⟩
      · exact ⟨b :: taken, rest, rfl, h⟩
    · rintro ⟨taken, rest, hs, h⟩
      cases taken with
      | nil => exact .inl (by rwa [show b :: s = rest from hs])
      | cons c taken =>
        obtain ⟨rfl, rfl⟩ := List.cons.inj hs
        exact .inr ⟨taken, rest, rfl, h⟩

theorem afterSlash_iff :
    afterSlash k s = true ↔ ∃ taken rest, s = taken ++ slash :: rest ∧ k rest = true := by
  induction s with
  | nil => simp [afterSlash]
  | cons b s ih =>
    rw [afterSlash, Bool.or_eq_true, Bool.and_eq_true, decide_eq_true_iff, ih]
    constructor
    · rintro (⟨rfl, h⟩ | ⟨taken, rest, rfl, h⟩)
      · exact ⟨[], s, rfl, h⟩
      · exact ⟨b :: taken, rest, rfl, h⟩
    · rintro ⟨taken, rest, hs, h⟩
      cases taken with
      | nil =>
        obtain ⟨rfl, rfl⟩ := List.cons.inj hs
        exact .inl ⟨rfl, h⟩
      | cons c taken =>
        obtain ⟨rfl, rfl⟩ := List.cons.inj hs
        exact .inr ⟨taken, rest, rfl, h⟩

theorem afterFirstSlash_iff :
    afterFirstSlash k s = true ↔ ∃ rest, s = slash :: rest ∧ k rest = true := by
  cases s with
  | nil => simp [afterFirstSlash]
  | cons b s => simp [afterFirstSlash, and_assoc]

end Matcher

mutual

/-- A piece is accepted when it takes a beginning and what follows is accepted. -/
theorem accepts_iff (p : Piece) (k : List UInt8 → Bool) (s : List UInt8) :
    accepts p k s = true ↔ ∃ taken rest, s = taken ++ rest ∧ Takes p taken ∧ k rest = true := by
  cases p with
  | literal bytes =>
    rw [accepts]
    constructor
    · intro h
      cases hs : bytes.isPrefixOf? s with
      | none => simp [hs] at h
      | some rest =>
        rw [hs] at h
        exact ⟨bytes, rest, (List.isPrefixOf?_eq_some_iff_append_eq.mp hs).symm, .literal bytes, h⟩
    · rintro ⟨taken, rest, rfl, htakes, h⟩
      cases htakes
      rwa [List.isPrefixOf?_eq_some_iff_append_eq.mpr rfl]
  | any =>
    cases s with
    | nil =>
      refine iff_of_false (by simp [accepts]) ?_
      rintro ⟨taken, rest, hs, htakes, -⟩
      cases htakes
      cases hs
    | cons b s =>
      rw [accepts]
      constructor
      · exact fun h => ⟨[b], s, rfl, .any b, h⟩
      · rintro ⟨taken, rest, hs, htakes, h⟩
        cases htakes
        rwa [(List.cons.inj hs).2]
  | anyRun =>
    rw [accepts, afterSome_iff]
    constructor
    · rintro ⟨taken, rest, hs, h⟩
      exact ⟨taken, rest, hs, .anyRun taken, h⟩
    · rintro ⟨taken, rest, hs, -, h⟩
      exact ⟨taken, rest, hs, h⟩
  | anyPath =>
    rw [accepts, Bool.or_eq_true, afterSlash_iff]
    constructor
    · rintro (h | ⟨taken, rest, rfl, h⟩)
      · exact ⟨[], s, rfl, .noPath, h⟩
      · exact ⟨taken ++ [slash], rest, by simp, .path taken, h⟩
    · rintro ⟨taken, rest, rfl, htakes, h⟩
      cases htakes with
      | noPath => exact .inl h
      | path bytes => exact .inr ⟨bytes, rest, by simp, h⟩
  | anyBetween =>
    rw [accepts, afterFirstSlash_iff]
    simp only [Bool.or_eq_true, afterSlash_iff]
    constructor
    · rintro ⟨rest, rfl, h | ⟨taken, rest, rfl, h⟩⟩
      · exact ⟨[slash], rest, rfl, .slash, h⟩
      · exact ⟨slash :: (taken ++ [slash]), rest, by simp, .between taken, h⟩
    · rintro ⟨taken, rest, rfl, htakes, h⟩
      cases htakes with
      | slash => exact ⟨rest, rfl, .inl h⟩
      | between bytes => exact ⟨bytes ++ slash :: rest, by simp, .inr ⟨bytes, rest, rfl, h⟩⟩
  | anyBelow =>
    rw [accepts, afterFirstSlash_iff]
    simp only [afterSome_iff]
    constructor
    · rintro ⟨_, rfl, taken, rest, rfl, h⟩
      exact ⟨slash :: taken, rest, rfl, .subtree taken, h⟩
    · rintro ⟨taken, rest, rfl, htakes, h⟩
      cases htakes with
      | subtree bytes => exact ⟨bytes ++ rest, rfl, bytes, rest, rfl, h⟩
  | set negated ranges =>
    cases s with
    | nil =>
      refine iff_of_false (by simp [accepts]) ?_
      rintro ⟨taken, rest, hs, htakes, -⟩
      cases htakes
      cases hs
    | cons b s =>
      rw [accepts, Bool.and_eq_true]
      constructor
      · rintro ⟨hset, h⟩
        exact ⟨[b], s, rfl, .set hset, h⟩
      · rintro ⟨taken, rest, hs, htakes, h⟩
        cases htakes with
        | set hset =>
          obtain ⟨rfl, rfl⟩ := List.cons.inj hs
          exact ⟨hset, h⟩
  | choice alternatives =>
    rw [accepts, Bool.or_eq_true, Bool.and_eq_true, List.isEmpty_iff, acceptsOne_iff]
    constructor
    · rintro (⟨rfl, h⟩ | ⟨ps, hps, taken, rest, rfl, htakes, h⟩)
      · exact ⟨[], s, rfl, .noChoice, h⟩
      · exact ⟨taken, rest, rfl, .choice hps htakes, h⟩
    · rintro ⟨taken, rest, rfl, htakes, h⟩
      cases htakes with
      | noChoice => exact .inl ⟨rfl, h⟩
      | choice hps htakes => exact .inr ⟨_, hps, taken, rest, rfl, htakes, h⟩

theorem acceptsAll_iff (ps : List Piece) (k : List UInt8 → Bool) (s : List UInt8) :
    acceptsAll ps k s = true ↔
      ∃ taken rest, s = taken ++ rest ∧ TakesAll ps taken ∧ k rest = true := by
  cases ps with
  | nil =>
    rw [acceptsAll]
    constructor
    · exact fun h => ⟨[], s, rfl, .nil, h⟩
    · rintro ⟨taken, rest, rfl, htakes, h⟩
      cases htakes
      exact h
  | cons p ps =>
    rw [acceptsAll, accepts_iff p]
    constructor
    · rintro ⟨taken, _, rfl, htakes, hrest⟩
      obtain ⟨taken', rest, rfl, htakes', h⟩ := (acceptsAll_iff ps k _).mp hrest
      exact ⟨taken ++ taken', rest, by simp, .cons htakes htakes', h⟩
    · rintro ⟨_, rest, rfl, htakes, h⟩
      cases htakes with
      | cons htakes htakes' =>
        have hrest := (acceptsAll_iff ps k _).mpr ⟨_, rest, rfl, htakes', h⟩
        exact ⟨_, _, List.append_assoc .., htakes, hrest⟩

theorem acceptsOne_iff (alternatives : List (List Piece)) (k : List UInt8 → Bool)
    (s : List UInt8) :
    acceptsOne alternatives k s = true ↔ ∃ ps ∈ alternatives,
      ∃ taken rest, s = taken ++ rest ∧ TakesAll ps taken ∧ k rest = true := by
  cases alternatives with
  | nil => simp [acceptsOne]
  | cons ps alternatives =>
    rw [acceptsOne, Bool.or_eq_true, acceptsAll_iff ps, acceptsOne_iff alternatives]
    simp

end

/-! ## Paths -/

theorem toList_loop (bytes : ByteArray) (i : Nat) (before : List UInt8) :
    ByteArray.toList.loop bytes i before = before.reverse ++ bytes.data.toList.drop i := by
  fun_induction ByteArray.toList.loop bytes i before with
  | case1 i before hi ih =>
    have hi : i < bytes.data.toList.length := hi
    rw [ih, List.reverse_cons, List.append_assoc, List.drop_eq_getElem_cons hi]
    simp [ByteArray.get!, getElem!_pos bytes.data i hi]
  | case2 i before hi =>
    have hi : bytes.data.toList.length ≤ i := Nat.not_lt.mp hi
    rw [List.drop_of_length_le hi, List.append_nil]

/-- The bytes of a text, as the matcher reads them. -/
def bytesIn (path : String) : List UInt8 := path.toUTF8.toList

theorem bytesIn_append (a b : String) : bytesIn (a ++ b) = bytesIn a ++ bytesIn b := by
  have hdata (s : String) : bytesIn s = s.toByteArray.data.toList := toList_loop _ 0 []
  rw [hdata, hdata, hdata, String.toByteArray_append, ByteArray.data_append, Array.toList_append]

/-- **A path matches when the pieces of the glob take it**, one after the other. -/
theorem isMatch_iff {g : Glob} {path : String} :
    g.isMatch path = true ↔ g.pieces = [.anyPath] ∨ TakesAll g.pieces (bytesIn path) := by
  unfold isMatch
  split
  · rename_i hpieces
    simp [hpieces]
  · rename_i hpieces
    rw [acceptsAll_iff, or_iff_right hpieces]
    constructor
    · rintro ⟨taken, rest, hpath, htakes, hrest⟩
      rw [List.isEmpty_iff.mp hrest, List.append_nil] at hpath
      rwa [bytesIn, hpath]
    · exact fun h => ⟨_, [], (List.append_nil _).symm, h, rfl⟩

theorem takesAll_append_iff {ps qs : List Piece} {bytes : List UInt8} :
    TakesAll (ps ++ qs) bytes ↔
      ∃ before behind, bytes = before ++ behind ∧ TakesAll ps before ∧ TakesAll qs behind := by
  induction ps generalizing bytes with
  | nil =>
    constructor
    · exact fun h => ⟨[], bytes, rfl, .nil, h⟩
    · rintro ⟨_, behind, rfl, ⟨⟩, h⟩
      exact h
  | cons p ps ih =>
    constructor
    · rintro (_ | ⟨htakes, hrest⟩)
      obtain ⟨before, behind, rfl, hps, hqs⟩ := ih.mp hrest
      exact ⟨_, behind, (List.append_assoc ..).symm, .cons htakes hps, hqs⟩
    · rintro ⟨_, behind, rfl, htakes, hqs⟩
      cases htakes with
      | cons htakes hps =>
        rw [List.append_assoc]
        exact .cons htakes (ih.mpr ⟨_, behind, rfl, hps, hqs⟩)

/-! ## Globs for directories -/

/-- Whether a piece is for all that lies below some directory. -/
def Piece.isAnyBelow : Piece → Bool
  | .anyBelow => true
  | _ => false

theorem Piece.isAnyBelow_iff {p : Piece} : p.isAnyBelow = true ↔ p = .anyBelow := by
  cases p <;> simp [isAnyBelow]

/-- Whether a glob is for all that lies below some directory. -/
def EndsBelow (g : Glob) : Prop :=
  g.pieces.getLast? = some .anyBelow

instance (g : Glob) : Decidable g.EndsBelow :=
  decidable_of_iff (g.pieces.getLast?.any Piece.isAnyBelow = true) <| by
    simp [EndsBelow, Option.any_eq_true, Piece.isAnyBelow_iff]

/-- What a glob takes when its last piece is all that lies below some directory. -/
theorem takesAll_subtree_iff {ps : List Piece} {bytes : List UInt8} :
    TakesAll (ps ++ [.anyBelow]) bytes ↔
      ∃ dir below, bytes = dir ++ slash :: below ∧ TakesAll ps dir := by
  rw [takesAll_append_iff]
  constructor
  · rintro ⟨dir, _, rfl, hps, hlast⟩
    cases hlast with
    | cons hbelow hnil =>
      cases hbelow with
      | subtree below =>
        cases hnil
        exact ⟨dir, below, by rw [List.append_nil], hps⟩
  · rintro ⟨dir, below, rfl, hps⟩
    have hlast := TakesAll.cons (.subtree below) .nil
    rw [List.append_nil] at hlast
    exact ⟨dir, slash :: below, rfl, hps, hlast⟩

/-- **A glob for all that lies below some directory matches with one path every other path in the
same directory**: the name called `_` stands for all names there. -/
theorem EndsBelow.isMatch_below {g : Glob} (hlast : g.EndsBelow) {dir : String}
    (h : g.isMatch (dir ++ "/_") = true) (rest : String) :
    g.isMatch (dir ++ "/" ++ rest) = true := by
  obtain ⟨ps, hps⟩ := List.getLast?_eq_some_iff.mp hlast
  have hpath : g.pieces ≠ [.anyPath] := by
    intro hpath
    rw [EndsBelow, hpath] at hlast
    cases hlast
  rw [isMatch_iff, or_iff_right hpath, hps, takesAll_subtree_iff, bytesIn_append] at h ⊢
  rw [bytesIn_append, List.append_assoc]
  obtain ⟨taken, below, hdir, htakes⟩ := h
  have hunderscore : bytesIn "/_" = [slash, 95] := by decide +kernel
  have hslash : bytesIn "/" = [slash] := by decide +kernel
  rw [hunderscore] at hdir
  rw [hslash]
  -- the slash that the last piece takes is the one in front of the underscore or an earlier one
  rcases List.append_eq_append_iff.mp hdir with ⟨taken', rfl, hend⟩ | ⟨below', hbytes, hend⟩
  · cases taken' with
    | nil => exact ⟨bytesIn dir, bytesIn rest, rfl, by simpa using htakes⟩
    | cons b taken' =>
      have hmem : slash ∈ [(95 : UInt8)] := by
        rw [(List.cons.inj hend).2]
        simp
      exact absurd hmem (by decide)
  · cases below' with
    | nil => exact ⟨bytesIn dir, bytesIn rest, rfl, by simpa [hbytes] using htakes⟩
    | cons b below' =>
      obtain ⟨rfl, rfl⟩ := List.cons.inj hend
      exact ⟨taken, below' ++ slash :: bytesIn rest, by simp [hbytes], htakes⟩

end RouteAtlas.Glob
