/-!
# Cutting text

Every small format in this library (HTTP paths, file paths, command output, configuration text)
is read by cutting a list of characters at some character, so the cuts live here once, on
`List Char`, where they are plain structural recursions.  `pieces` keeps the empty runs between
two separators and never answers the empty list; `runs` drops the empty ones.
-/

set_option autoImplicit false

namespace RouteAtlas.Text

/-- The runs between occurrences of `sep`, empty runs included; there is always at least one. -/
def pieces (sep : Char) : List Char → List (List Char)
  | [] => [[]]
  | c :: cs =>
    if c = sep then [] :: pieces sep cs
    else
      match pieces sep cs with
      | [] => [[c]]
      | p :: ps => (c :: p) :: ps

/-- The nonempty runs between occurrences of `sep`. -/
def runs (sep : Char) (s : List Char) : List (List Char) :=
  (pieces sep s).filter (fun p => !p.isEmpty)

/-- Everything before the first `c`; the whole text when there is none. -/
def upTo (c : Char) (s : List Char) : List Char :=
  s.takeWhile (· ≠ c)

/-- The text on either side of the first `c`. -/
def breakAt (c : Char) : List Char → Option (List Char × List Char)
  | [] => none
  | d :: s =>
    if d = c then some ([], s)
    else (breakAt c s).map fun (before, after) => (d :: before, after)

/-- Drops the longest suffix whose characters all satisfy `p`. -/
def dropTrailing (p : Char → Bool) (s : List Char) : List Char :=
  (s.reverse.dropWhile p).reverse

/-- Drops the longest prefix and the longest suffix whose characters all satisfy `p`. -/
def trimBoth (p : Char → Bool) (s : List Char) : List Char :=
  dropTrailing p (s.dropWhile p)

/-- Whether `needle` is a contiguous part of the text. -/
def occursIn (needle : List Char) : List Char → Bool
  | [] => needle.isEmpty
  | c :: cs => needle.isPrefixOf (c :: cs) || occursIn needle cs

/-- The text with its first `c` replaced by `new`. -/
def replaceFirst (c : Char) (new : List Char) : List Char → List Char
  | [] => []
  | d :: s => if d = c then new ++ s else d :: replaceFirst c new s

/-- Left-to-right replacement; `skip` counts the characters of a match still to be passed over. -/
def replaceFrom (needle new : List Char) : Nat → List Char → List Char
  | _, [] => []
  | n + 1, _ :: s => replaceFrom needle new n s
  | 0, c :: s =>
    if needle.isPrefixOf (c :: s) then new ++ replaceFrom needle new (needle.length - 1) s
    else c :: replaceFrom needle new 0 s

/-- The text with every occurrence of the nonempty `needle` replaced, left to right and without
rescanning what was put in. -/
def replaceAll (needle new : List Char) (s : List Char) : List Char :=
  replaceFrom needle new 0 s

/-- Concatenation with `sep` between neighbours. -/
def joinWith (sep : List Char) : List (List Char) → List Char
  | [] => []
  | [p] => p
  | p :: ps => p ++ sep ++ joinWith sep ps

/-! ## Small laws -/

theorem pieces_ne_nil (sep : Char) (s : List Char) : pieces sep s ≠ [] := by
  cases s with
  | nil => simp [pieces]
  | cons c cs =>
    simp only [pieces]
    split
    · simp
    · split <;> simp

theorem not_mem_of_mem_pieces {sep : Char} {s p : List Char} (h : p ∈ pieces sep s) :
    sep ∉ p := by
  induction s generalizing p with
  | nil => simp [pieces] at h; simp [h]
  | cons c cs ih =>
    simp only [pieces] at h
    split at h
    · rcases List.mem_cons.1 h with rfl | h
      · simp
      · exact ih h
    · rename_i hc
      split at h
      · rename_i hn
        exact absurd hn (pieces_ne_nil sep cs)
      · rename_i q qs hq
        rcases List.mem_cons.1 h with rfl | h
        · have := ih (p := q) (by simp [hq])
          simp [this, Ne.symm hc]
        · exact ih (by simp [hq, h])

theorem mem_of_mem_pieces {sep c : Char} {s p : List Char} (h : p ∈ pieces sep s) (hc : c ∈ p) :
    c ∈ s := by
  induction s generalizing p with
  | nil => simp [pieces] at h; simp [h] at hc
  | cons d s ih =>
    simp only [pieces] at h
    split at h
    · rcases List.mem_cons.1 h with rfl | h
      · simp at hc
      · exact List.mem_cons_of_mem d (ih h hc)
    · split at h
      · rename_i hn
        exact absurd hn (pieces_ne_nil sep s)
      · rename_i q qs hq
        rcases List.mem_cons.1 h with rfl | h
        · rcases List.mem_cons.1 hc with rfl | hc
          · exact List.mem_cons_self
          · exact List.mem_cons_of_mem d (ih (p := q) (by simp [hq]) hc)
        · exact List.mem_cons_of_mem d (ih (by simp [hq, h]) hc)

theorem pieces_of_not_mem {sep : Char} {s : List Char} (h : sep ∉ s) : pieces sep s = [s] := by
  induction s with
  | nil => rfl
  | cons c s ih =>
    obtain ⟨hc, hs⟩ := not_or.mp (mt List.mem_cons.mpr h)
    rw [pieces, if_neg (Ne.symm hc), ih hs]

/-- A separator cuts what is before it from what is behind it. -/
theorem pieces_append_sep (sep : Char) (s t : List Char) :
    pieces sep (s ++ sep :: t) = pieces sep s ++ pieces sep t := by
  induction s with
  | nil => simp [pieces]
  | cons c s ih =>
    by_cases hc : c = sep
    · simp [pieces, hc, ih]
    · obtain ⟨p, ps, hs⟩ := List.exists_cons_of_ne_nil (pieces_ne_nil sep s)
      simp [pieces, hc, ih, hs]

theorem pieces_append_cons {sep : Char} {p : List Char} (h : sep ∉ p) (s : List Char) :
    pieces sep (p ++ sep :: s) = p :: pieces sep s := by
  rw [pieces_append_sep, pieces_of_not_mem h]
  rfl

/-- Pieces that are joined are cut again at the same places. -/
theorem pieces_joinWith {sep : Char} {ps : List (List Char)} (h : ∀ p ∈ ps, sep ∉ p)
    (hne : ps ≠ []) : pieces sep (joinWith [sep] ps) = ps := by
  induction ps with
  | nil => exact absurd rfl hne
  | cons p ps ih =>
    have hp : sep ∉ p := h p List.mem_cons_self
    cases ps with
    | nil => exact pieces_of_not_mem hp
    | cons q ps =>
      have hrest := ih (fun r hr => h r (List.mem_cons_of_mem p hr)) (List.cons_ne_nil q ps)
      rw [show joinWith [sep] (p :: q :: ps) = p ++ [sep] ++ joinWith [sep] (q :: ps) from rfl,
        List.append_assoc, List.singleton_append, pieces_append_cons hp, hrest]

end RouteAtlas.Text
