import Mathlib.Data.List.Basic
import Mathlib.Data.List.TakeWhile
import RouteAtlas.Text.Blank

/-!
# Cut text

What is left where a text is cut: pieces of two texts that are put together, the text before a
character, and the text without what trails it.  Trimming leaves nothing exactly of a text that is
all blank (`trimChars_eq_nil_iff`), and blanks put at either end of a text do not change what is
left of it.
-/

set_option autoImplicit false

namespace RouteAtlas.Text

/-! ## Pieces -/

/-- Between two texts the last piece of one runs on into the first piece of the other. -/
theorem exists_pieces_append (sep : Char) (s t : List Char) :
    ∃ front p q back, pieces sep s = front ++ [p] ∧ pieces sep t = q :: back ∧
      pieces sep (s ++ t) = front ++ (p ++ q) :: back := by
  obtain ⟨q, back, ht⟩ := List.exists_cons_of_ne_nil (pieces_ne_nil sep t)
  induction s with
  | nil => exact ⟨[], [], q, back, rfl, ht, ht⟩
  | cons c s ih =>
    obtain ⟨front, p, q', back', hs, ht', hst⟩ := ih
    cases ht.symm.trans ht'
    by_cases hc : c = sep
    · refine ⟨[] :: front, p, q, back, ?_, ht, ?_⟩ <;> simp [pieces, hc, hs, hst]
    · cases front with
      | nil =>
        refine ⟨[], c :: p, q, back, ?_, ht, ?_⟩ <;> simp [pieces, hc, hs, hst]
      | cons p' front =>
        refine ⟨(c :: p') :: front, p, q, back, ?_, ht, ?_⟩ <;> simp [pieces, hc, hs, hst]

/-- All of a text but the separators is in its pieces. -/
theorem exists_mem_pieces {sep c : Char} {s : List Char} (h : c ∈ s) (hc : c ≠ sep) :
    ∃ p ∈ pieces sep s, c ∈ p := by
  obtain ⟨u, v, rfl⟩ := List.append_of_mem h
  obtain ⟨front, p, q, back, -, hv, hall⟩ := exists_pieces_append sep u (c :: v)
  obtain ⟨r, rs, hr⟩ := List.exists_cons_of_ne_nil (pieces_ne_nil sep v)
  rw [pieces, if_neg hc, hr] at hv
  refine ⟨p ++ q, ?_, List.mem_append_right _ ?_⟩
  · rw [hall]
    exact List.mem_append_right _ List.mem_cons_self
  · rw [← (List.cons.inj hv).1]
    exact List.mem_cons_self

/-- The last piece of a text that ends in no separator is not empty. -/
theorem ne_nil_of_pieces_eq_concat {sep : Char} {s : List Char} (hs : s ≠ [])
    (hlast : s.getLast? ≠ some sep) {front : List (List Char)} {p : List Char}
    (h : pieces sep s = front ++ [p]) : p ≠ [] := by
  obtain ⟨s, c, rfl⟩ := (List.eq_nil_or_concat' s).resolve_left hs
  have hc : sep ∉ [c] := by simpa [eq_comm] using hlast
  obtain ⟨front', p', q, back, -, hq, hall⟩ := exists_pieces_append sep s [c]
  obtain ⟨rfl, rfl⟩ := List.cons.inj ((pieces_of_not_mem hc).symm.trans hq)
  rw [h] at hall
  rw [List.singleton_inj.mp (List.append_inj' hall rfl).2]
  exact List.concat_ne_nil c p'

/-- Nor is the first piece of a text that begins with none. -/
theorem ne_nil_of_pieces_eq_cons {sep : Char} {t : List Char} (ht : t ≠ [])
    (hhead : t.head? ≠ some sep) {q : List Char} {back : List (List Char)}
    (h : pieces sep t = q :: back) : q ≠ [] := by
  obtain ⟨c, t, rfl⟩ := List.exists_cons_of_ne_nil ht
  have hc : c ≠ sep := by simpa using hhead
  obtain ⟨q', back', ht⟩ := List.exists_cons_of_ne_nil (pieces_ne_nil sep t)
  rw [pieces, if_neg hc, ht] at h
  rw [← (List.cons.inj h).1]
  exact List.cons_ne_nil c q'

/-! ## Parts of a text -/

theorem occursIn_iff {needle s : List Char} : occursIn needle s = true ↔ needle <:+: s := by
  induction s with
  | nil => rw [occursIn, List.isEmpty_iff, List.infix_nil]
  | cons c s ih =>
    rw [occursIn, Bool.or_eq_true, List.isPrefixOf_iff_prefix, ih, List.infix_cons_iff]

/-! ## The text before and behind -/

theorem isPrefixOf?_append (s t : List Char) : s.isPrefixOf? (s ++ t) = some t :=
  List.isPrefixOf?_eq_some_iff_append_eq.mpr rfl

theorem upTo_eq_self {c : Char} {s : List Char} (h : c ∉ s) : upTo c s = s :=
  List.takeWhile_eq_self_iff.mpr fun d hd => by
    rw [decide_eq_true_eq]
    rintro rfl
    exact h hd

theorem upTo_append_of_not_mem {c : Char} {s : List Char} (h : c ∉ s) (t : List Char) :
    upTo c (s ++ t) = s ++ upTo c t :=
  List.takeWhile_append_of_pos fun d hd => by
    rw [decide_eq_true_eq]
    rintro rfl
    exact h hd

theorem upTo_append_cons {c : Char} {s : List Char} (h : c ∉ s) (t : List Char) :
    upTo c (s ++ c :: t) = s := by
  rw [upTo_append_of_not_mem h, upTo, List.takeWhile_cons_of_neg (by simp), List.append_nil]

theorem upTo_append_of_mem {c : Char} {s : List Char} (h : c ∈ s) (t : List Char) :
    upTo c (s ++ t) = upTo c s := by
  obtain ⟨before, after, rfl, hbefore⟩ := List.eq_append_cons_of_mem h
  rw [List.append_assoc, List.cons_append, upTo_append_cons hbefore, upTo_append_cons hbefore]

/-- What is put behind a text and a `c` is not before the first `c`. -/
theorem upTo_append_sep (c : Char) (s t : List Char) : upTo c (s ++ c :: t) = upTo c s := by
  by_cases h : c ∈ s
  · exact upTo_append_of_mem h _
  · rw [upTo_append_cons h, upTo_eq_self h]

theorem breakAt_eq_none {c : Char} {s : List Char} (h : c ∉ s) : breakAt c s = none := by
  induction s with
  | nil => rfl
  | cons d s ih =>
    obtain ⟨hd, hs⟩ := not_or.mp (mt List.mem_cons.mpr h)
    simp [breakAt, Ne.symm hd, ih hs]

theorem breakAt_append_cons {c : Char} {s : List Char} (h : c ∉ s) (t : List Char) :
    breakAt c (s ++ c :: t) = some (s, t) := by
  induction s with
  | nil => simp [breakAt]
  | cons d s ih =>
    obtain ⟨hd, hs⟩ := not_or.mp (mt List.mem_cons.mpr h)
    simp [breakAt, Ne.symm hd, ih hs]

/-! ## Without what trails -/

theorem dropTrailing_eq_self {p : Char → Bool} {s : List Char}
    (h : ∀ c, s.getLast? = some c → p c = false) : dropTrailing p s = s := by
  rw [dropTrailing]
  cases hr : s.reverse with
  | nil => rw [List.dropWhile_nil, ← hr, List.reverse_reverse]
  | cons c r =>
    have hc : p c = false := h c (by rw [← List.head?_reverse, hr]; rfl)
    rw [List.dropWhile_cons_of_neg (by simp [hc]), ← hr, List.reverse_reverse]

theorem mem_of_mem_dropTrailing {p : Char → Bool} {s : List Char} {c : Char}
    (h : c ∈ dropTrailing p s) : c ∈ s := by
  rw [dropTrailing, List.mem_reverse] at h
  exact List.mem_reverse.mp ((List.dropWhile_sublist _).mem h)

/-- Nothing is dropped beyond what is kept. -/
theorem dropTrailing_append_cons {p : Char → Bool} {c : Char} (h : p c = false) (s t : List Char) :
    dropTrailing p (s ++ c :: t) = s ++ c :: dropTrailing p t := by
  rw [dropTrailing, List.reverse_append, List.reverse_cons, List.append_assoc,
    List.dropWhile_append]
  split
  · rename_i hall
    simp [dropTrailing, List.isEmpty_iff.mp hall, h]
  · simp [dropTrailing]

theorem dropTrailing_cons {p : Char → Bool} {c : Char} (h : p c = false) (t : List Char) :
    dropTrailing p (c :: t) = c :: dropTrailing p t :=
  dropTrailing_append_cons h [] t

theorem dropTrailing_eq_nil_iff {p : Char → Bool} {s : List Char} :
    dropTrailing p s = [] ↔ ∀ c ∈ s, p c = true := by
  simp [dropTrailing]

theorem dropTrailing_append_of_forall {p : Char → Bool} {t : List Char} (h : ∀ c ∈ t, p c = true)
    (s : List Char) : dropTrailing p (s ++ t) = dropTrailing p s := by
  rw [dropTrailing, List.reverse_append, List.dropWhile_append_of_pos (by simpa using h),
    dropTrailing]

/-- What is dropped are characters to be dropped. -/
theorem exists_eq_dropTrailing_append (p : Char → Bool) (s : List Char) :
    ∃ t, s = dropTrailing p s ++ t ∧ ∀ c ∈ t, p c = true := by
  refine ⟨(s.reverse.takeWhile p).reverse, ?_, fun c hc => ?_⟩
  · rw [dropTrailing, ← List.reverse_append, List.takeWhile_append_dropWhile, List.reverse_reverse]
  · exact List.mem_takeWhile_imp (List.mem_reverse.mp hc)

theorem dropTrailing_dropTrailing (p : Char → Bool) (s : List Char) :
    dropTrailing p (dropTrailing p s) = dropTrailing p s := by
  obtain ⟨t, ht, hall⟩ := exists_eq_dropTrailing_append p s
  conv_rhs => rw [ht]
  exact (dropTrailing_append_of_forall hall _).symm

theorem dropTrailing_eq_self_iff {p : Char → Bool} {s : List Char} :
    dropTrailing p s = s ↔ ∀ c, s.getLast? = some c → p c = false := by
  refine ⟨fun h c hc => ?_, dropTrailing_eq_self⟩
  obtain ⟨front, rfl⟩ := List.getLast?_eq_some_iff.mp hc
  -- A last character to be dropped would be missing from what is left.
  by_contra hp
  rw [Bool.not_eq_false] at hp
  rw [dropTrailing_append_of_forall (by simpa using hp)] at h
  obtain ⟨t, ht, -⟩ := exists_eq_dropTrailing_append p front
  have hlength := congrArg List.length ht
  rw [h] at hlength
  simp at hlength

/-! ## Without what is blank at its ends -/

theorem trimChars_eq_self {s : List Char} (h : ∀ c ∈ s, isBlank c = false) : trimChars s = s := by
  have hfront : s.dropWhile isBlank = s := by
    cases s with
    | nil => rfl
    | cons c s => exact List.dropWhile_cons_of_neg (by simp [h c List.mem_cons_self])
  rw [trimChars, trimBoth, hfront]
  exact dropTrailing_eq_self fun c hc => h c (List.mem_of_getLast? hc)

theorem trimChars_eq_nil_iff {s : List Char} : trimChars s = [] ↔ ∀ c ∈ s, isBlank c = true := by
  rw [trimChars, trimBoth, dropTrailing_eq_nil_iff]
  constructor
  · intro h
    cases hd : s.dropWhile isBlank with
    | nil => simpa using hd
    | cons c t =>
      -- the first character that is kept is no blank
      have hc : isBlank c = false := by
        have hhead := List.head?_dropWhile_not isBlank s
        rw [hd] at hhead
        simpa using hhead
      have hblank := h c (hd ▸ List.mem_cons_self)
      rw [hc] at hblank
      cases hblank
  · exact fun h c hc => h c ((List.dropWhile_sublist _).mem hc)

theorem trimChars_cons {c : Char} (h : isBlank c = false) (s : List Char) :
    trimChars (c :: s) = c :: dropTrailing isBlank s := by
  rw [trimChars, trimBoth, List.dropWhile_cons_of_neg (by simp [h]), dropTrailing_cons h]

theorem trimChars_blank_append {w : List Char} (h : ∀ c ∈ w, isBlank c = true) (s : List Char) :
    trimChars (w ++ s) = trimChars s := by
  rw [trimChars, trimBoth, List.dropWhile_append_of_pos h, trimChars, trimBoth]

theorem trimChars_append_blank {w : List Char} (h : ∀ c ∈ w, isBlank c = true) (s : List Char) :
    trimChars (s ++ w) = trimChars s := by
  by_cases hs : ∀ c ∈ s, isBlank c = true
  · rw [trimChars_blank_append hs, trimChars_eq_nil_iff.mpr h, trimChars_eq_nil_iff.mpr hs]
  · rw [trimChars, trimBoth, List.dropWhile_append, if_neg (by simpa using hs),
      dropTrailing_append_of_forall h, trimChars, trimBoth]

theorem trimChars_dropTrailing (s : List Char) :
    trimChars (dropTrailing isBlank s) = trimChars s := by
  obtain ⟨t, ht, hblank⟩ := exists_eq_dropTrailing_append isBlank s
  conv_rhs => rw [ht]
  exact (trimChars_append_blank hblank _).symm

end RouteAtlas.Text
