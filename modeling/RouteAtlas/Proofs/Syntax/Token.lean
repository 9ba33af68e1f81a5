import Mathlib.Tactic.ByContra
import RouteAtlas.Syntax.Token
import RouteAtlas.Text.WordChar

/-!
# Tokens in their text

A token that is scanned at a place of a text is a stretch of that text behind blanks and comments.

A word that starts a token is `Apart` from what stands in front of it when no word character does.
That is so behind blanks, comments and marks; behind a word it is so because a word is as long as it
can be.
-/

set_option autoImplicit false

namespace RouteAtlas.Syntax.Token

open RouteAtlas.Text

/-! ## Characters that end a word -/

/-- The codes of the blanks. -/
def spaceCodes : List Nat :=
  [0x9, 0xA, 0xB, 0xC, 0xD, 0x20, 0xA0, 0x1680, 0x2000, 0x2001, 0x2002, 0x2003, 0x2004, 0x2005,
    0x2006, 0x2007, 0x2008, 0x2009, 0x200A, 0x200B, 0x2028, 0x2029, 0x202F, 0x205F, 0x2060, 0x3000,
    0xFEFF]

theorem not_isWordChar_of_isSpace {c : Char} (h : isSpace c = true) : isWordChar c = false := by
  have hcode : c.toNat ∈ spaceCodes := by
    simp only [isSpace, Bool.or_eq_true, Bool.and_eq_true, decide_eq_true_eq] at h
    simp only [spaceCodes, List.mem_cons, List.not_mem_nil, or_false]
    omega
  have hall : ∀ n ∈ spaceCodes, isWordChar (Char.ofNat n) = false := by decide +kernel
  rw [← Char.ofNat_toNat c]
  exact hall _ hcode

theorem not_isWordChar_of_endsLine {c : Char} (h : endsLine c = true) : isWordChar c = false := by
  simp only [endsLine, Bool.or_eq_true, decide_eq_true_eq] at h
  rcases h with ((rfl | rfl) | rfl) | rfl <;> decide +kernel

/-! ## Gaps -/

/-- Whether a stretch of text does not end in a word character. -/
def EndsApart (cs : List Char) : Prop :=
  ∀ c ∈ cs.getLast?, isWordChar c = false

theorem endsApart_iff {cs : List Char} :
    EndsApart cs ↔ cs.getLast?.all (fun c => !isWordChar c) = true := by
  simp [EndsApart, Option.all_eq_true]

instance (cs : List Char) : Decidable (EndsApart cs) :=
  decidable_of_iff _ endsApart_iff.symm

theorem EndsApart.cons {c : Char} {cs : List Char} (hc : isWordChar c = false)
    (h : EndsApart cs) : EndsApart (c :: cs) := by
  intro d hd
  rw [List.getLast?_cons] at hd
  cases hlast : cs.getLast? with
  | none =>
    rw [hlast] at hd
    cases hd
    exact hc
  | some e =>
    rw [hlast] at hd
    cases hd
    exact h e hlast

/-- How what a reading of a gap passes ends.  Inside a comment it cannot be nothing. -/
def GapMode.Ends : GapMode → List Char → Prop
  | .code, passed => EndsApart passed
  | .line _, passed | .block _, passed => passed ≠ [] ∧ EndsApart passed

theorem GapMode.Ends.apart {m : GapMode} {passed : List Char} (h : m.Ends passed) :
    EndsApart passed := by
  cases m with
  | code => exact h
  | line => exact h.2
  | block => exact h.2

/-- A gap is a stretch of the text, and has come to its end where something stands behind it. -/
structure IsGap (m : GapMode) (pos : Nat) (cs : List Char) (g : Gap) (passed : List Char) :
    Prop where
  append_eq : passed ++ g.rest = cs
  stop_eq : g.stop = pos + passed.length
  ends : g.rest ≠ [] → m.Ends passed

theorem IsGap.cons {m m' : GapMode} {pos : Nat} {cs passed : List Char} {g : Gap} {c : Char}
    (h : IsGap m' (pos + 1) cs g passed) (hends : m'.Ends passed → m.Ends (c :: passed)) :
    IsGap m pos (c :: cs) g (c :: passed) where
  append_eq := by rw [List.cons_append, h.append_eq]
  stop_eq := by
    rw [h.stop_eq, List.length_cons]
    omega
  ends hrest := hends (h.ends hrest)

/-- Inside a comment a further character in front changes nothing at the end. -/
theorem EndsApart.cons_of_ne_nil {c : Char} {cs : List Char} (h : cs ≠ [] ∧ EndsApart cs) :
    c :: cs ≠ [] ∧ EndsApart (c :: cs) := by
  refine ⟨List.cons_ne_nil c cs, ?_⟩
  obtain ⟨d, ds, rfl⟩ := List.exists_cons_of_ne_nil h.1
  exact h.2

theorem exists_isGap (m : GapMode) (pos : Nat) (newLine : Bool) (comments : List Span)
    (cs : List Char) : ∃ passed, IsGap m pos cs (gap m pos newLine comments cs) passed := by
  have hslash : isWordChar '/' = false := by decide +kernel
  fun_induction gap m pos newLine comments cs with
  | case1 pos newLine comments cs ih =>
    obtain ⟨passed, h⟩ := ih
    have hline := IsGap.cons (m := .line pos) (c := '/') h EndsApart.cons_of_ne_nil
    exact ⟨_, hline.cons fun hends => hends.2.cons hslash⟩
  | case2 pos newLine comments cs ih =>
    obtain ⟨passed, h⟩ := ih
    have hblock := IsGap.cons (m := .block pos) (c := '*') h EndsApart.cons_of_ne_nil
    exact ⟨_, hblock.cons fun hends => hends.2.cons hslash⟩
  | case3 pos newLine comments c cs _ _ hspace ih =>
    obtain ⟨passed, h⟩ := ih
    exact ⟨_, h.cons fun hends => hends.cons (not_isWordChar_of_isSpace hspace)⟩
  | case4 pos newLine comments c cs =>
    exact ⟨[], rfl, rfl, fun _ => nofun⟩
  | case5 start pos newLine comments c cs hend ih =>
    obtain ⟨passed, h⟩ := ih
    exact ⟨_, h.cons fun hends =>
      ⟨List.cons_ne_nil _ _, hends.cons (not_isWordChar_of_endsLine hend)⟩⟩
  | case6 start pos newLine comments c cs hend ih =>
    obtain ⟨passed, h⟩ := ih
    exact ⟨_, h.cons EndsApart.cons_of_ne_nil⟩
  | case7 start pos newLine comments cs ih =>
    obtain ⟨passed, h⟩ := ih
    have hclose := IsGap.cons (m := .block start) (c := '/') h fun hends =>
      ⟨List.cons_ne_nil _ _, hends.cons hslash⟩
    exact ⟨_, hclose.cons EndsApart.cons_of_ne_nil⟩
  | case8 start pos newLine comments c cs _ ih =>
    obtain ⟨passed, h⟩ := ih
    exact ⟨_, h.cons EndsApart.cons_of_ne_nil⟩
  | case9 start pos newLine comments =>
    exact ⟨[], rfl, rfl, fun h => absurd rfl h⟩
  | case10 m pos newLine comments hline =>
    exact ⟨[], rfl, rfl, fun h => absurd rfl h⟩

/-! ## Scanned tokens -/

/-- Whether a word that starts at a place of a text does not go on with what stands before it. -/
def Apart (cs : List Char) (i : Nat) : Prop :=
  cs.drop i ≠ [] → (∀ c ∈ (cs.drop i).head?, isNamePart c = true) → EndsApart (cs.take i)

variable {cs : List Char} {pos : Nat}

theorem text_append_rest (pos : Nat) (cs : List Char) :
    (scan pos cs).text.toList ++ (scan pos cs).rest = (scan pos cs).here := by
  show (String.ofList (List.take _ _)).toList ++ List.drop _ _ = _
  rw [String.toList_ofList, List.take_append_drop]
  rfl

/-- How far a token goes is told by what stands at its place. -/
theorem stop_scan (pos : Nat) (cs : List Char) :
    (scan pos cs).span.stop = (scan pos cs).span.start + (lexeme (scan pos cs).here).2 :=
  rfl

theorem rest_scan (pos : Nat) (cs : List Char) :
    (scan pos cs).rest = (scan pos cs).here.drop (lexeme (scan pos cs).here).2 :=
  rfl

theorem toList_text_scan (pos : Nat) (cs : List Char) :
    (scan pos cs).text.toList = (scan pos cs).here.take (lexeme (scan pos cs).here).2 :=
  String.toList_ofList

/-- A token stands in the text at its position. -/
theorem drop_start_scan (cs : List Char) (pos : Nat) :
    cs.drop (scan pos (cs.drop pos)).span.start = (scan pos (cs.drop pos)).here := by
  obtain ⟨passed, h⟩ := exists_isGap .code pos false [] (cs.drop pos)
  show cs.drop (gap .code pos false [] (cs.drop pos)).stop =
    (gap .code pos false [] (cs.drop pos)).rest
  rw [h.stop_eq, ← List.drop_drop]
  conv => lhs; rw [← h.append_eq]
  exact List.drop_left

theorem drop_stop_scan (cs : List Char) (pos : Nat) :
    cs.drop (scan pos (cs.drop pos)).span.stop = (scan pos (cs.drop pos)).rest := by
  rw [stop_scan, ← List.drop_drop, drop_start_scan, rest_scan]

/-- What stands apart at a place stands apart behind blanks and comments too. -/
theorem Apart.scan (h : Apart cs pos) : Apart cs (scan pos (cs.drop pos)).span.start := by
  obtain ⟨passed, hgap⟩ := exists_isGap .code pos false [] (cs.drop pos)
  have hstart : (Token.scan pos (cs.drop pos)).span.start = pos + passed.length := hgap.stop_eq
  have hhere : (gap .code pos false [] (cs.drop pos)).rest = cs.drop (pos + passed.length) := by
    rw [← hstart, drop_start_scan]
    rfl
  rw [hstart]
  intro hne hpart
  cases passed with
  | nil => exact h hne hpart
  | cons c passed =>
    have hends : EndsApart (c :: passed) := hgap.ends (by rw [hhere]; exact hne)
    have htake : cs.take (pos + (c :: passed).length) = cs.take pos ++ (c :: passed) := by
      rw [List.take_add, ← hgap.append_eq, List.take_left]
    intro d hd
    rw [htake, List.getLast?_append, List.getLast?_cons] at hd
    exact hends d (by rw [List.getLast?_cons]; exact hd)

/-- Where something stands behind a token, the token is as long as its text. -/
theorem length_text_of_rest_ne_nil (h : (scan pos cs).rest ≠ []) :
    (lexeme (scan pos cs).here).2 = (scan pos cs).text.toList.length := by
  rw [rest_scan] at h
  rw [toList_text_scan, List.length_take, Nat.min_eq_left]
  by_contra hlt
  exact h (List.drop_eq_nil_of_le (by omega))

/-- What stands behind a mark, or behind any token that does not end in a word character, stands
apart. -/
theorem apart_stop_of_endsApart (hne : (scan pos (cs.drop pos)).text.toList ≠ [])
    (hends : EndsApart (scan pos (cs.drop pos)).text.toList) :
    Apart cs (scan pos (cs.drop pos)).span.stop := by
  intro hrest _
  rw [drop_stop_scan] at hrest
  have htake : cs.take (scan pos (cs.drop pos)).span.stop =
      cs.take (scan pos (cs.drop pos)).span.start ++ (scan pos (cs.drop pos)).text.toList := by
    rw [stop_scan, List.take_add, drop_start_scan, toList_text_scan]
  obtain ⟨c, text, htext⟩ := List.exists_cons_of_ne_nil hne
  intro d hd
  rw [htake, htext, List.getLast?_append, List.getLast?_cons] at hd
  exact hends d (by rw [htext, List.getLast?_cons]; exact hd)

/-! ## Words -/

theorem nameLength_append {w : List Char} (h : ∀ c ∈ w, isNamePart c = true) (rest : List Char) :
    nameLength false (w ++ rest) = w.length + nameLength false rest := by
  induction w with
  | nil => rw [List.nil_append, List.length_nil, Nat.zero_add]
  | cons c w ih =>
    have hc : isNamePart c = true := h c List.mem_cons_self
    have hbackslash : c ≠ '\\' := by
      rintro rfl
      revert hc
      decide +kernel
    have hstep : nameLength false (c :: (w ++ rest)) = 1 + nameLength false (w ++ rest) := by
      rw [nameLength.eq_3 _ _ (fun _ heq _ => hbackslash heq) (fun _ heq _ => hbackslash heq)]
      exact if_pos hc
    rw [List.cons_append, hstep, ih fun d hd => h d (List.mem_cons_of_mem c hd), List.length_cons]
    omega

/-- A word goes on as far as there are name parts. -/
theorem lexeme_append {w : List Char} {c : Char} (hc : isNameStart c = true)
    (h : ∀ d ∈ w, isNamePart d = true) (rest : List Char) :
    (lexeme (c :: w ++ rest)).2 = (c :: w).length + nameLength false rest := by
  have hword : (lexeme (c :: w ++ rest)).2 = nameLength false (c :: w ++ rest) := by
    rw [List.cons_append, lexeme, hc, Bool.true_or, if_pos rfl]
  have hpart : ∀ d ∈ c :: w, isNamePart d = true :=
    List.forall_mem_cons.mpr ⟨(Bool.and_eq_true_iff.mp hc).1, h⟩
  rw [hword, nameLength_append hpart]

/-- No name part stands behind a word: it would belong to the word. -/
theorem apart_stop_of_word {w : List Char} {c : Char}
    (hw : (scan pos (cs.drop pos)).text.toList = c :: w) (hc : isNameStart c = true)
    (h : ∀ d ∈ w, isNamePart d = true) : Apart cs (scan pos (cs.drop pos)).span.stop := by
  intro hrest hpart
  rw [drop_stop_scan] at hrest hpart
  have hlength := length_text_of_rest_ne_nil hrest
  obtain ⟨d, rest, hd⟩ := List.exists_cons_of_ne_nil hrest
  have hwd : ∀ e ∈ w ++ [d], isNamePart e = true := by
    rw [List.forall_mem_append, List.forall_mem_singleton]
    exact ⟨h, hpart d (by rw [hd]; rfl)⟩
  have hhere : (scan pos (cs.drop pos)).here = c :: (w ++ [d]) ++ rest := by
    rw [← text_append_rest, hw, hd, List.cons_append, List.cons_append, List.append_assoc]
    rfl
  -- the name would go on with `d`
  rw [hhere, lexeme_append hc hwd, hw, List.length_cons, List.length_cons, List.length_append,
    List.length_singleton] at hlength
  omega

/-! ## Texts that are words -/

/-- Whether a text is read as one word where it stands in front of something, as every plain name
is. -/
def IsWord (s : String) : Prop :=
  ∃ rest, lexeme (s.toList ++ rest) = (.word, s.toList.length)

theorem nameLength_le (braced : Bool) (cs : List Char) : nameLength braced cs ≤ cs.length := by
  fun_induction nameLength braced cs with
  | case1 cs ih =>
    simp only [List.length_cons]
    omega
  | case2 cs _ ih =>
    simp only [List.length_cons]
    omega
  | case3 c cs _ _ hc ih | case5 cs ih | case6 c cs _ hc ih =>
    rw [List.length_cons]
    omega
  | case4 | case7 | case8 => exact Nat.zero_le _

theorem length_lexeme_of_word {cs : List Char} (h : (lexeme cs).1 = .word) :
    (lexeme cs).2 = nameLength false cs := by
  revert h
  fun_cases lexeme cs with
  | case2 => exact fun _ => rfl
  | _ => exact nofun

theorem isWord_text (h : (scan pos cs).kind = .word) : IsWord (scan pos cs).text := by
  have hkind : (lexeme (scan pos cs).here).1 = .word := h
  have hlength : (lexeme (scan pos cs).here).2 = (scan pos cs).text.toList.length := by
    rw [toList_text_scan, List.length_take, length_lexeme_of_word hkind,
      Nat.min_eq_left (nameLength_le false _)]
  refine ⟨(scan pos cs).rest, ?_⟩
  rw [text_append_rest]
  exact Prod.ext hkind hlength

end RouteAtlas.Syntax.Token
