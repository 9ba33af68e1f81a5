import RouteAtlas.Alias.ConfigText
import RouteAtlas.Proofs.Text

/-!
# Quoted literals

A configuration is read as text by scanners of different kinds: one takes out comments, one finds
where a block ends, one cuts at commas, one looks for a colon, one decodes literals.  Each has its
own idea of where it stands, and they are right about a text only if they agree where a literal
ends.  They do: of a literal that is closed (`IsBody`) **no scanner takes anything for code**, and
behind it each goes on as it would have gone on before it.

A quote is closed in one place or nowhere (`closed_or_unclosed`); if nowhere, the rest of the text
is in its literal.

A string can be written as a literal with any quote, if that quote and the backslash get a
backslash in front of them (`quoted`); decoding takes it back (`literals_quoted`).
-/

set_option autoImplicit false

namespace RouteAtlas.Alias.ConfigText

open Text

/-! ## Bodies -/

/-- Whether a text can stand between two quotes of a kind: the quote is found in it only behind a
backslash, and no backslash is the last character. -/
inductive IsBody (q : Char) : List Char → Prop
  | nil : IsBody q []
  | plain {c s} (hslash : c ≠ '\\') (hquote : c ≠ q) (h : IsBody q s) : IsBody q (c :: s)
  | escape (c) {s} (h : IsBody q s) : IsBody q ('\\' :: c :: s)

theorem IsBody.append_of_plain {q : Char} {s t : List Char} (h : IsBody q t)
    (hplain : ∀ c ∈ s, c ≠ '\\' ∧ c ≠ q) : IsBody q (s ++ t) := by
  induction s with
  | nil => exact h
  | cons c s ih =>
    obtain ⟨hslash, hquote⟩ := hplain c List.mem_cons_self
    exact .plain hslash hquote (ih fun d hd => hplain d (List.mem_cons_of_mem c hd))

/-- Whether a quote of a kind is never closed in a text: it is a body, or a backslash is left over
at its end. -/
inductive IsUnclosed (q : Char) : List Char → Prop
  | nil : IsUnclosed q []
  | slash : IsUnclosed q ['\\']
  | plain {c s} (hslash : c ≠ '\\') (hquote : c ≠ q) (h : IsUnclosed q s) : IsUnclosed q (c :: s)
  | escape (c) {s} (h : IsUnclosed q s) : IsUnclosed q ('\\' :: c :: s)

theorem closed_or_unclosed (q : Char) : ∀ s : List Char,
    (∃ body rest, IsBody q body ∧ s = body ++ q :: rest) ∨ IsUnclosed q s
  | [] => .inr .nil
  | [c] => by
    by_cases hquote : c = q
    · exact .inl ⟨[], [], .nil, hquote ▸ rfl⟩
    · by_cases hslash : c = '\\'
      · exact .inr (hslash ▸ .slash)
      · exact .inr (.plain hslash hquote .nil)
  | c :: d :: s => by
    by_cases hquote : c = q
    · exact .inl ⟨[], d :: s, .nil, hquote ▸ rfl⟩
    · by_cases hslash : c = '\\'
      · subst hslash
        rcases closed_or_unclosed q s with ⟨body, rest, hbody, rfl⟩ | hopen
        · exact .inl ⟨'\\' :: d :: body, rest, .escape d hbody, rfl⟩
        · exact .inr (.escape d hopen)
      · rcases closed_or_unclosed q (d :: s) with ⟨body, rest, hbody, hs⟩ | hopen
        · exact .inl ⟨c :: body, rest, .plain hslash hquote hbody, by rw [hs]; rfl⟩
        · exact .inr (.plain hslash hquote hopen)

/-- A quote is closed in one place only. -/
theorem IsBody.append_inj {q : Char} (hq : q ≠ '\\') {body body' rest rest' : List Char}
    (h : IsBody q body) (h' : IsBody q body') (heq : body ++ q :: rest = body' ++ q :: rest') :
    body = body' ∧ rest = rest' := by
  induction h generalizing body' with
  | nil =>
    cases h' with
    | nil => exact ⟨rfl, (List.cons.inj heq).2⟩
    | plain _ hquote _ => exact absurd (List.cons.inj heq).1.symm hquote
    | escape => exact absurd (List.cons.inj heq).1 hq
  | plain hslash hquote _ ih =>
    cases h' with
    | nil => exact absurd (List.cons.inj heq).1 hquote
    | plain _ _ h' =>
      obtain ⟨rfl, htail⟩ := List.cons.inj heq
      obtain ⟨rfl, hrest⟩ := ih h' htail
      exact ⟨rfl, hrest⟩
    | escape => exact absurd (List.cons.inj heq).1 hslash
  | escape c _ ih =>
    cases h' with
    | nil => exact absurd (List.cons.inj heq).1.symm hq
    | plain hslash _ _ => exact absurd (List.cons.inj heq).1.symm hslash
    | escape d h' =>
      obtain ⟨rfl, htail⟩ := List.cons.inj (List.cons.inj heq).2
      obtain ⟨rfl, hrest⟩ := ih h' htail
      exact ⟨rfl, hrest⟩

/-- A quote that is never closed is not closed anywhere. -/
theorem IsUnclosed.ne_append {q : Char} (hq : q ≠ '\\') {s body rest : List Char}
    (h : IsUnclosed q s) (hbody : IsBody q body) : s ≠ body ++ q :: rest := by
  intro heq
  induction h generalizing body with
  | nil => simp at heq
  | slash =>
    cases hbody with
    | nil => exact hq (List.cons.inj heq).1.symm
    | plain hslash _ _ => exact hslash (List.cons.inj heq).1.symm
    | escape => simp at heq
  | plain hslash hquote _ ih =>
    cases hbody with
    | nil => exact hquote (List.cons.inj heq).1
    | plain _ _ hbody => exact ih hbody (List.cons.inj heq).2
    | escape => exact hslash (List.cons.inj heq).1
  | escape c _ ih =>
    cases hbody with
    | nil => exact hq (List.cons.inj heq).1.symm
    | plain hslash _ _ => exact hslash (List.cons.inj heq).1.symm
    | escape d hbody => exact ih hbody (List.cons.inj (List.cons.inj heq).2).2

theorem isQuote_iff {c : Char} : isQuote c = true ↔ c = '"' ∨ c = '\'' ∨ c = '\x60' := by
  simp [isQuote, or_assoc]

theorem ne_slash_of_isQuote {q : Char} (h : isQuote q = true) : q ≠ '\\' := by
  rcases isQuote_iff.mp h with rfl | rfl | rfl <;> decide

theorem ne_of_isBlank {c d : Char} (hc : isBlank c = true) (hd : isBlank d = false) : c ≠ d := by
  rintro rfl
  exact Bool.false_ne_true (hd.symm.trans hc)

theorem isBlank_of_isQuote {q : Char} (h : isQuote q = true) : isBlank q = false := by
  rcases isQuote_iff.mp h with rfl | rfl | rfl <;> decide

theorem isQuote_of_isBlank {c : Char} (h : isBlank c = true) : isQuote c = false := by
  rw [← Bool.not_eq_true]
  exact fun hq => ne_of_isBlank h (isBlank_of_isQuote hq) rfl

/-- The characters of a string as they stand between two quotes of a kind. -/
def escaped (q : Char) (s : List Char) : List Char :=
  s.flatMap fun c => if c = q ∨ c = '\\' then ['\\', c] else [c]

/-- The literal of a string. -/
def quoted (q : Char) (s : List Char) : List Char :=
  q :: escaped q s ++ [q]

theorem isBody_escaped (q : Char) (s : List Char) : IsBody q (escaped q s) := by
  induction s with
  | nil => exact .nil
  | cons c s ih =>
    rw [escaped, List.flatMap_cons]
    split
    · exact .escape c ih
    · rename_i hc
      obtain ⟨hquote, hslash⟩ := not_or.mp hc
      exact .plain hslash hquote ih

/-- What the characters between two quotes stand for: a backslash is left out, and what is behind it
is taken as it is. -/
def unescaped : List Char → List Char
  | '\\' :: c :: s => c :: unescaped s
  | c :: s => c :: unescaped s
  | [] => []

theorem unescaped_escaped (q : Char) (s : List Char) : unescaped (escaped q s) = s := by
  induction s with
  | nil => rfl
  | cons c s ih =>
    rw [escaped, List.flatMap_cons, ← escaped]
    split
    · simp [unescaped, ih]
    · rename_i hc
      obtain ⟨-, hslash⟩ := not_or.mp hc
      simp [unescaped, hslash, ih]

/-! ## Comments -/

theorem strip_code_cons {c : Char} (h : c ≠ '/') (s : List Char) :
    strip .code (c :: s) = c :: strip (if isQuote c then .quoted c else .code) s := by
  simp [strip, h]

theorem strip_plain {s : List Char} (h : ∀ c ∈ s, c ≠ '/' ∧ isQuote c = false) (rest : List Char) :
    strip .code (s ++ rest) = s ++ strip .code rest := by
  induction s with
  | nil => rfl
  | cons c s ih =>
    obtain ⟨hslash, hquote⟩ := h c List.mem_cons_self
    rw [List.cons_append, strip_code_cons hslash, hquote]
    simp [ih fun d hd => h d (List.mem_cons_of_mem c hd)]

theorem strip_body {q : Char} (hq : q ≠ '\\') {body : List Char} (h : IsBody q body)
    (rest : List Char) :
    strip (.quoted q) (body ++ q :: rest) = body ++ q :: strip .code rest := by
  induction h with
  | nil => simp [strip, hq]
  | plain hslash hquote _ ih => simp [strip, hslash, hquote, ih]
  | escape c _ ih => simp [strip, ih]

/-- Nothing in a literal is a comment. -/
theorem strip_literal {q : Char} (hq : isQuote q = true) {body : List Char} (h : IsBody q body)
    (rest : List Char) :
    strip .code (q :: body ++ q :: rest) = q :: body ++ q :: strip .code rest := by
  have hslash : q ≠ '/' := by
    rcases isQuote_iff.mp hq with rfl | rfl | rfl <;> decide
  rw [List.cons_append, strip_code_cons hslash, if_pos hq, strip_body (ne_slash_of_isQuote hq) h]
  rfl

/-- Behind a quote that is never closed there are no comments. -/
theorem strip_unclosed {q : Char} (hq : isQuote q = true) {s : List Char} (h : IsUnclosed q s) :
    strip .code (q :: s) = q :: s := by
  have hslash : q ≠ '/' := by
    rcases isQuote_iff.mp hq with rfl | rfl | rfl <;> decide
  have hopen : strip (.quoted q) s = s := by
    induction h with
    | nil => rfl
    | slash => simp [strip]
    | plain hslash hquote _ ih => simp [strip, hslash, hquote, ih]
    | escape c _ ih => simp [strip, ih]
  rw [strip_code_cons hslash, if_pos hq, hopen]

/-! ## Text that is not code -/

/-- Whether a text is read from one mode into another without any of it being code. -/
inductive Mode.Skips : Mode → List Char → Mode → Prop
  | nil {m} : Skips m [] m
  | cons {m m' c s} (hcode : m.isCode c = false) (h : Skips (m.next c) s m') : Skips m (c :: s) m'

theorem Mode.Skips.append {m m' m'' : Mode} {s t : List Char} (h : m.Skips s m')
    (h' : m'.Skips t m'') : m.Skips (s ++ t) m'' := by
  induction h with
  | nil => exact h'
  | cons hcode _ ih => exact .cons hcode (ih h')

theorem skips_body {q : Char} {body : List Char} (h : IsBody q body) :
    (Mode.quoted q).Skips body (.quoted q) := by
  induction h with
  | nil => exact .nil
  | plain hslash hquote _ ih => exact .cons rfl (by simpa [Mode.next, hslash, hquote] using ih)
  | escape c _ ih => exact .cons rfl (.cons rfl ih)

/-- Nothing in a literal is code, and behind it there is code again. -/
theorem skips_literal {q : Char} (hq : isQuote q = true) {body : List Char} (h : IsBody q body) :
    Mode.outside.Skips (q :: body ++ [q]) .outside := by
  have hopen : Mode.outside.next q = .quoted q := by simp [Mode.next, hq]
  have hclose : (Mode.quoted q).next q = .outside := by simp [Mode.next, ne_slash_of_isQuote hq]
  refine .cons (by simp [Mode.isCode, hq]) (hopen ▸ (skips_body h).append ?_)
  exact .cons rfl (hclose ▸ .nil)

variable {m m' : Mode} {s : List Char}

theorem blockTail_skips (opening closing : Char) (depth : Nat) (h : m.Skips s m')
    (rest : List Char) :
    blockTail opening closing depth m (s ++ rest) =
      (blockTail opening closing depth m' rest).map (s ++ ·) := by
  induction h with
  | nil => simp
  | cons hcode _ ih => simp [blockTail, hcode, ih, Function.comp_def]

theorem partsFrom_skips (depth : Int) (acc : List Char) (h : m.Skips s m') (rest : List Char) :
    partsFrom depth m acc (s ++ rest) = partsFrom depth m' (s.reverse ++ acc) rest := by
  induction h generalizing acc with
  | nil => rfl
  | cons hcode _ ih => simp [partsFrom, hcode, ih]

theorem breakAtColon_skips (h : m.Skips s m') (rest : List Char) :
    breakAtColon m (s ++ rest) =
      (breakAtColon m' rest).map fun (before, after) => (s ++ before, after) := by
  induction h with
  | nil => simp
  | cons hcode _ ih => simp [breakAtColon, hcode, ih, Function.comp_def]

/-! ## Decoding -/

theorem literalsFrom_body {q : Char} (hq : q ≠ '\\') {body : List Char} (h : IsBody q body)
    (acc rest : List Char) :
    literalsFrom (some (q, acc)) (body ++ q :: rest) =
      (acc.reverse ++ unescaped body) :: literalsFrom none rest := by
  induction h generalizing acc with
  | nil => simp [literalsFrom, unescaped, hq]
  | plain hslash hquote _ ih => simp [literalsFrom, unescaped, hslash, hquote, ih]
  | escape c _ ih => simp [literalsFrom, unescaped, ih]

/-- A literal that is closed is decoded, and what is behind it is read as before. -/
theorem literals_closed {q : Char} (hq : isQuote q = true) {body : List Char} (h : IsBody q body)
    (rest : List Char) : literals (q :: body ++ q :: rest) = unescaped body :: literals rest := by
  have hbody := literalsFrom_body (ne_slash_of_isQuote hq) h [] rest
  simpa [literals, literalsFrom, hq] using hbody

/-- A literal that is never closed is left out, and everything behind its quote with it. -/
theorem literals_unclosed {q : Char} (hq : isQuote q = true) {s : List Char}
    (h : IsUnclosed q s) : literals (q :: s) = [] := by
  have hopen (acc : List Char) : literalsFrom (some (q, acc)) s = [] := by
    induction h generalizing acc with
    | nil => rfl
    | slash => simp [literalsFrom, (ne_slash_of_isQuote hq).symm]
    | plain hslash hquote _ ih => simp [literalsFrom, hslash, hquote, ih]
    | escape c _ ih => simp [literalsFrom, ih]
  simp [literals, literalsFrom, hq, hopen]

theorem literals_code {c : Char} (h : isQuote c = false) (s : List Char) :
    literals (c :: s) = literals s := by
  simp [literals, literalsFrom, h]

/-- Decoding gives back the string of a literal. -/
theorem literals_quoted {q : Char} (hq : isQuote q = true) (s : List Char) :
    literals (quoted q s) = [s] := by
  rw [quoted, literals_closed hq (isBody_escaped q s), unescaped_escaped]
  rfl

end RouteAtlas.Alias.ConfigText
