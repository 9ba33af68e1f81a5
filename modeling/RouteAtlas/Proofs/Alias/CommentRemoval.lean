import RouteAtlas.Proofs.Alias.Literals

/-!
# What the removal of comments keeps

From left to right every text is read, in one way only, as literals, comments and single characters
between them (`Reads`).  A literal or a comment that is begun last may have no end.  **What is left of
a text are its pieces that are no comments, each as it was, and they are read again as these pieces**
(`stripComments_keeps`).  So no comment and no literal comes about where a comment was taken out, and
taking out comments a second time does nothing.

What could go wrong is a slash that meets a slash or a star.  But a slash in front of a comment would
have begun a comment itself, so there is none.
-/

set_option autoImplicit false

namespace RouteAtlas.Alias.ConfigText

open Text

/-! ## Pieces -/

inductive Kind
  | literal
  | line
  | block
  | other

/-- What a text is made of.  The flags tell whether a literal or a comment has its end. -/
inductive Piece
  | literal (q : Char) (body : List Char) (closed : Bool)
  | line (body : List Char)
  | block (body : List Char) (closed : Bool)
  | other (c : Char)

namespace Piece

def text : Piece → List Char
  | literal q body closed => q :: body ++ if closed then [q] else []
  | line body => '/' :: '/' :: body
  | block body closed => '/' :: '*' :: body ++ if closed then ['*', '/'] else []
  | other c => [c]

def kind : Piece → Kind
  | literal _ _ _ => .literal
  | line _ => .line
  | block _ _ => .block
  | other _ => .other

def isComment (p : Piece) : Bool :=
  match p.kind with
  | .line | .block => true
  | .literal | .other => false

/-- Whether a piece ends where a text follows it.  A line comment ends in front of the newline, a
block comment with the first star and slash behind its beginning; what has no end goes to the end of
the text. -/
def EndsAt : Piece → List Char → Prop
  | literal q body true, _ => isQuote q = true ∧ IsBody q body
  | literal q body false, rest => isQuote q = true ∧ IsUnclosed q body ∧ rest = []
  | line body, rest => '\n' ∉ body ∧ ∀ c ∈ rest.head?, c = '\n'
  | block body true, _ => ¬['*', '/'] <:+: body
  | block body false, rest => ¬['*', '/'] <:+: body ∧ rest = []
  | other c, rest => isQuote c = false ∧ (c = '/' → ∀ d ∈ rest.head?, d ≠ '/' ∧ d ≠ '*')

end Piece

/-- The pieces that a text is read as. -/
inductive Reads : List Piece → List Char → Prop
  | nil : Reads [] []
  | cons {p ps rest} (hp : p.EndsAt rest) (h : Reads ps rest) : Reads (p :: ps) (p.text ++ rest)

/-- The pieces that are no comments. -/
def kept (ps : List Piece) : List Piece :=
  ps.filter fun p => !p.isComment

theorem Reads.text_eq {ps : List Piece} {s : List Char} (h : Reads ps s) :
    s = ps.flatMap Piece.text := by
  induction h with
  | nil => rfl
  | cons _ _ ih => rw [List.flatMap_cons, ← ih]

/-! ## The first piece -/

/-- The kind of the piece that a text begins with. -/
def kindAt : List Char → Kind
  | '/' :: '/' :: _ => .line
  | '/' :: '*' :: _ => .block
  | c :: _ => if isQuote c then .literal else .other
  | [] => .other

theorem kindAt_of_ne_slash {c : Char} (h : c ≠ '/') (s : List Char) :
    kindAt (c :: s) = if isQuote c then .literal else .other := by
  simp [kindAt, h]

/-- A slash begins no comment if neither a slash nor a star follows it. -/
theorem kindAt_slash {s : List Char} (h : ∀ d ∈ s.head?, d ≠ '/' ∧ d ≠ '*') :
    kindAt ('/' :: s) = .other := by
  cases s with
  | nil => rfl
  | cons d s =>
    obtain ⟨hslash, hstar⟩ := h d rfl
    simp [kindAt, hslash, hstar, isQuote]

theorem Piece.EndsAt.kindAt_eq {p : Piece} {rest : List Char} (h : p.EndsAt rest) :
    kindAt (p.text ++ rest) = p.kind := by
  cases p with
  | literal q body closed =>
    have hq : isQuote q = true := by
      cases closed <;> exact h.1
    have hslash : q ≠ '/' := by
      rintro rfl
      cases hq
    simp [text, kind, kindAt_of_ne_slash hslash, hq]
  | line body => rfl
  | block body closed => rfl
  | other c =>
    obtain ⟨hquote, hslash⟩ := h
    by_cases hc : c = '/'
    · subst hc
      exact kindAt_slash (hslash rfl)
    · simp [text, kind, kindAt_of_ne_slash hc, hquote]

/-- The end of a block comment is looked for from its beginning. -/
theorem exists_first_end {s : List Char} (h : ['*', '/'] <:+: s) :
    ∃ body rest, ¬['*', '/'] <:+: body ∧ s = body ++ '*' :: '/' :: rest := by
  induction s with
  | nil => exact absurd (List.infix_nil.mp h) (List.cons_ne_nil _ _)
  | cons c s ih =>
    rcases List.infix_cons_iff.mp h with ⟨rest, hhere⟩ | hlater
    · exact ⟨[], rest, by simp, hhere.symm⟩
    · by_cases hfirst : ['*', '/'] <+: c :: s
      · obtain ⟨rest, hrest⟩ := hfirst
        exact ⟨[], rest, by simp, hrest.symm⟩
      · obtain ⟨body, rest, hbody, rfl⟩ := ih hlater
        refine ⟨c :: body, rest, fun hin => ?_, rfl⟩
        rcases List.infix_cons_iff.mp hin with hpre | hin
        · exact hfirst (hpre.trans ⟨'*' :: '/' :: rest, rfl⟩)
        · exact hbody hin

/-- There is one first end. -/
theorem first_end_unique {body body' rest rest' : List Char} (h : ¬['*', '/'] <:+: body)
    (h' : ¬['*', '/'] <:+: body')
    (heq : body ++ '*' :: '/' :: rest = body' ++ '*' :: '/' :: rest') :
    body = body' ∧ rest = rest' := by
  -- If one body is longer, the end of the other is in it.
  have hlonger : ∀ {s t mid rest rest' : List Char}, ¬['*', '/'] <:+: t → t = s ++ mid →
      '*' :: '/' :: rest = mid ++ '*' :: '/' :: rest' → mid = [] := by
    intro s t mid rest rest' hno ht hmid
    match mid with
    | [] => rfl
    | [c] => simp at hmid
    | c :: d :: mid =>
      simp only [List.cons_append, List.cons.injEq] at hmid
      obtain ⟨rfl, rfl, -⟩ := hmid
      exact absurd ⟨s, mid, by simp [ht]⟩ hno
  rcases List.append_eq_append_iff.mp heq with ⟨mid, ht, hmid⟩ | ⟨mid, ht, hmid⟩
  · obtain rfl := hlonger h' ht hmid
    simpa using And.intro ht.symm hmid
  · obtain rfl := hlonger h ht hmid
    simpa using And.intro ht hmid.symm

theorem upTo_newline {body rest : List Char} (h : '\n' ∉ body)
    (hrest : ∀ c ∈ rest.head?, c = '\n') : upTo '\n' (body ++ rest) = body := by
  cases rest with
  | nil => rw [List.append_nil, upTo_eq_self h]
  | cons c rest =>
    obtain rfl := hrest c rfl
    exact upTo_append_cons h rest

/-! ## One reading -/

namespace Piece

variable {rest rest' : List Char}

theorem EndsAt.eq_of_literal {q q' : Char} {body body' : List Char} {closed closed' : Bool}
    (h : (literal q body closed).EndsAt rest) (h' : (literal q' body' closed').EndsAt rest')
    (heq : (literal q body closed).text ++ rest = (literal q' body' closed').text ++ rest') :
    literal q body closed = literal q' body' closed' ∧ rest = rest' := by
  obtain ⟨rfl, heq⟩ : q = q' ∧ body ++ ((if closed then [q] else []) ++ rest) =
      body' ++ ((if closed' then [q'] else []) ++ rest') := by
    simpa [text] using heq
  cases closed with
  | true =>
    obtain ⟨hq, hbody⟩ := h
    cases closed' with
    | true =>
      obtain ⟨rfl, rfl⟩ := hbody.append_inj (ne_slash_of_isQuote hq) h'.2 heq
      exact ⟨rfl, rfl⟩
    | false =>
      obtain ⟨-, hopen, rfl⟩ := h'
      exact absurd (by simpa using heq.symm) (hopen.ne_append (ne_slash_of_isQuote hq) hbody)
  | false =>
    obtain ⟨hq, hopen, rfl⟩ := h
    cases closed' with
    | true =>
      exact absurd (by simpa using heq) (hopen.ne_append (ne_slash_of_isQuote hq) h'.2)
    | false =>
      obtain ⟨-, -, rfl⟩ := h'
      obtain rfl : body = body' := by simpa using heq
      exact ⟨rfl, rfl⟩

theorem EndsAt.eq_of_line {body body' : List Char} (h : (line body).EndsAt rest)
    (h' : (line body').EndsAt rest') (heq : (line body).text ++ rest = (line body').text ++ rest') :
    line body = line body' ∧ rest = rest' := by
  have heq : body ++ rest = body' ++ rest' := by simpa [text] using heq
  obtain rfl : body = body' := by
    rw [← upTo_newline h.1 h.2, heq, upTo_newline h'.1 h'.2]
  exact ⟨rfl, List.append_cancel_left heq⟩

theorem EndsAt.eq_of_block {body body' : List Char} {closed closed' : Bool}
    (h : (block body closed).EndsAt rest) (h' : (block body' closed').EndsAt rest')
    (heq : (block body closed).text ++ rest = (block body' closed').text ++ rest') :
    block body closed = block body' closed' ∧ rest = rest' := by
  have heq : body ++ ((if closed then ['*', '/'] else []) ++ rest) =
      body' ++ ((if closed' then ['*', '/'] else []) ++ rest') := by
    simpa [text] using heq
  cases closed with
  | true =>
    cases closed' with
    | true =>
      obtain ⟨rfl, rfl⟩ := first_end_unique h h' heq
      exact ⟨rfl, rfl⟩
    | false =>
      obtain ⟨hopen, rfl⟩ := h'
      exact absurd ⟨body, rest, by simpa using heq⟩ hopen
  | false =>
    obtain ⟨hopen, rfl⟩ := h
    cases closed' with
    | true => exact absurd ⟨body', rest', by simpa using heq.symm⟩ hopen
    | false =>
      obtain ⟨-, rfl⟩ := h'
      obtain rfl : body = body' := by simpa using heq
      exact ⟨rfl, rfl⟩

/-- The first piece of a text is one only. -/
theorem EndsAt.unique {p p' : Piece} (h : p.EndsAt rest) (h' : p'.EndsAt rest')
    (heq : p.text ++ rest = p'.text ++ rest') : p = p' ∧ rest = rest' := by
  have hkind : p.kind = p'.kind := by
    rw [← h.kindAt_eq, heq, h'.kindAt_eq]
  match p, p', hkind with
  | literal .., literal .., _ => exact h.eq_of_literal h' heq
  | line .., line .., _ => exact h.eq_of_line h' heq
  | block .., block .., _ => exact h.eq_of_block h' heq
  | other .., other .., _ => simpa [text] using heq

theorem text_ne_nil (p : Piece) : p.text ≠ [] := by
  cases p <;> exact List.cons_ne_nil _ _

end Piece

/-- A text that is not empty begins with a piece. -/
theorem exists_first_piece {s : List Char} (h : s ≠ []) :
    ∃ p : Piece, ∃ rest, p.EndsAt rest ∧ s = p.text ++ rest := by
  obtain ⟨c, s, rfl⟩ := List.exists_cons_of_ne_nil h
  cases hquote : isQuote c with
  | true =>
    rcases closed_or_unclosed c s with ⟨body, rest, hbody, rfl⟩ | hopen
    · exact ⟨.literal c body true, rest, ⟨hquote, hbody⟩, by simp [Piece.text]⟩
    · exact ⟨.literal c s false, [], ⟨hquote, hopen, rfl⟩, by simp [Piece.text]⟩
  | false =>
    by_cases hslash : c = '/' ∧ ∃ d ∈ s.head?, d = '/' ∨ d = '*'
    · obtain ⟨rfl, d, hd, hcomment⟩ := hslash
      obtain ⟨s, rfl⟩ := List.head?_eq_some_iff.mp hd
      rcases hcomment with rfl | rfl
      · refine ⟨.line (upTo '\n' s), s.dropWhile (· ≠ '\n'), ⟨?_, ?_⟩, ?_⟩
        · exact fun hin => absurd (List.mem_takeWhile_imp hin) (by decide)
        · intro c hc
          have hnot := List.head?_dropWhile_not (fun c => decide (c ≠ '\n')) s
          rw [hc] at hnot
          simpa using hnot
        · simp [Piece.text, upTo]
      · by_cases hend : ['*', '/'] <:+: s
        · obtain ⟨body, rest, hbody, rfl⟩ := exists_first_end hend
          exact ⟨.block body true, rest, hbody, by simp [Piece.text]⟩
        · exact ⟨.block s false, [], ⟨hend, rfl⟩, by simp [Piece.text]⟩
    · refine ⟨.other c, s, ⟨hquote, fun hc d hd => ?_⟩, rfl⟩
      exact not_or.mp fun hcomment => hslash ⟨hc, d, hd, hcomment⟩

theorem exists_reads (s : List Char) : ∃ ps, Reads ps s := by
  by_cases h : s = []
  · exact ⟨[], h ▸ .nil⟩
  · obtain ⟨p, rest, hp, hs⟩ := exists_first_piece h
    have hshorter : rest.length < s.length := by
      rw [hs, List.length_append]
      exact Nat.lt_add_of_pos_left (List.length_pos_iff.mpr p.text_ne_nil)
    obtain ⟨ps, hps⟩ := exists_reads rest
    exact ⟨p :: ps, hs ▸ .cons hp hps⟩
termination_by s.length

theorem Reads.unique {ps ps' : List Piece} {s : List Char} (h : Reads ps s) (h' : Reads ps' s) :
    ps = ps' := by
  induction h generalizing ps' with
  | nil =>
    cases ps' with
    | nil => rfl
    | cons p ps' => exact absurd h'.text_eq.symm (by simp [p.text_ne_nil])
  | @cons p ps rest hp _ ih =>
    generalize hs : p.text ++ rest = s at h'
    cases h' with
    | nil => exact absurd hs (by simp [p.text_ne_nil])
    | cons hp' hrest' =>
      obtain ⟨rfl, rfl⟩ := hp.unique hp' hs
      rw [ih hrest']

/-! ## Taking out comments -/

theorem strip_line {body rest : List Char} (h : '\n' ∉ body)
    (hrest : ∀ c ∈ rest.head?, c = '\n') : strip .line (body ++ rest) = strip .code rest := by
  induction body with
  | nil =>
    cases rest with
    | nil => rfl
    | cons c rest =>
      obtain rfl := hrest c rfl
      simp [strip, isQuote]
  | cons c body ih =>
    obtain ⟨hc, hbody⟩ := not_or.mp (mt List.mem_cons.mpr h)
    simp [strip, Ne.symm hc, ih hbody]

/-- Within a block comment a character is passed over, unless the comment ends there. -/
theorem strip_block_cons {c : Char} {s : List Char} (h : ¬['*', '/'] <+: c :: s) :
    strip .block (c :: s) = strip .block s := by
  rw [strip]
  rintro t rfl rfl
  exact h ⟨t, rfl⟩

theorem strip_block {body : List Char} (h : ¬['*', '/'] <:+: body) (rest : List Char) :
    strip .block (body ++ '*' :: '/' :: rest) = strip .code rest := by
  induction body with
  | nil => simp [strip]
  | cons c body ih =>
    have hbody : ¬['*', '/'] <:+: body := fun hin => h (List.infix_cons hin)
    have hhere : ¬['*', '/'] <+: c :: (body ++ '*' :: '/' :: rest) := by
      rintro ⟨t, ht⟩
      obtain ⟨rfl, hslash⟩ := List.cons.inj ht
      cases body with
      | nil => simp at hslash
      | cons d body =>
        obtain ⟨rfl, -⟩ := List.cons.inj hslash
        exact h ⟨[], body, rfl⟩
    rw [List.cons_append, strip_block_cons hhere, ih hbody]

theorem strip_block_eq_nil {body : List Char} (h : ¬['*', '/'] <:+: body) :
    strip .block body = [] := by
  induction body with
  | nil => rfl
  | cons c body ih =>
    rw [strip_block_cons fun hpre => h hpre.isInfix, ih fun hin => h (List.infix_cons hin)]

theorem strip_slash {s : List Char} (h : ∀ d ∈ s.head?, d ≠ '/' ∧ d ≠ '*') :
    strip .code ('/' :: s) = '/' :: strip .code s := by
  cases s with
  | nil => rfl
  | cons d s =>
    obtain ⟨hslash, hstar⟩ := h d rfl
    simp [strip, hslash, hstar, isQuote]

/-- A piece is taken out or kept as a whole, and what follows it is read as if it stood alone. -/
theorem strip_piece {p : Piece} {rest : List Char} (h : p.EndsAt rest) :
    strip .code (p.text ++ rest) =
      (if p.isComment then [] else p.text) ++ strip .code rest := by
  match p, h with
  | .literal q body true, ⟨hq, hbody⟩ =>
    simpa [Piece.text, Piece.isComment, Piece.kind] using strip_literal hq hbody rest
  | .literal q body false, ⟨hq, hopen, hrest⟩ =>
    subst hrest
    simpa [Piece.text, Piece.isComment, Piece.kind, strip] using strip_unclosed hq hopen
  | .line body, ⟨hbody, hrest⟩ =>
    simpa [Piece.text, Piece.isComment, Piece.kind, strip] using strip_line hbody hrest
  | .block body true, hbody =>
    simpa [Piece.text, Piece.isComment, Piece.kind, strip] using strip_block hbody rest
  | .block body false, ⟨hbody, hrest⟩ =>
    subst hrest
    simpa [Piece.text, Piece.isComment, Piece.kind, strip] using strip_block_eq_nil hbody
  | .other c, ⟨hquote, hslash⟩ =>
    by_cases hc : c = '/'
    · subst hc
      exact strip_slash (hslash rfl)
    · simp [Piece.text, Piece.isComment, Piece.kind, strip_code_cons hc, hquote]

/-- What a text begins with is still there, unless it may be a comment. -/
theorem head?_strip {s : List Char} (h : s.head? ≠ some '/') :
    (strip .code s).head? = s.head? := by
  cases s with
  | nil => rfl
  | cons c s =>
    have hc : c ≠ '/' := fun hc => h (congrArg some hc)
    rw [strip_code_cons hc, List.head?_cons, List.head?_cons]

/-- A piece that is kept ends where it ended, though comments behind it are taken out. -/
theorem Piece.EndsAt.strip {p : Piece} {rest : List Char} (h : p.EndsAt rest)
    (hkept : p.isComment = false) : p.EndsAt (strip .code rest) := by
  match p, h with
  | .literal q body true, h => exact h
  | .literal q body false, ⟨hq, hopen, hrest⟩ =>
    subst hrest
    exact ⟨hq, hopen, rfl⟩
  | .other c, ⟨hquote, hslash⟩ =>
    refine ⟨hquote, fun hc => ?_⟩
    have hhead : rest.head? ≠ some '/' := fun hd => (hslash hc '/' hd).1 rfl
    rw [head?_strip hhead]
    exact hslash hc

/-- The text without comments is read as the pieces that are no comments. -/
theorem Reads.strip {ps : List Piece} {s : List Char} (h : Reads ps s) :
    Reads (kept ps) (strip .code s) := by
  induction h with
  | nil => exact .nil
  | @cons p ps rest hp _ ih =>
    rw [strip_piece hp]
    cases hcomment : p.isComment with
    | true => simpa [kept, hcomment] using ih
    | false => simpa [kept, hcomment] using Reads.cons (hp.strip hcomment) ih

theorem kept_kept (ps : List Piece) : kept (kept ps) = kept ps := by
  simp [kept]

/-- **A text without its comments.**  Every text is read as pieces in one way.  Without comments it is
the text of the pieces that are no comments, in order, and it is read as these pieces and in no other
way.  Taking out comments once more changes nothing. -/
theorem stripComments_keeps (s : List Char) :
    ∃ ps, (∀ qs, Reads qs s ↔ qs = ps) ∧
      stripComments s = (kept ps).flatMap Piece.text ∧
      (∀ qs, Reads qs (stripComments s) ↔ qs = kept ps) ∧
      stripComments (stripComments s) = stripComments s := by
  obtain ⟨ps, hps⟩ := exists_reads s
  have hkept : Reads (kept ps) (stripComments s) := hps.strip
  refine ⟨ps, fun qs => ⟨fun h => h.unique hps, fun h => h ▸ hps⟩, hkept.text_eq,
    fun qs => ⟨fun h => h.unique hkept, fun h => h ▸ hkept⟩, ?_⟩
  have htwice : Reads (kept (kept ps)) (stripComments (stripComments s)) := hkept.strip
  rw [htwice.text_eq, kept_kept, ← hkept.text_eq]

/-- Slashes that begin nothing, a comment that is closed one character late, a literal without an
end. -/
example : stripComments "1 / /*/ 2 */ '//' // 3\n\"/*".toList = "1 /  '//' \n\"/*".toList := by
  decide

end RouteAtlas.Alias.ConfigText
