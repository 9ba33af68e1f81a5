import RouteAtlas.Json
import RouteAtlas.Proofs.Alias.CommentRemoval

/-!
# JSON with comments and trailing commas

What a configuration file may have that a JSON document has not is taken out before the document is
read: first the comments, then the commas that only a bracket follows.  Both passes look at
characters and know nothing of documents.

A file is described here from the other end: the tokens of a document, some commas more than it has
(`Writes`), and between the tokens gaps of white space and comments (`Spaced`).  **What is left of
the file are the tokens of the document and white space** (`spaced_of_loose`), whatever stands in
the comments and the strings.  A string is a token, so it is kept to the character.
-/

set_option autoImplicit false

namespace RouteAtlas.Alias.LooseJson

open Text ConfigText

/-! ## Scalars -/

/-- Whether a text can stand between the quotes of a JSON string. -/
inductive IsStringBody : List Char → Prop
  | nil : IsStringBody []
  | plain {c s} (hquote : c ≠ '"') (hslash : c ≠ '\\') (hcontrol : 0x20 ≤ c.toNat)
      (h : IsStringBody s) : IsStringBody (c :: s)
  | escape {c s} (hc : c ∈ "\"\\/bfnrt".toList) (h : IsStringBody s) :
      IsStringBody ('\\' :: c :: s)
  | unicode {digits s} (hlength : digits.length = 4)
      (hdigits : ∀ c ∈ digits, c ∈ "0123456789abcdefABCDEF".toList) (h : IsStringBody s) :
      IsStringBody ('\\' :: 'u' :: digits ++ s)

def IsDigits (s : List Char) : Prop :=
  s ≠ [] ∧ ∀ c ∈ s, c ∈ "0123456789".toList

/-- No zero stands in front of other digits. -/
def IsWhole (s : List Char) : Prop :=
  IsDigits s ∧ (s.head? = some '0' → s = ['0'])

def IsFraction (s : List Char) : Prop :=
  ∃ digits, s = '.' :: digits ∧ IsDigits digits

def IsExponent (s : List Char) : Prop :=
  ∃ e sign digits, s = e :: sign ++ digits ∧ e ∈ ['e', 'E'] ∧ sign ∈ [[], ['+'], ['-']] ∧
    IsDigits digits

/-- Whether a text is a JSON number. -/
def IsNumber (s : List Char) : Prop :=
  ∃ sign whole fraction exponent, s = sign ++ whole ++ fraction ++ exponent ∧
    sign ∈ [[], ['-']] ∧ IsWhole whole ∧ (fraction = [] ∨ IsFraction fraction) ∧
    (exponent = [] ∨ IsExponent exponent)

/-- The values that are one token. -/
inductive IsScalar : List Char → Prop
  | string {s} (h : IsStringBody s) : IsScalar ('"' :: s ++ ['"'])
  | number {s} (h : IsNumber s) : IsScalar s
  | word {s} (h : s ∈ ["true".toList, "false".toList, "null".toList]) : IsScalar s

abbrev Scalar := { s : List Char // IsScalar s }

/-! ## Documents -/

inductive Container
  | array
  | object

inductive Token
  | opening (k : Container)
  | closing (k : Container)
  | colon
  | comma
  | scalar (s : Scalar)

def Token.text : Token → List Char
  | opening .array => ['[']
  | opening .object => ['\x7b']
  | closing .array => [']']
  | closing .object => ['\x7d']
  | colon => [':']
  | comma => [',']
  | scalar s => s.val

/-- A part of a document: a value, or what stands between the brackets of a container. -/
inductive Part
  | value
  | content (k : Container)

/-- Whether the tokens of the first list are a part of a JSON document, and those of the second list
write it loosely: with a comma behind the last item or member of any containers in it. -/
inductive Writes : Part → List Token → List Token → Prop
  | scalar (s) : Writes .value [.scalar s] [.scalar s]
  | empty (k) : Writes .value [.opening k, .closing k] [.opening k, .closing k]
  | filled {k ts us} (h : Writes (.content k) ts us) :
      Writes .value (.opening k :: ts ++ [.closing k]) (.opening k :: us ++ [.closing k])
  | trailing {k ts us} (h : Writes (.content k) ts us) :
      Writes .value (.opening k :: ts ++ [.closing k]) (.opening k :: us ++ [.comma, .closing k])
  | item {ts us} (h : Writes .value ts us) : Writes (.content .array) ts us
  | member {name ts us} (hname : IsStringBody name) (h : Writes .value ts us) :
      Writes (.content .object) (.scalar ⟨_, .string hname⟩ :: .colon :: ts)
        (.scalar ⟨_, .string hname⟩ :: .colon :: us)
  | more {k ts us ts' us'} (h : Writes (.content k) ts us) (h' : Writes (.content k) ts' us') :
      Writes (.content k) (ts ++ .comma :: ts') (us ++ .comma :: us')

/-- White space and comments: from two slashes to the end of the line, and from a slash and a star
to the first star and slash. -/
inductive IsGap : List Char → Prop
  | nil : IsGap []
  | space {c s} (hc : Json.isSpace c = true) (h : IsGap s) : IsGap (c :: s)
  | line {body s} (hbody : '\n' ∉ body) (h : IsGap s) : IsGap ('/' :: '/' :: body ++ '\n' :: s)
  | block {body s} (hbody : ¬['*', '/'] <:+: body) (h : IsGap s) :
      IsGap ('/' :: '*' :: body ++ '*' :: '/' :: s)

def IsSpace (s : List Char) : Prop :=
  ∀ c ∈ s, Json.isSpace c = true

/-- Whether a text is made of tokens and gaps, a gap before each token and one behind the last. -/
inductive Spaced (gap : List Char → Prop) : List Token → List Char → Prop
  | nil {w} (hw : gap w) : Spaced gap [] w
  | cons {w t ts s} (hw : gap w) (h : Spaced gap ts s) : Spaced gap (t :: ts) (w ++ (t.text ++ s))

/-! ## The characters of tokens -/

/-- The characters beside quotes and blanks that have a meaning for the passes. -/
def marks : List Char := ['/', ',', '\x7b', '\x7d', '[', ']']

/-- Whether a character has no meaning for the passes. -/
def isIdle (c : Char) : Bool :=
  !isQuote c && !isBlank c && !marks.contains c

theorem isBody_of_isStringBody {s : List Char} (h : IsStringBody s) : IsBody '"' s := by
  induction h with
  | nil => exact .nil
  | plain hquote hslash _ _ ih => exact .plain hslash hquote ih
  | @escape c s _ _ ih => exact .escape c ih
  | unicode _ hdigits _ ih =>
    have hplain : ∀ c ∈ "0123456789abcdefABCDEF".toList, c ≠ '\\' ∧ c ≠ '"' := by simp
    exact .escape 'u' (ih.append_of_plain fun c hc => hplain c (hdigits c hc))

/-- The characters that numbers are made of. -/
def numberChars : List Char := "0123456789+-.eE".toList

theorem subset_of_isNumber {s : List Char} (h : IsNumber s) : s ⊆ numberChars := by
  have hdigits {s : List Char} (h : IsDigits s) : s ⊆ numberChars := fun c hc =>
    (by decide : "0123456789".toList ⊆ numberChars) (h.2 c hc)
  obtain ⟨sign, whole, fraction, exponent, rfl, hsign, hwhole, hfraction, hexponent⟩ := h
  simp only [List.append_subset]
  refine ⟨⟨⟨?_, hdigits hwhole.1⟩, ?_⟩, ?_⟩
  · rcases List.mem_pair.mp hsign with rfl | rfl <;> decide
  · rcases hfraction with rfl | ⟨digits, rfl, h⟩
    · exact List.nil_subset _
    · exact List.cons_subset.mpr ⟨by decide, hdigits h⟩
  · rcases hexponent with rfl | ⟨e, sign, digits, rfl, he, hsign, h⟩
    · exact List.nil_subset _
    · have he' : e ∈ numberChars := by
        rcases List.mem_pair.mp he with rfl | rfl <;> decide
      have hsign' : sign ⊆ numberChars := by
        simp only [List.mem_cons, List.not_mem_nil, or_false] at hsign
        rcases hsign with rfl | rfl | rfl <;> decide
      exact List.cons_subset.mpr ⟨he', List.append_subset.mpr ⟨hsign', hdigits h⟩⟩

theorem ne_nil_of_isNumber {s : List Char} (h : IsNumber s) : s ≠ [] := by
  obtain ⟨sign, whole, fraction, exponent, rfl, -, hwhole, -, -⟩ := h
  simp [hwhole.1.1]

/-- A scalar is a string, or nothing in it has a meaning. -/
theorem isScalar_cases {s : List Char} (h : IsScalar s) :
    (∃ body, IsBody '"' body ∧ s = '"' :: body ++ ['"']) ∨
      s ≠ [] ∧ ∀ c ∈ s, isIdle c = true := by
  cases h with
  | @string body hbody => exact .inl ⟨body, isBody_of_isStringBody hbody, rfl⟩
  | number hnumber =>
    have hidle : numberChars.all isIdle = true := by decide
    exact .inr ⟨ne_nil_of_isNumber hnumber, fun c hc =>
      List.all_eq_true.mp hidle c (subset_of_isNumber hnumber hc)⟩
  | word hword =>
    refine .inr ?_
    simp only [List.mem_cons, List.not_mem_nil, or_false] at hword
    rcases hword with rfl | rfl | rfl <;> exact ⟨by decide, List.all_eq_true.mp (by decide)⟩

theorem isIdle_iff {c : Char} :
    isIdle c = true ↔
      isQuote c = false ∧ isBlank c = false ∧ c ∉ marks := by
  simp [isIdle, and_assoc]

def Token.isClosing : Token → Bool
  | closing _ => true
  | _ => false

/-- A token is told from what closes a container by its first character. -/
theorem Token.exists_text_eq_cons (t : Token) :
    ∃ c s, t.text = c :: s ∧ isBlank c = false ∧
      (decide (c = '\x7d') || decide (c = ']')) = t.isClosing := by
  cases t with
  | opening k => cases k <;> exact ⟨_, _, rfl, by decide, by decide⟩
  | closing k => cases k <;> exact ⟨_, _, rfl, by decide, by decide⟩
  | colon => exact ⟨_, _, rfl, by decide, by decide⟩
  | comma => exact ⟨_, _, rfl, by decide, by decide⟩
  | scalar s =>
    obtain ⟨s, hs⟩ := s
    rcases isScalar_cases hs with ⟨body, -, rfl⟩ | ⟨hne, hidle⟩
    · exact ⟨_, _, rfl, by decide, by simp [isClosing]⟩
    · obtain ⟨c, s, rfl⟩ := List.exists_cons_of_ne_nil hne
      obtain ⟨-, hblank, hmark⟩ := isIdle_iff.mp (hidle c List.mem_cons_self)
      simp only [marks, List.mem_cons, not_or] at hmark
      exact ⟨c, s, rfl, hblank, by simp [isClosing, hmark]⟩

/-- A token is a string, or nothing in it begins a string or a comment. -/
theorem Token.text_cases (t : Token) :
    (∃ body, IsBody '"' body ∧ t.text = '"' :: body ++ ['"']) ∨
      ∀ c ∈ t.text, c ≠ '/' ∧ isQuote c = false ∧ (t ≠ .comma → c ≠ ',') := by
  cases t with
  | opening k => cases k <;> exact .inr (by simp [text, isQuote])
  | closing k => cases k <;> exact .inr (by simp [text, isQuote])
  | colon => exact .inr (by simp [text, isQuote])
  | comma => exact .inr (by simp [text, isQuote])
  | scalar s =>
    rcases isScalar_cases s.property with hstring | ⟨-, hidle⟩
    · exact .inl hstring
    · refine .inr fun c hc => ?_
      obtain ⟨hquote, -, hmark⟩ := isIdle_iff.mp (hidle c hc)
      simp only [marks, List.mem_cons, not_or] at hmark
      exact ⟨hmark.1, hquote, fun _ => hmark.2.1⟩

theorem isBlank_of_isSpace {c : Char} (h : Json.isSpace c = true) : isBlank c = true := by
  simp only [Json.isSpace, Bool.or_eq_true, decide_eq_true_eq] at h
  rcases h with ((rfl | rfl) | rfl) | rfl <;> decide

/-! ## Taking out comments -/

/-- Of a gap white space is left. -/
theorem strip_gap {w : List Char} (h : IsGap w) :
    ∃ w', IsSpace w' ∧ ∀ rest, strip .code (w ++ rest) = w' ++ strip .code rest := by
  induction h with
  | nil => exact ⟨[], by simp [IsSpace], fun _ => rfl⟩
  | @space c s hc _ ih =>
    obtain ⟨w', hw', hs⟩ := ih
    have hblank := isBlank_of_isSpace hc
    refine ⟨c :: w', by simpa [IsSpace, hc] using hw', fun rest => ?_⟩
    simp [strip_code_cons (ne_of_isBlank hblank (by decide)), isQuote_of_isBlank hblank, hs]
  | @line body s hbody _ ih =>
    obtain ⟨w', hw', hs⟩ := ih
    refine ⟨'\n' :: w', by simpa [IsSpace, Json.isSpace] using hw', fun rest => ?_⟩
    have hline (t : List Char) : strip .line (body ++ '\n' :: t) = strip .code ('\n' :: t) :=
      strip_line hbody (by simp)
    simp [strip, hline, strip_code_cons, isQuote, hs]
  | block hbody _ ih =>
    obtain ⟨w', hw', hs⟩ := ih
    exact ⟨w', hw', fun rest => by simp [strip, strip_block hbody, hs]⟩

theorem strip_token (t : Token) (rest : List Char) :
    strip .code (t.text ++ rest) = t.text ++ strip .code rest := by
  rcases t.text_cases with ⟨body, hbody, htext⟩ | hplain
  · simpa [htext] using strip_literal (by decide) hbody rest
  · exact strip_plain (fun c hc => ⟨(hplain c hc).1, (hplain c hc).2.1⟩) rest

/-- Taking out the comments leaves the tokens with white space between them. -/
theorem spaced_stripComments {ts : List Token} {s : List Char} (h : Spaced IsGap ts s) :
    Spaced IsSpace ts (stripComments s) := by
  unfold stripComments
  induction h with
  | @nil w hw =>
    obtain ⟨w', hw', hs⟩ := strip_gap hw
    have hall : strip .code w = w' := by simpa [strip] using hs []
    exact hall ▸ .nil hw'
  | cons hw _ ih =>
    obtain ⟨w', hw', hs⟩ := strip_gap hw
    rw [hs, strip_token]
    exact .cons hw' ih

/-! ## Taking out commas -/

theorem stripCommas_plain {s : List Char} (h : ∀ c ∈ s, c ≠ '"' ∧ c ≠ ',') (rest : List Char) :
    stripCommas false (s ++ rest) = s ++ stripCommas false rest := by
  induction s with
  | nil => rfl
  | cons c s ih =>
    obtain ⟨hquote, hcomma⟩ := h c List.mem_cons_self
    simp [stripCommas, hquote, hcomma, ih fun d hd => h d (List.mem_cons_of_mem c hd)]

theorem stripCommas_body {body : List Char} (h : IsBody '"' body) (rest : List Char) :
    stripCommas true (body ++ '"' :: rest) = body ++ '"' :: stripCommas false rest := by
  induction h with
  | nil => simp [stripCommas]
  | plain hslash hquote _ ih => simp [stripCommas, hslash, hquote, ih]
  | escape c _ ih => simp [stripCommas, ih]

theorem stripCommas_token {t : Token} (h : t ≠ .comma) (rest : List Char) :
    stripCommas false (t.text ++ rest) = t.text ++ stripCommas false rest := by
  rcases t.text_cases with ⟨body, hbody, htext⟩ | hplain
  · simp [htext, stripCommas, stripCommas_body hbody]
  · refine stripCommas_plain (fun c hc => ⟨?_, (hplain c hc).2.2 h⟩) rest
    rintro rfl
    exact absurd (hplain _ hc).2.1 (by decide)

/-- Whether the first token closes a container. -/
def closesFirst (ts : List Token) : Bool :=
  (ts.head?.map Token.isClosing).getD false

/-- The tokens without the commas right before a closing bracket. -/
def withoutTrailing : List Token → List Token
  | [] => []
  | .comma :: ts => if closesFirst ts then withoutTrailing ts else .comma :: withoutTrailing ts
  | t :: ts => t :: withoutTrailing ts

theorem closesNext_eq_closesFirst {ts : List Token} {s : List Char} (h : Spaced IsSpace ts s) :
    closesNext s = closesFirst ts := by
  cases h with
  | nil hw =>
    have hblank : s.dropWhile isBlank = [] := by
      simpa using fun c hc => isBlank_of_isSpace (hw c hc)
    simp [closesNext, hblank, closesFirst]
  | @cons w t ts s hw _ =>
    obtain ⟨c, r, htext, hblank, hclosing⟩ := t.exists_text_eq_cons
    have hnext : (w ++ (t.text ++ s)).dropWhile isBlank = c :: (r ++ s) := by
      rw [List.dropWhile_append_of_pos fun c hc => isBlank_of_isSpace (hw c hc), htext,
        List.cons_append, List.dropWhile_cons_of_neg (by simp [hblank])]
    simp [closesNext, hnext, closesFirst, hclosing]

theorem Spaced.space_append {ts : List Token} {w s : List Char} (hw : IsSpace w)
    (h : Spaced IsSpace ts s) : Spaced IsSpace ts (w ++ s) := by
  have hspaces {v : List Char} (hv : IsSpace v) : IsSpace (w ++ v) := fun c hc =>
    (List.mem_append.mp hc).elim (hw c) (hv c)
  cases h with
  | nil hv => exact .nil (hspaces hv)
  | cons hv h =>
    rw [← List.append_assoc]
    exact .cons (hspaces hv) h

theorem stripCommas_space {w : List Char} (hw : IsSpace w) (rest : List Char) :
    stripCommas false (w ++ rest) = w ++ stripCommas false rest :=
  stripCommas_plain (fun c hc => ⟨ne_of_isBlank (isBlank_of_isSpace (hw c hc)) (by decide),
    ne_of_isBlank (isBlank_of_isSpace (hw c hc)) (by decide)⟩) rest

/-- Taking out commas is the same for characters and for tokens. -/
theorem spaced_stripTrailingCommas {ts : List Token} {s : List Char} (h : Spaced IsSpace ts s) :
    Spaced IsSpace (withoutTrailing ts) (stripTrailingCommas s) := by
  unfold stripTrailingCommas
  induction h with
  | @nil w hw =>
    have hall : stripCommas false w = w := by simpa [stripCommas] using stripCommas_space hw []
    exact hall.symm ▸ .nil hw
  | @cons w t ts s hw h ih =>
    rw [stripCommas_space hw]
    by_cases ht : t = .comma
    · subst ht
      have hnext := closesNext_eq_closesFirst h
      cases hfirst : closesFirst ts with
      | true =>
        simpa [Token.text, stripCommas, withoutTrailing, hnext, hfirst] using ih.space_append hw
      | false =>
        have hcomma : stripCommas false (Token.comma.text ++ s) =
            Token.comma.text ++ stripCommas false s := by
          simp [Token.text, stripCommas, hnext, hfirst]
        have htokens : withoutTrailing (.comma :: ts) = .comma :: withoutTrailing ts := by
          simp [withoutTrailing, hfirst]
        rw [hcomma, htokens]
        exact .cons hw ih
    · have htokens : withoutTrailing (t :: ts) = t :: withoutTrailing ts := by
        rw [withoutTrailing]
        exact ht
      rw [stripCommas_token ht, htokens]
      exact .cons hw ih

/-! ## Documents that are written loosely -/

theorem Writes.exists_eq_cons {p : Part} {ts us : List Token} (h : Writes p ts us) :
    ∃ u us', us = u :: us' ∧ u.isClosing = false := by
  induction h with
  | more _ _ ih _ =>
    obtain ⟨u, us', rfl, hu⟩ := ih
    exact ⟨u, _, rfl, hu⟩
  | item _ ih => exact ih
  | _ => exact ⟨_, _, rfl, rfl⟩

/-- The commas too many are those right before a closing bracket. -/
theorem Writes.withoutTrailing_append {p : Part} {ts us : List Token} (h : Writes p ts us)
    (rest : List Token) : withoutTrailing (us ++ rest) = ts ++ withoutTrailing rest := by
  induction h generalizing rest with
  | scalar s => rfl
  | empty k => rfl
  | filled _ ih => simp [withoutTrailing, ih]
  | trailing _ ih => simp [withoutTrailing, ih, closesFirst, Token.isClosing]
  | item _ ih => exact ih rest
  | member _ _ ih => simp [withoutTrailing, ih]
  | more _ h' ih ih' =>
    obtain ⟨u, us', rfl, hu⟩ := h'.exists_eq_cons
    have hrest := ih' rest
    rw [List.cons_append] at hrest
    simp [withoutTrailing, ih, closesFirst, hu, hrest]

/-- **Of a document that is written loosely, with comments, its tokens are left**, and white space
between them. -/
theorem spaced_of_loose {ts us : List Token} {s : List Char} (h : Writes .value ts us)
    (hs : Spaced IsGap us s) :
    Spaced IsSpace ts (stripTrailingCommas (stripComments s)) := by
  have htokens : withoutTrailing us = ts := by
    simpa [withoutTrailing] using h.withoutTrailing_append []
  rw [← htokens]
  exact spaced_stripTrailingCommas (spaced_stripComments hs)

/-! A file where a string, a line comment and a block comment each hold what means something to the
passes. -/

/-- The text `,]\"//` as it stands between quotes. -/
def awkwardBody : List Char := [',', ']', '\\', '"', '/', '/']

theorem isStringBody_awkwardBody : IsStringBody awkwardBody := by
  have hslashes : IsStringBody ['/', '/'] :=
    .plain (by decide) (by decide) (by decide) (.plain (by decide) (by decide) (by decide) .nil)
  exact .plain (by decide) (by decide) (by decide)
    (.plain (by decide) (by decide) (by decide) (.escape (by decide) hslashes))

def awkwardString : Token := .scalar ⟨_, .string isStringBody_awkwardBody⟩

/-- An object whose one member is an array of one string. -/
def awkwardTokens : List Token :=
  [.opening .object, awkwardString, .colon, .opening .array, awkwardString, .closing .array,
    .closing .object]

def awkwardTokensWritten : List Token :=
  [.opening .object, awkwardString, .colon, .opening .array, awkwardString, .comma,
    .closing .array, .comma, .closing .object]

def awkwardText : List Char :=
  "\x7b // it's ,\x7d\n\",]\\\"//\": [ /* \"]// */ \",]\\\"//\" ,] , /**/ \x7d\n".toList

theorem writes_awkwardTokens : Writes .value awkwardTokens awkwardTokensWritten := by
  have harray : Writes .value [.opening .array, awkwardString, .closing .array]
      [.opening .array, awkwardString, .comma, .closing .array] :=
    .trailing (.item (.scalar _))
  exact .trailing (.member isStringBody_awkwardBody harray)

theorem isGap_space : IsGap [' '] := .space rfl .nil

theorem spaced_awkwardText : Spaced IsGap awkwardTokensWritten awkwardText := by
  have hline : IsGap " // it's ,\x7d\n".toList :=
    .space rfl (@IsGap.line " it's ,\x7d".toList [] (by decide) .nil)
  have hblock : IsGap " /* \"]// */ ".toList :=
    .space rfl (@IsGap.block " \"]// ".toList [' '] (by decide) isGap_space)
  have hempty : IsGap " /**/ ".toList :=
    .space rfl (@IsGap.block [] [' '] (by decide) isGap_space)
  have hend : IsGap ['\n'] := .space rfl .nil
  exact .cons .nil <| .cons hline <| .cons .nil <| .cons isGap_space <| .cons hblock <|
    .cons isGap_space <| .cons .nil <| .cons isGap_space <| .cons hempty <| .nil hend

theorem spaced_of_loose_awkwardText :
    Writes .value awkwardTokens awkwardTokensWritten ∧
      Spaced IsGap awkwardTokensWritten awkwardText ∧
      Spaced IsSpace awkwardTokens (stripTrailingCommas (stripComments awkwardText)) :=
  ⟨writes_awkwardTokens, spaced_awkwardText,
    spaced_of_loose writes_awkwardTokens spaced_awkwardText⟩

end RouteAtlas.Alias.LooseJson
