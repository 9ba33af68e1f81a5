import RouteAtlas.Proofs.Alias.Literals

/-!
# Objects that are read back

The options of a configuration module are found by their shape, and nothing but the shape is known
of the values.  This is enough to read an object back: whatever its members are called, quoted in
any of the three ways, whatever expressions their values are as long as quotes are closed and
brackets nested (`IsNested`), and however they are spaced, **the entries are the members, in
order** (`entries_objectBody_text`).

It rests on every scanner passing over a nested text as a whole.  The one for blocks counts braces
only, the one for parts counts brackets of all kinds without telling them apart; in a nested text
neither matters.
-/

set_option autoImplicit false

namespace RouteAtlas.Alias.ConfigText

open Text

/-! ## Nested text -/

/-- The brackets, each with the one that closes it. -/
def brackets : List (Char × Char) := [('\x7b', '\x7d'), ('[', ']'), ('(', ')')]

/-- Whether the quotes of a text are closed and its brackets nested.  The flag tells whether it may
have commas outside its brackets; between brackets commas may always stand. -/
inductive IsNested : Bool → List Char → Prop
  | nil {commas} : IsNested commas []
  | plain {commas c s} (hquote : isQuote c = false)
      (hbracket : ∀ p ∈ brackets, c ≠ p.1 ∧ c ≠ p.2) (hcomma : c = ',' → commas = true)
      (h : IsNested commas s) : IsNested commas (c :: s)
  | literal {commas q body s} (hquote : isQuote q = true) (hbody : IsBody q body)
      (h : IsNested commas s) : IsNested commas (q :: body ++ q :: s)
  | group {commas opening closing inner s} (hbracket : (opening, closing) ∈ brackets)
      (hinner : IsNested true inner) (h : IsNested commas s) :
      IsNested commas (opening :: inner ++ closing :: s)

namespace IsNested

theorem append {commas : Bool} {s t : List Char} (h : IsNested commas s)
    (h' : IsNested commas t) : IsNested commas (s ++ t) := by
  induction h with
  | nil => exact h'
  | plain hquote hbracket hcomma _ ih => exact .plain hquote hbracket hcomma (ih h')
  | literal hquote hbody _ ih => simpa using literal hquote hbody (ih h')
  | group hbracket hinner _ _ ih => simpa using group hbracket hinner (ih h')

theorem withCommas {commas : Bool} {s : List Char} (h : IsNested commas s) : IsNested true s := by
  induction h with
  | nil => exact .nil
  | plain hquote hbracket _ _ ih => exact .plain hquote hbracket (fun _ => rfl) ih
  | literal hquote hbody _ ih => exact .literal hquote hbody ih
  | group hbracket hinner _ _ ih => exact .group hbracket hinner ih

theorem of_blank {s : List Char} (h : ∀ c ∈ s, isBlank c = true) : IsNested false s := by
  induction s with
  | nil => exact .nil
  | cons c s ih =>
    have hc := h c List.mem_cons_self
    refine .plain (isQuote_of_isBlank hc) (fun p hp => ?_)
      (fun hcomma => absurd hcomma (ne_of_isBlank hc (by decide)))
      (ih fun d hd => h d (List.mem_cons_of_mem c hd))
    simp only [brackets, List.mem_cons, List.not_mem_nil, or_false] at hp
    rcases hp with rfl | rfl | rfl <;>
      exact ⟨ne_of_isBlank hc (by decide), ne_of_isBlank hc (by decide)⟩

end IsNested

theorem depthChange_eq_zero {c : Char} (h : ∀ p ∈ brackets, c ≠ p.1 ∧ c ≠ p.2) :
    depthChange c = 0 := by
  simp [brackets] at h
  simp [depthChange, h]

/-- The end of a block is looked for behind a nested text. -/
theorem blockTail_nested {commas : Bool} {s : List Char} (h : IsNested commas s) {depth : Nat}
    (hdepth : 1 ≤ depth) (rest : List Char) :
    blockTail '\x7b' '\x7d' depth .outside (s ++ rest) =
      (blockTail '\x7b' '\x7d' depth .outside rest).map (s ++ ·) := by
  induction h generalizing depth rest with
  | nil => simp
  | @plain commas c s hquote hbracket _ _ ih =>
    obtain ⟨hopening, hclosing⟩ := hbracket ('\x7b', '\x7d') (by decide)
    simp [blockTail, Mode.isCode, Mode.next, hquote, hopening, hclosing, ih hdepth,
      Function.comp_def]
  | @literal commas q body s hquote hbody _ ih =>
    have hskip := blockTail_skips '\x7b' '\x7d' depth (skips_literal hquote hbody) (s ++ rest)
    simpa [ih hdepth, Function.comp_def] using hskip
  | @group commas opening closing inner s hbracket _ _ ihinner ih =>
    simp only [brackets, List.mem_cons, Prod.mk.injEq, List.not_mem_nil, or_false] at hbracket
    rcases hbracket with ⟨rfl, rfl⟩ | ⟨rfl, rfl⟩ | ⟨rfl, rfl⟩
    · -- the closing brace takes the depth back to what it was
      have hdeep : ¬depth = 0 := by omega
      simp [blockTail, Mode.isCode, Mode.next, isQuote, ihinner (Nat.le_succ_of_le hdepth),
        ih hdepth, hdeep, Function.comp_def]
    · simp [blockTail, Mode.isCode, Mode.next, isQuote, ihinner hdepth, ih hdepth,
        Function.comp_def]
    · simp [blockTail, Mode.isCode, Mode.next, isQuote, ihinner hdepth, ih hdepth,
        Function.comp_def]

/-- No cut is made in a nested text: it has no commas, or it stands between brackets. -/
theorem partsFrom_nested {commas : Bool} {s : List Char} (h : IsNested commas s) {depth : Int}
    (hdepth : 0 ≤ depth) (hcommas : commas = true → depth ≠ 0) (acc rest : List Char) :
    partsFrom depth .outside acc (s ++ rest) =
      partsFrom depth .outside (s.reverse ++ acc) rest := by
  induction h generalizing depth acc rest with
  | nil => rfl
  | @plain commas c s hquote hbracket hcomma _ ih =>
    have hcut : ¬(c = ',' ∧ depth = 0) := fun ⟨hc, hzero⟩ => hcommas (hcomma hc) hzero
    simp [partsFrom, Mode.isCode, Mode.next, hquote, depthChange_eq_zero hbracket, hcut,
      ih hdepth hcommas]
  | @literal commas q body s hquote hbody _ ih =>
    have hskip := partsFrom_skips depth acc (skips_literal hquote hbody) (s ++ rest)
    simpa [ih hdepth hcommas] using hskip
  | @group commas opening closing inner s hbracket _ _ ihinner ih =>
    have hinner (acc rest : List Char) : partsFrom (depth + 1) .outside acc (inner ++ rest) =
        partsFrom (depth + 1) .outside (inner.reverse ++ acc) rest :=
      ihinner (by omega) (fun _ => by omega) acc rest
    have hback : depth + 1 + -1 = depth := by omega
    simp only [brackets, List.mem_cons, Prod.mk.injEq, List.not_mem_nil, or_false] at hbracket
    rcases hbracket with ⟨rfl, rfl⟩ | ⟨rfl, rfl⟩ | ⟨rfl, rfl⟩ <;>
      simp [partsFrom, Mode.isCode, Mode.next, isQuote, depthChange, hinner, hback,
        ih hdepth hcommas]

/-! ## Members -/

abbrev Quote := { c : Char // isQuote c = true }

/-- White space, or nothing. -/
abbrev Blank := { s : List Char // ∀ c ∈ s, isBlank c = true }

/-- A member of an object as it is written: a quoted key, a colon, and an expression, with white
space at all places. -/
structure Member where
  key : List Char
  key_ne_nil : key ≠ []
  quote : Quote
  value : List Char
  isNested : IsNested false value
  isTrimmed : trimChars value = value
  before : Blank
  beforeColon : Blank
  afterColon : Blank
  after : Blank

def Member.text (m : Member) : List Char :=
  m.before.val ++ (quoted m.quote.val m.key ++ m.beforeColon.val ++
    ':' :: (m.afterColon.val ++ m.value ++ m.after.val))

/-- What commas stand between in an object: its members, and perhaps white space behind the last
comma. -/
def bodyPieces (members : List Member) (ending : Option Blank) : List (List Char) :=
  members.map Member.text ++ ending.toList.map (·.val)

/-- What is between the braces of an object. -/
def bodyText (members : List Member) (ending : Option Blank) : List Char :=
  joinWith [','] (bodyPieces members ending)

theorem isNested_quoted (q : Quote) (s : List Char) : IsNested false (quoted q.val s) :=
  .literal q.property (isBody_escaped q.val s) .nil

theorem Member.isNested_text (m : Member) : IsNested false m.text := by
  have hcolon : IsNested false (':' :: (m.afterColon.val ++ m.value ++ m.after.val)) :=
    .plain (by decide) (by decide) (by decide)
      (((IsNested.of_blank m.afterColon.property).append m.isNested).append
        (.of_blank m.after.property))
  exact (IsNested.of_blank m.before.property).append
    (((isNested_quoted m.quote m.key).append (.of_blank m.beforeColon.property)).append hcolon)

theorem isNested_of_mem_bodyPieces {members : List Member} {ending : Option Blank} {p : List Char}
    (h : p ∈ bodyPieces members ending) : IsNested false p := by
  rcases List.mem_append.mp h with h | h
  · obtain ⟨m, -, rfl⟩ := List.mem_map.mp h
    exact m.isNested_text
  · obtain ⟨w, -, rfl⟩ := List.mem_map.mp h
    exact .of_blank w.property

theorem isNested_joinWith {ps : List (List Char)} (h : ∀ p ∈ ps, IsNested false p) :
    IsNested true (joinWith [','] ps) := by
  induction ps with
  | nil => exact .nil
  | cons p ps ih =>
    have hp := (h p List.mem_cons_self).withCommas
    have hrest := ih fun r hr => h r (List.mem_cons_of_mem p hr)
    cases ps with
    | nil => exact hp
    | cons r ps =>
      show IsNested true (p ++ [','] ++ joinWith [','] (r :: ps))
      rw [List.append_assoc]
      exact hp.append (.plain (by decide) (by decide) (fun _ => rfl) hrest)

/-- Nested texts that are put together with commas are cut at these commas. -/
theorem partsFrom_joinWith {ps : List (List Char)} (h : ∀ p ∈ ps, IsNested false p)
    (hne : ps ≠ []) : partsFrom 0 .outside [] (joinWith [','] ps) = ps := by
  induction ps with
  | nil => exact absurd rfl hne
  | cons p ps ih =>
    have hp (rest : List Char) : partsFrom 0 .outside [] (p ++ rest) =
        partsFrom 0 .outside p.reverse rest := by
      simpa using partsFrom_nested (h p List.mem_cons_self) (Int.le_refl 0) (by simp) [] rest
    cases ps with
    | nil => simpa [joinWith, partsFrom] using hp []
    | cons r ps =>
      have hrest := ih (fun r hr => h r (List.mem_cons_of_mem p hr)) (List.cons_ne_nil r ps)
      show partsFrom 0 .outside [] (p ++ [','] ++ joinWith [','] (r :: ps)) = p :: r :: ps
      rw [List.append_assoc, hp]
      simp [partsFrom, Mode.isCode, Mode.next, isQuote, hrest]

/-- The entry of a part, if it is one. -/
def pair? (part : List Char) : Option (List Char × List Char) :=
  match breakAtColon .outside part with
  | some (k, v) => if (unquote k).isEmpty then none else some (unquote k, trimChars v)
  | none => none

theorem entries_eq (body : List Char) : entries body = (parts body).filterMap pair? :=
  rfl

theorem parts_joinWith {ps : List (List Char)} (h : ∀ p ∈ ps, IsNested false p) :
    parts (joinWith [','] ps) = (ps.map trimChars).filter fun p => !p.isEmpty := by
  cases ps with
  | nil => decide
  | cons p ps => rw [parts, partsFrom_joinWith h (List.cons_ne_nil p ps)]

/-! ## Reading members -/

/-- Blanks behind the key are passed over to the colon. -/
theorem breakAtColon_plain {s : List Char} (h : ∀ c ∈ s, isQuote c = false ∧ c ≠ ':')
    (rest : List Char) :
    breakAtColon .outside (s ++ rest) =
      (breakAtColon .outside rest).map fun (before, after) => (s ++ before, after) := by
  induction s with
  | nil => simp
  | cons c s ih =>
    obtain ⟨hquote, hcolon⟩ := h c List.mem_cons_self
    simp [breakAtColon, Mode.isCode, Mode.next, hquote, hcolon, Function.comp_def,
      ih fun d hd => h d (List.mem_cons_of_mem c hd)]

theorem trimChars_quoted (q : Quote) (s : List Char) :
    trimChars (quoted q.val s) = quoted q.val s := by
  have hq : isBlank q.val = false := isBlank_of_isQuote q.property
  rw [quoted, List.cons_append, trimChars_cons hq, dropTrailing_append_cons hq]
  rfl

theorem unquote_quoted (q : Quote) (s : List Char) (w : Blank) :
    unquote (quoted q.val s ++ w.val) = s := by
  have hstarts : startsQuoted (quoted q.val s) = true := q.property
  have hliterals : literals (quoted q.val s) = [s] := literals_quoted q.property s
  simp [unquote, trimChars_append_blank w.property, trimChars_quoted, hstarts, hliterals]

theorem soleLiteral_quoted (q : Quote) (s : List Char) : soleLiteral (quoted q.val s) = some s := by
  have hstarts : startsQuoted (quoted q.val s) = true := q.property
  have hliterals : literals (quoted q.val s) = [s] := literals_quoted q.property s
  simp [soleLiteral, trimChars_quoted, hstarts, hliterals]

namespace Member

variable (m : Member)

/-- What is left of the text of a member still has its key and its value. -/
theorem exists_trimChars_text :
    ∃ rest, trimChars rest = m.value ∧
      trimChars m.text = quoted m.quote.val m.key ++ m.beforeColon.val ++ ':' :: rest := by
  refine ⟨dropTrailing isBlank (m.afterColon.val ++ m.value ++ m.after.val), ?_, ?_⟩
  · rw [trimChars_dropTrailing, trimChars_append_blank m.after.property,
      trimChars_blank_append m.afterColon.property, m.isTrimmed]
  · rw [text, trimChars_blank_append m.before.property, quoted, List.cons_append, List.cons_append,
      List.cons_append, trimChars_cons (isBlank_of_isQuote m.quote.property),
      dropTrailing_append_cons (by decide)]
    simp

theorem pair?_trimChars_text : pair? (trimChars m.text) = some (m.key, m.value) := by
  obtain ⟨rest, hvalue, htext⟩ := m.exists_trimChars_text
  have hliteral := breakAtColon_skips
    (skips_literal m.quote.property (isBody_escaped m.quote.val m.key))
    (m.beforeColon.val ++ ':' :: rest)
  have hblank := breakAtColon_plain (s := m.beforeColon.val)
    (fun c hc => ⟨isQuote_of_isBlank (m.beforeColon.property c hc),
      ne_of_isBlank (m.beforeColon.property c hc) (by decide)⟩) (':' :: rest)
  have hcolon : breakAtColon .outside (':' :: rest) = some ([], rest) := by
    simp [breakAtColon, Mode.isCode, isQuote]
  have hbreak : breakAtColon .outside (trimChars m.text) =
      some (quoted m.quote.val m.key ++ m.beforeColon.val, rest) := by
    rw [htext, quoted, List.append_assoc, hliteral, hblank, hcolon]
    simp
  have hkey : m.key.isEmpty = false := by simpa using m.key_ne_nil
  simp [pair?, hbreak, unquote_quoted, hkey, hvalue]

theorem trimChars_text_ne_nil : trimChars m.text ≠ [] := by
  obtain ⟨rest, -, htext⟩ := m.exists_trimChars_text
  simp [htext]

end Member

theorem entries_bodyText (members : List Member) (ending : Option Blank) :
    entries (bodyText members ending) = members.map fun m => (m.key, m.value) := by
  have hending : ((ending.toList.map (·.val)).map trimChars).filter (fun p => !p.isEmpty) = [] := by
    cases ending with
    | none => rfl
    | some w => simp [trimChars_eq_nil_iff.mpr w.property]
  have hmembers : (members.map fun m => trimChars m.text).filter (fun p => !p.isEmpty) =
      members.map fun m => trimChars m.text := by
    simp [List.filter_eq_self, Member.trimChars_text_ne_nil]
  have hentries : (members.map fun m => trimChars m.text).filterMap pair? =
      members.map fun m => (m.key, m.value) := by
    simp [List.filterMap_map, Member.pair?_trimChars_text]
  rw [entries_eq, bodyText, parts_joinWith fun p => isNested_of_mem_bodyPieces, bodyPieces,
    List.map_append, List.filter_append, hending, List.append_nil, List.map_map]
  exact (congrArg (List.filterMap pair?) hmembers).trans hentries

/-! ## Finding the object -/

/-- What follows a key that the text starts with, the quote in front of it taken away. -/
def afterName? (key s : List Char) : Option (List Char) :=
  (key.isPrefixOf? s).bind fun s =>
    (pastQuote s).findSome? fun s =>
      match s.dropWhile isBlank with
      | ':' :: s => some (s.dropWhile isBlank)
      | _ => none

theorem afterKeyHere_eq (key s : List Char) :
    afterKeyHere key s = (pastQuote s).findSome? (afterName? key) :=
  rfl

theorem afterName?_append (key rest : List Char) :
    afterName? key (key ++ ':' :: rest) = some (rest.dropWhile isBlank) := by
  have hblank : isBlank ':' = false := by decide
  simp [afterName?, isPrefixOf?_append, pastQuote, hblank]

/-- A key does not begin one place too late. -/
theorem afterName?_eq_none_of_ne_colon {c : Char} (h : c ≠ ':') (key rest : List Char) :
    afterName? (c :: key) (key ++ ':' :: rest) = none := by
  have hnone : (c :: key).isPrefixOf? (key ++ ':' :: rest) = none := by
    rw [Option.eq_none_iff_forall_ne_some]
    intro r hr
    rw [List.isPrefixOf?_eq_some_iff_append_eq] at hr
    -- then the key with a character in front would be the key with a colon behind
    have hmoved : c :: key = key ++ [':'] :=
      (List.append_inj (hr.trans (List.append_cons key ':' rest)) (by simp)).1
    have hcount := congrArg (List.count ':') hmoved
    simp [h] at hcount
  rw [afterName?, hnone, Option.bind_none]

theorem afterKeyHere_append (key rest : List Char) :
    afterKeyHere key (key ++ ':' :: rest) = some (rest.dropWhile isBlank) := by
  have hname := afterName?_append key rest
  rw [afterKeyHere_eq]
  cases key with
  | nil => simpa [pastQuote] using hname
  | cons c key =>
    rw [List.cons_append] at hname ⊢
    by_cases hquote : c = '"' ∨ c = '\''
    · have hne : c ≠ ':' := by
        rcases hquote with rfl | rfl <;> decide
      simp [pastQuote, hquote, hname, afterName?_eq_none_of_ne_colon hne]
    · simp [pastQuote, hquote, hname]

/-- **An object is read back as its members**, and a literal as its string, whatever they are. -/
theorem entries_objectBody_text (key tail : List Char) (members : List Member)
    (ending : Option Blank) :
    (objectBody (key ++ ": \x7b".toList ++ bodyText members ending ++ '\x7d' :: tail) key).map
        entries = some (members.map fun m => (m.key, m.value)) ∧
      ∀ (q : Quote) (s : List Char), soleLiteral (quoted q.val s) = some s := by
  refine ⟨?_, soleLiteral_quoted⟩
  have hnested : IsNested true (bodyText members ending) :=
    isNested_joinWith fun p => isNested_of_mem_bodyPieces
  have hblock : block '\x7b' '\x7d' ('\x7b' :: (bodyText members ending ++ '\x7d' :: tail)) =
      some (bodyText members ending) := by
    simp [block, blockTail_nested hnested, blockTail, Mode.isCode, isQuote]
  have hafter : afterKey key (key ++ ": \x7b".toList ++ bodyText members ending ++ '\x7d' :: tail) =
      some ('\x7b' :: (bodyText members ending ++ '\x7d' :: tail)) := by
    have hspace : isBlank ' ' = true := by decide
    have hbrace : isBlank '\x7b' = false := by decide
    have hhere := afterKeyHere_append key
      (' ' :: '\x7b' :: (bodyText members ending ++ '\x7d' :: tail))
    simp [afterKey, hhere, hspace, hbrace]
  rw [objectBody, hafter, Option.bind_some, hblock, Option.map_some, entries_bodyText]

/-- A member with the quote that it is written with in its key, and a colon in its value. -/
def awkwardMember : Member where
  key := ['\'', '\x7d', ',']
  key_ne_nil := by decide
  quote := ⟨'\'', by decide⟩
  value := ['[', '1', ',', '"', ':', '"', ']']
  isNested := by
    have hliteral : IsNested true ['"', ':', '"'] :=
      .literal (by decide) (.plain (by decide) (by decide) .nil) .nil
    have hitems : IsNested true ['1', ',', '"', ':', '"'] :=
      .plain (by decide) (by decide) (by decide)
        (.plain (by decide) (by decide) (by decide) hliteral)
    exact .group (by decide) hitems .nil
  isTrimmed := by decide
  before := ⟨['\n'], by simp [isBlank]⟩
  beforeColon := ⟨[], by simp⟩
  afterColon := ⟨[' '], by simp [isBlank]⟩
  after := ⟨[], by simp⟩

example : bodyText [awkwardMember, awkwardMember] (some ⟨['\n'], by simp [isBlank]⟩) =
    "\n'\\'\x7d,': [1,\":\"],\n'\\'\x7d,': [1,\":\"],\n".toList := by
  decide

end RouteAtlas.Alias.ConfigText
