import RouteAtlas.Alias.Metro
import RouteAtlas.Proofs.Alias.Literals

/-!
# Expressions that are read as constants

An expression is read as a constant if it starts with a literal and no other literal is closed behind
that one.  This is right for an expression that is a literal from its first character to its last one
(`IsLiteral`), and it is right for one that combines literals, which is no constant.  But **a literal
is also read if code goes on behind it in which no literal is closed** (`soleLiteral_eq_some_iff`):
of `'./src' + suffix` the literal is taken for the whole, and so is the directory of an alias
(`sum_read_as_constant`).
-/

set_option autoImplicit false

namespace RouteAtlas.Alias.ConfigText

open Text

/-- Whether a text is one literal, from the quote that opens it to the quote that closes it, and what
it stands for. -/
def IsLiteral (s value : List Char) : Prop :=
  ∃ q body, isQuote q = true ∧ IsBody q body ∧ s = q :: body ++ [q] ∧ value = unescaped body

/-- Whether no literal is closed in a text: there are no quotes, or the first one is never closed. -/
inductive ClosesNone : List Char → Prop
  | nil : ClosesNone []
  | code {c s} (hc : isQuote c = false) (h : ClosesNone s) : ClosesNone (c :: s)
  | unclosed {q s} (hq : isQuote q = true) (h : IsUnclosed q s) : ClosesNone (q :: s)

/-- Whether something follows a literal in which no literal is closed. -/
def GoesOn (s : List Char) : Prop :=
  ∃ literal value rest, IsLiteral literal value ∧ ClosesNone rest ∧ rest ≠ [] ∧ s = literal ++ rest

theorem literals_eq_nil_iff {s : List Char} : literals s = [] ↔ ClosesNone s := by
  constructor
  · intro h
    induction s with
    | nil => exact .nil
    | cons c s ih =>
      cases hc : isQuote c with
      | false => exact .code hc (ih (literals_code hc s ▸ h))
      | true =>
        rcases closed_or_unclosed c s with ⟨body, rest, hbody, rfl⟩ | hopen
        · rw [← List.cons_append, literals_closed hc hbody] at h
          cases h
        · exact .unclosed hc hopen
  · intro h
    induction h with
    | nil => rfl
    | code hc _ ih => rw [literals_code hc, ih]
    | unclosed hq hopen => exact literals_unclosed hq hopen

/-- Behind a literal it is decided what the literal is taken for. -/
theorem soleLiteral_of_closed {expr : List Char} {q : Char} (hq : isQuote q = true)
    {body rest : List Char} (hbody : IsBody q body)
    (h : trimChars expr = q :: body ++ q :: rest) :
    soleLiteral expr = if literals rest = [] then some (unescaped body) else none := by
  have hstarts : startsQuoted (trimChars expr) = true := by
    rw [h]
    exact hq
  have hliterals : literals (trimChars expr) = unescaped body :: literals rest := by
    rw [h, literals_closed hq hbody]
  cases hrest : literals rest <;> simp [soleLiteral, hstarts, hliterals, hrest]

/-- What is read starts with a literal. -/
theorem exists_closed_of_soleLiteral {expr value : List Char} (h : soleLiteral expr = some value) :
    ∃ q body rest, isQuote q = true ∧ IsBody q body ∧ trimChars expr = q :: body ++ q :: rest := by
  unfold soleLiteral at h
  cases hs : trimChars expr with
  | nil => simp [hs, startsQuoted] at h
  | cons q s =>
    cases hq : isQuote q with
    | false => simp [hs, startsQuoted, hq] at h
    | true =>
      rcases closed_or_unclosed q s with ⟨body, rest, hbody, rfl⟩ | hopen
      · exact ⟨q, body, rest, hq, hbody, rfl⟩
      · simp [hs, literals_unclosed hq hopen] at h

theorem IsLiteral.append_inj {s s' value value' rest rest' : List Char} (h : IsLiteral s value)
    (h' : IsLiteral s' value') (heq : s ++ rest = s' ++ rest') : rest = rest' := by
  obtain ⟨q, body, hq, hbody, rfl, -⟩ := h
  obtain ⟨q', body', -, hbody', rfl, -⟩ := h'
  obtain ⟨rfl, heq⟩ := List.cons.inj heq
  simp only [List.append_eq, List.append_assoc, List.singleton_append] at heq
  exact (hbody.append_inj (ne_slash_of_isQuote hq) hbody' heq).2

/-- **What is read as a constant.**  A value is read if the expression, trimmed, is a literal of that
value and something behind it in which no literal is closed.  So exactly the whole literals are read,
unless such a thing is there. -/
theorem soleLiteral_eq_some_iff (expr : List Char) :
    (∀ value, soleLiteral expr = some value ↔
        ∃ literal rest, IsLiteral literal value ∧ ClosesNone rest ∧
          trimChars expr = literal ++ rest) ∧
      ((∀ value, soleLiteral expr = some value ↔ IsLiteral (trimChars expr) value) ↔
        ¬GoesOn (trimChars expr)) := by
  have hread : ∀ value, soleLiteral expr = some value ↔ ∃ literal rest,
      IsLiteral literal value ∧ ClosesNone rest ∧ trimChars expr = literal ++ rest := by
    intro value
    constructor
    · intro h
      obtain ⟨q, body, rest, hq, hbody, hs⟩ := exists_closed_of_soleLiteral h
      rw [soleLiteral_of_closed hq hbody hs] at h
      split at h
      · rename_i hnone
        exact ⟨q :: body ++ [q], rest, ⟨q, body, hq, hbody, rfl, (Option.some.inj h).symm⟩,
          literals_eq_nil_iff.mp hnone, by simpa using hs⟩
      · cases h
    · rintro ⟨_, rest, ⟨q, body, hq, hbody, rfl, rfl⟩, hnone, hs⟩
      rw [soleLiteral_of_closed hq hbody (by simpa using hs), if_pos (literals_eq_nil_iff.mpr hnone)]
  refine ⟨hread, fun h => ?_, fun h value => ?_⟩
  · rintro ⟨literal, value, rest, hliteral, hnone, hne, hs⟩
    have hwhole := (h value).mp ((hread value).mpr ⟨literal, rest, hliteral, hnone, hs⟩)
    exact hne (hliteral.append_inj hwhole (hs.symm.trans (List.append_nil _).symm))
  · rw [hread]
    constructor
    · rintro ⟨literal, rest, hliteral, hnone, hs⟩
      have hnil : rest = [] := by
        by_contra hne
        exact h ⟨literal, value, rest, hliteral, hnone, hne, hs⟩
      rwa [hs, hnil, List.append_nil]
    · exact fun hliteral => ⟨_, [], hliteral, .nil, (List.append_nil _).symm⟩

/-- Of a sum the literal is read, and so it is when it is the directory of an alias; a second literal
prevents this. -/
theorem sum_read_as_constant :
    let sum := "'./src' + suffix".toList
    soleLiteral sum = some "./src".toList ∧ (∀ value, ¬IsLiteral (trimChars sum) value) ∧
      Metro.path? ⟨"/repo"⟩ sum = some ⟨"/repo/./src"⟩ ∧
      soleLiteral "'./src' + 'suffix'".toList = none := by
  intro sum
  refine ⟨by decide +kernel, ?_, by decide +kernel, by decide +kernel⟩
  rintro value ⟨q, body, hq, -, hs, -⟩
  have hlast : (trimChars sum).getLast? = some 'x' := by decide +kernel
  rw [hs, List.getLast?_append, List.getLast?_singleton] at hlast
  cases hlast
  exact absurd hq (by decide)

end RouteAtlas.Alias.ConfigText
