import RouteAtlas.Proofs.Text
import RouteAtlas.Search.Content

/-!
# Literals in a text

A literal without capital letters is looked for in the text with its capital letters lowered, and
so is the literal itself: a letter of title case is no capital letter and is lowered all the same.
Lowering goes character by character but for the sigma, which is lowered by what stands around it.
A sigma is a capital letter, so it is in no literal that is lowered, and where such a literal stands
in a text its lower case form stands in that of the text (`lower_infix_lower`).  So **every literal
is found where it stands** (`isIn_ofLiteral`), and each of several literals is looked for as if it
were alone (`anyIn_iff`).
-/

set_option autoImplicit false

namespace RouteAtlas

/-! ## Lower case -/

namespace Text

theorem toNat_ne_sigma {c : Char} (h : isUpper c = false) : c.toNat ≠ 0x3A3 := by
  intro hc
  have hsigma : isUpper (Char.ofNat 0x3A3) = true := by decide +kernel
  rw [← hc, Char.ofNat_toNat, h] at hsigma
  cases hsigma

/-- Without capital letters a text is lowered alike wherever it stands. -/
theorem lowerFrom_append {s : List Char} (h : ∀ c ∈ s, isUpper c = false)
    (before rest : List Char) :
    lowerFrom before (s ++ rest) =
      s.flatMap lowerChar ++ lowerFrom (s.reverse ++ before) rest := by
  induction s generalizing before with
  | nil => rfl
  | cons c s ih =>
    obtain ⟨hc, hs⟩ := List.forall_mem_cons.mp h
    rw [List.cons_append, lowerFrom, if_neg (toNat_ne_sigma hc), ih hs, List.flatMap_cons,
      List.reverse_cons, List.append_assoc, List.append_assoc, List.singleton_append]

theorem lower_eq_flatMap {s : List Char} (h : ∀ c ∈ s, isUpper c = false) :
    lower s = s.flatMap lowerChar := by
  have happend := lowerFrom_append h [] []
  rwa [List.append_nil, lowerFrom, List.append_nil] at happend

/-- The lower case form of the end of a text ends that of the text. -/
theorem exists_lowerFrom_append (before front s : List Char) :
    ∃ front' before', lowerFrom before (front ++ s) = front' ++ lowerFrom before' s := by
  induction front generalizing before with
  | nil => exact ⟨[], before, rfl⟩
  | cons c front ih =>
    obtain ⟨front', before', h⟩ := ih (c :: before)
    rw [List.cons_append, lowerFrom, h]
    exact ⟨_, before', (List.append_assoc _ _ _).symm⟩

/-- **Where a text without capital letters stands, its lower case form stands** in that of the
whole. -/
theorem lower_infix_lower {needle s : List Char} (hneedle : ∀ c ∈ needle, isUpper c = false)
    (h : needle <:+: s) : lower needle <:+: lower s := by
  obtain ⟨front, back, rfl⟩ := h
  obtain ⟨front', before, hfront⟩ := exists_lowerFrom_append [] front (needle ++ back)
  rw [lower_eq_flatMap hneedle, List.append_assoc, lower, hfront, lowerFrom_append hneedle,
    ← List.append_assoc]
  exact List.infix_append _ _ _

end Text

/-! ## Needles -/

namespace Search.Needle

open Text

/-- A literal is found where it stands. -/
theorem isIn_ofLiteral {literal : String} {cs : List Char} (h : literal.toList <:+: cs) :
    (ofLiteral literal).isIn cs (lower cs) = true := by
  unfold ofLiteral
  dsimp only
  split
  · exact occursIn_iff.mpr h
  · rename_i hcase
    rw [Bool.not_eq_true, List.any_eq_false] at hcase
    refine occursIn_iff.mpr (lower_infix_lower (fun c hc => ?_) h)
    exact eq_false_of_ne_true (hcase c hc)

/-- Each needle is looked for as if it were alone. -/
theorem anyIn_iff {needles : List Needle} {text : String} :
    anyIn needles text = true ↔
      ∃ n ∈ needles, n.isIn text.toList (lower text.toList) = true := by
  unfold anyIn
  dsimp only
  rw [List.any_eq_true]
  split
  · rfl
  · -- the lowered text is made only where a needle is looked for in it
    rename_i hnone
    refine exists_congr fun n => and_congr_right fun hn => ?_
    cases n with
    | pattern r => rfl
    | exact literal => rfl
    | caseless lowered => exact absurd (List.any_eq_true.mpr ⟨_, hn, rfl⟩) hnone

end Search.Needle

end RouteAtlas
