import RouteAtlas.Proofs.HttpPath.Canonical

/-!
# Joining

A text is its own canonical form exactly if it is in canonical form and no blank ends it
(`normalize_eq_self_iff`).  On such texts joining is what appending is on lists of segments
(`segments_join_of_settled`): associative, with the root on either side changing nothing.

More than that, a text need not be canonical to be joined in any order.  It is enough that its
canonical form is kept when it is read again: then **joins of the same texts in the same order have
the same segments**, however they are grouped (`Grouping.segments_joined`).
-/

set_option autoImplicit false

namespace RouteAtlas.HttpPath

open RouteAtlas.Text

/-! ## Texts that are their own canonical form -/

/-- Slashes in front of the pieces of a text give back the text, behind a slash. -/
theorem flatMap_pieces (s : List Char) : (pieces '/' s).flatMap ('/' :: ·) = '/' :: s := by
  induction s with
  | nil => rfl
  | cons c s ih =>
    by_cases hc : c = '/'
    · rw [pieces, if_pos hc, List.flatMap_cons, ih, hc]
      rfl
    · obtain ⟨p, ps, hs⟩ := List.exists_cons_of_ne_nil (pieces_ne_nil '/' s)
      rw [hs, List.flatMap_cons, List.cons_append, List.cons_inj_right] at ih
      rw [pieces, if_neg hc, hs, List.flatMap_cons, ← ih]
      rfl

/-- An empty piece behind the first one stands between two slashes, or behind a last one. -/
theorem slashes_of_nil_mem_tail {s : List Char} (h : [] ∈ (pieces '/' s).tail) :
    ['/', '/'] <:+: s ∨ s.getLast? = some '/' := by
  induction s with
  | nil => cases h
  | cons c s ih =>
    obtain ⟨p, ps, hs⟩ := List.exists_cons_of_ne_nil (pieces_ne_nil '/' s)
    have hlater (h : [] ∈ (pieces '/' s).tail) :
        ['/', '/'] <:+: c :: s ∨ (c :: s).getLast? = some '/' := by
      refine (ih h).imp (fun hin => List.infix_cons hin) fun hlast => ?_
      rw [List.getLast?_cons, hlast]
      rfl
    by_cases hc : c = '/'
    · rw [pieces, if_pos hc, List.tail_cons, hs] at h
      rcases List.mem_cons.mp h with hp | hps
      · -- The piece right behind this slash is empty.
        cases s with
        | nil => exact .inr (by rw [hc]; rfl)
        | cons d s =>
          by_cases hd : d = '/'
          · exact .inl ⟨[], s, by rw [hc, hd]; rfl⟩
          · obtain ⟨q, qs, hq⟩ := List.exists_cons_of_ne_nil (pieces_ne_nil '/' s)
            rw [pieces, if_neg hd, hq, ← hp] at hs
            cases (List.cons.inj hs).1
      · exact hlater (by rwa [hs])
    · rw [pieces, if_neg hc, hs] at h
      exact hlater (by rwa [hs])

/-- A text with single slashes, one of them in front and none at the end, is written with its
nonempty pieces. -/
theorem render_runs {s : List Char} (hslash : ¬['/', '/'] <:+: '/' :: s)
    (hend : ('/' :: s).getLast? = some '/' → s = []) : render (runs '/' ('/' :: s)) = '/' :: s := by
  cases s with
  | nil => rfl
  | cons c s =>
    have hfull : ∀ p ∈ pieces '/' (c :: s), (!p.isEmpty) = true := by
      intro p hp
      rw [Bool.not_eq_true', ← Bool.not_eq_true, List.isEmpty_iff]
      rintro rfl
      have htail : [] ∈ (pieces '/' ('/' :: c :: s)).tail := by
        rwa [pieces, if_pos rfl]
      rcases slashes_of_nil_mem_tail htail with h | h
      · exact hslash h
      · cases hend h
    obtain ⟨p, ps, hs⟩ := List.exists_cons_of_ne_nil (pieces_ne_nil '/' (c :: s))
    rw [runs, pieces, if_pos rfl, List.filter_cons_of_neg (by simp), List.filter_eq_self.mpr hfull,
      ← flatMap_pieces, hs]
    rfl

theorem normalize_eq_render (path : String) :
    normalize path = String.ofList (render ((segments path).map String.toList)) := by
  rw [normalize, segments, List.map_map]
  simp

theorem join_eq_render (base child : String) :
    join base child =
      String.ofList (render ((segments base ++ segments child).map String.toList)) := by
  rw [join, segments, segments, ← List.map_append, List.map_map]
  simp

/-- Whether a path's canonical form is kept when it is read again. -/
def Settled (path : String) : Prop := normalize (normalize path) = normalize path

theorem settled_of_normalize_eq {path : String} (h : normalize path = path) : Settled path :=
  congrArg normalize h

/-- A canonical form ends as the last of its segments does. -/
theorem hasTrailingBlank_normalize_iff {path : String} :
    HasTrailingBlank (normalize path) ↔ ∃ s ∈ (segments path).getLast?, HasTrailingBlank s := by
  rw [normalize_eq_render]
  rcases List.eq_nil_or_concat' (segments path) with hnil | ⟨front, s, hs⟩
  · rw [hnil]
    refine iff_of_false (by decide) ?_
    rintro ⟨s, hs, -⟩
    cases hs
  · have hne : s.toList ≠ [] := by
      have hmem : s ∈ segments path := hs ▸ List.mem_concat_self
      simpa using isEmpty_of_mem_segments hmem
    obtain ⟨d, ds, hd⟩ := List.exists_cons_of_ne_nil hne
    rw [hs, List.map_append, List.map_singleton, List.getLast?_concat, HasTrailingBlank,
      String.toList_ofList, render_concat, List.getLast?_append_cons, hd, List.getLast?_cons_cons,
      ← hd]
    simp [HasTrailingBlank]

theorem settled_iff {path : String} : Settled path ↔ ¬HasTrailingBlank (normalize path) := by
  rw [Settled, normalize_normalize_iff, hasTrailingBlank_normalize_iff]
  simp

/-- **What it takes for a text to be its own canonical form.** -/
theorem normalize_eq_self_iff {path : String} :
    normalize path = path ↔ IsCanonical path ∧ ¬HasTrailingBlank path := by
  constructor
  · intro h
    have hsettled := settled_iff.mp (settled_of_normalize_eq h)
    have hcanonical : IsCanonical (normalize path) :=
      isCanonical_render fun _ hcs => clean_of_mem_segmentChars hcs
    rw [h] at hsettled hcanonical
    exact ⟨hcanonical, hsettled⟩
  · rintro ⟨hcanonical, hblank⟩
    obtain ⟨s, hs⟩ := List.head?_eq_some_iff.mp hcanonical.starts
    have htrim : dropTrailing isBlank path.toList = path.toList := dropTrailing_eq_self fun c hc =>
      Bool.eq_false_iff.mpr fun hb => hblank ⟨c, hc, hb⟩
    have hend : ('/' :: s).getLast? = some '/' → s = [] := by
      intro hlast
      rw [← hs] at hlast
      rw [hcanonical.ends hlast] at hs
      exact (List.cons.inj hs).2.symm
    rw [normalize, segmentChars,
      resource_of_slash hcanonical.query hcanonical.fragment ⟨s, hs⟩, htrim, hs,
      render_runs (hs ▸ hcanonical.slashes) hend, ← hs, String.ofList_toList]

/-! ## Joins -/

section Settled

variable {a b c : String} (ha : Settled a) (hb : Settled b) (hc : Settled c)

include ha hb

/-- **Joining appends the segments.** -/
theorem segments_join_of_settled : segments (join a b) = segments a ++ segments b := by
  have hclean : ∀ s ∈ segments a ++ segments b, Clean s.toList := by
    intro s hs
    rcases List.mem_append.mp hs with hs | hs <;>
    · obtain ⟨cs, hcs, rfl⟩ := List.mem_map.mp hs
      rw [String.toList_ofList]
      exact clean_of_mem_segmentChars hcs
  rw [join_eq_render, segments_render hclean]
  intro s hs
  -- The last segment is that of `b`, or if there is none that of `a`.
  rw [List.getLast?_append] at hs
  cases hlast : (segments b).getLast? with
  | some s' =>
    rw [hlast, Option.some_or] at hs
    exact normalize_normalize_iff.mp hb s (hlast ▸ hs)
  | none =>
    rw [hlast, Option.none_or] at hs
    exact normalize_normalize_iff.mp ha s hs

theorem normalize_join_of_settled : normalize (join a b) = join a b := by
  rw [normalize_eq_render, segments_join_of_settled ha hb, join_eq_render]

include hc

theorem join_assoc_of_settled : join (join a b) c = join a (join b c) := by
  rw [join_eq_render (join a b), join_eq_render a (join b c), segments_join_of_settled ha hb,
    segments_join_of_settled hb hc, List.append_assoc]

end Settled

theorem normalize_root : normalize "/" = "/" := by decide +kernel

theorem segments_root : segments "/" = [] := by decide +kernel

theorem root_join (path : String) : join "/" path = normalize path := by
  rw [join_eq_render, segments_root, List.nil_append, normalize_eq_render]

theorem join_root (path : String) : join path "/" = normalize path := by
  rw [join_eq_render, segments_root, List.append_nil, normalize_eq_render]

/-! ## Groupings -/

/-- A way to join several paths two at a time. -/
inductive Grouping
  | path (p : String)
  | pair (left right : Grouping)

namespace Grouping

/-- The paths that are joined, in order. -/
def paths : Grouping → List String
  | path p => [p]
  | pair left right => left.paths ++ right.paths

/-- What they are joined to. -/
def joined : Grouping → String
  | path p => p
  | pair left right => join left.joined right.joined

/-- Of the grouping only the paths show in the result. -/
theorem segments_joined (g : Grouping) (h : ∀ p ∈ g.paths, Settled p) :
    Settled g.joined ∧ segments g.joined = g.paths.flatMap segments := by
  induction g with
  | path p => exact ⟨h p List.mem_cons_self, (List.flatMap_singleton segments p).symm⟩
  | pair left right ihl ihr =>
    obtain ⟨hl, hsl⟩ := ihl fun p hp => h p (List.mem_append_left _ hp)
    obtain ⟨hr, hsr⟩ := ihr fun p hp => h p (List.mem_append_right _ hp)
    refine ⟨settled_of_normalize_eq (normalize_join_of_settled hl hr), ?_⟩
    rw [joined, segments_join_of_settled hl hr, hsl, hsr, paths, List.flatMap_append]

/-- What is joined is canonical, as long as the first path is. -/
theorem normalize_joined {g : Grouping} (h : ∀ p ∈ g.paths, Settled p)
    (hfirst : ∀ p, g.paths.head? = some p → normalize p = p) : normalize g.joined = g.joined := by
  cases g with
  | path p => exact hfirst p rfl
  | pair left right =>
    have hl := left.segments_joined fun p hp => h p (List.mem_append_left _ hp)
    have hr := right.segments_joined fun p hp => h p (List.mem_append_right _ hp)
    exact normalize_join_of_settled hl.1 hr.1

end Grouping

end RouteAtlas.HttpPath
