import RouteAtlas.Proofs.HttpPath
import RouteAtlas.Proofs.Route.MountChain

/-!
# Patterns under a base

A handler is recorded under its base path joined with its pattern, and the join reads the pattern as
it reads a request: what a `?` begins is a query.  In a pattern the `?` marks an optional
parameter, so **a pattern is kept whole exactly if no segment follows its first mark**
(`pattern_kept_whole_iff`).  Then each segment is kept, without its mark; otherwise the segments
behind the mark are lost (`optional_parameter_ends_pattern`).

A pattern without segments leaves its base as the base is read again, which costs a base whose last
segment is blank that segment.
-/

set_option autoImplicit false

namespace RouteAtlas

namespace HttpPath

open Text

/-! ## Patterns as they are written -/

/-- What a route or mount pattern does not hold: a fragment, a blank, or an origin. -/
structure IsPattern (pattern : String) : Prop where
  fragment : '#' ∉ pattern.toList
  blank : ∀ c ∈ pattern.toList, isBlank c = false
  origin : ¬"http://".toList <+: pattern.toList ∧ ¬"https://".toList <+: pattern.toList

instance (pattern : String) : Decidable (IsPattern pattern) :=
  decidable_of_iff
    ('#' ∉ pattern.toList ∧ (pattern.toList.all fun c => !isBlank c) = true ∧
      ¬"http://".toList <+: pattern.toList ∧ ¬"https://".toList <+: pattern.toList)
    ⟨fun ⟨fragment, blank, origin⟩ => ⟨fragment, by simpa using blank, origin⟩,
      fun h => ⟨h.fragment, by simpa using h.blank, h.origin⟩⟩

/-- The segments that a pattern is written with. -/
def written (pattern : String) : List (List Char) := runs '/' pattern.toList

/-- Whether marks stand only in the last segment, behind something. -/
def MarkedAtEnd (segs : List (List Char)) : Prop :=
  (∀ s ∈ segs.dropLast, '?' ∉ s) ∧ ∀ s ∈ segs.getLast?, s.head? ≠ some '?'

theorem withoutOrigin_eq_self {s : List Char}
    (h : ¬"http://".toList <+: s ∧ ¬"https://".toList <+: s) : withoutOrigin s = s := by
  have hnone : ∀ scheme : List Char, ¬scheme <+: s → scheme.isPrefixOf? s = none := by
    intro scheme hs
    rw [← Option.not_isSome_iff_eq_none]
    intro hsome
    obtain ⟨rest, hrest⟩ := Option.isSome_iff_exists.mp hsome
    exact hs ⟨rest, List.isPrefixOf?_eq_some_iff_append_eq.mp hrest⟩
  rw [withoutOrigin, hnone _ h.1, hnone _ h.2]

/-- Of a pattern everything before its first mark is read. -/
theorem IsPattern.segmentChars_eq {pattern : String} (h : IsPattern pattern) :
    segmentChars pattern.toList = runs '/' (upTo '?' pattern.toList) := by
  have hfront : upTo '?' pattern.toList <+: pattern.toList := List.takeWhile_prefix _
  have hfragment : '#' ∉ upTo '?' pattern.toList := fun hc => h.fragment (hfront.subset hc)
  rw [segmentChars, resource, upTo_eq_self hfragment,
    trimChars_eq_self fun c hc => h.blank c (hfront.subset hc),
    withoutOrigin_eq_self ⟨fun hs => h.origin.1 (hs.trans hfront),
      fun hs => h.origin.2 (hs.trans hfront)⟩]

/-! ## What a mark cuts off -/

/-- The first mark of a text splits one of the segments that the text is written with. -/
theorem exists_runs_of_mem {s : List Char} (h : '?' ∈ s) :
    ∃ front p q back, (∀ r ∈ front ++ [p], '?' ∉ r) ∧
      runs '/' (upTo '?' s) = front ++ [p].filter (fun r => !r.isEmpty) ∧
      runs '/' s = front ++ (p ++ '?' :: q) :: back := by
  obtain ⟨u, v, rfl, hu⟩ := List.eq_append_cons_of_mem h
  obtain ⟨front, p, q, back, hfront, hback, hall⟩ := exists_pieces_append '/' u ('?' :: v)
  obtain ⟨q, rfl⟩ : ∃ q', q = '?' :: q' := by
    obtain ⟨r, rs, hv⟩ := List.exists_cons_of_ne_nil (pieces_ne_nil '/' v)
    rw [pieces, if_neg (by decide), hv] at hback
    exact ⟨r, (List.cons.inj hback).1.symm⟩
  refine ⟨front.filter fun r => !r.isEmpty, p, q, back.filter fun r => !r.isEmpty, ?_, ?_, ?_⟩
  · intro r hr hc
    have hr : r ∈ pieces '/' u := by
      rw [hfront]
      rcases List.mem_append.mp hr with hr | hr
      · exact List.mem_append_left _ (List.mem_of_mem_filter hr)
      · exact List.mem_append_right _ hr
    exact hu (mem_of_mem_pieces hr hc)
  · rw [upTo_append_cons hu, runs, hfront, List.filter_append]
  · rw [runs, hall, List.filter_append, List.filter_cons_of_pos (by simp)]

/-- Segments that are marked in front of others are not marked at the end. -/
theorem markedAtEnd_iff {front back : List (List Char)} {p q : List Char}
    (h : ∀ r ∈ front ++ [p], '?' ∉ r) :
    MarkedAtEnd (front ++ (p ++ '?' :: q) :: back) ↔ p ≠ [] ∧ back = [] := by
  have hfront : ∀ r ∈ front, '?' ∉ r := fun r hr => h r (List.mem_append_left _ hr)
  have hp : '?' ∉ p := h p (List.mem_append_right _ List.mem_cons_self)
  cases back with
  | nil =>
    rw [MarkedAtEnd, List.dropLast_concat, List.getLast?_concat]
    cases p with
    | nil => simp
    | cons c p =>
      have hc : c ≠ '?' := fun hc => hp (hc ▸ List.mem_cons_self)
      simpa [hc] using hfront
  | cons r back =>
    refine iff_of_false (fun hm => hm.1 (p ++ '?' :: q) ?_ ?_) (by simp)
    · rw [List.dropLast_append_of_ne_nil (List.cons_ne_nil _ _), List.dropLast_cons_cons]
      exact List.mem_append_right _ List.mem_cons_self
    · exact List.mem_append_right _ List.mem_cons_self

/-- The text before the first mark has as many segments as the whole text exactly if the text is
marked at the end only, and then its segments are those of the text without their marks. -/
theorem runs_upTo_mark (s : List Char) :
    ((runs '/' (upTo '?' s)).length = (runs '/' s).length ↔ MarkedAtEnd (runs '/' s)) ∧
      (MarkedAtEnd (runs '/' s) → runs '/' (upTo '?' s) = (runs '/' s).map (upTo '?')) := by
  by_cases h : '?' ∈ s
  · obtain ⟨front, p, q, back, hmarks, hcut, hwhole⟩ := exists_runs_of_mem h
    rw [hcut, hwhole, markedAtEnd_iff hmarks]
    have hfront : front.map (upTo '?') = front := by
      conv_rhs => rw [← List.map_id front]
      exact List.map_congr_left fun r hr => upTo_eq_self (hmarks r (List.mem_append_left _ hr))
    have hp : '?' ∉ p := hmarks p (List.mem_append_right _ List.mem_cons_self)
    constructor
    · cases p with
      | nil => simp
      | cons c p => cases back <;> simp
    · rintro ⟨hne, rfl⟩
      rw [List.map_append, hfront, List.map_cons, upTo_append_cons hp, List.map_nil,
        List.filter_cons_of_pos (by simpa using hne), List.filter_nil]
  · have hmarks : ∀ r ∈ runs '/' s, '?' ∉ r := fun r hr hc =>
      h (mem_of_mem_pieces (List.mem_of_mem_filter hr) hc)
    have hend : MarkedAtEnd (runs '/' s) := by
      refine ⟨fun r hr => hmarks r ((List.dropLast_sublist _).mem hr), fun r hr hc => ?_⟩
      exact hmarks r (List.mem_of_getLast? hr) (List.mem_of_head? hc)
    rw [upTo_eq_self h]
    refine ⟨iff_of_true rfl hend, fun _ => ?_⟩
    conv_lhs => rw [← List.map_id (runs '/' s)]
    exact List.map_congr_left fun r hr => (upTo_eq_self (hmarks r hr)).symm

/-! ## Under a base -/

theorem segments_join (base child : String) :
    segments (join base child) =
      (segmentChars (render (segmentChars base.toList ++ segmentChars child.toList))).map
        String.ofList := by
  rw [segments, join, String.toList_ofList]

/-- Where something of a pattern is read, it stands behind the segments of the base. -/
theorem IsPattern.segments_join {pattern : String} (h : IsPattern pattern)
    (hne : runs '/' (upTo '?' pattern.toList) ≠ []) (base : String) :
    segments (join base pattern) =
      segments base ++ (runs '/' (upTo '?' pattern.toList)).map String.ofList := by
  have hclean : ∀ cs ∈ segmentChars base.toList ++ segmentChars pattern.toList, Clean cs := by
    intro cs hcs
    rcases List.mem_append.mp hcs with hcs | hcs <;> exact clean_of_mem_segmentChars hcs
  rw [HttpPath.segments_join, segments, ← List.map_append]
  rw [h.segmentChars_eq] at hclean ⊢
  -- No blank ends the last segment, since a pattern has none.
  rcases List.eq_nil_or_concat' (runs '/' (upTo '?' pattern.toList)) with hnil | ⟨front, s, hs⟩
  · exact absurd hnil hne
  · have hmem : s ∈ runs '/' (upTo '?' pattern.toList) := by
      rw [hs]
      exact List.mem_concat_self
    have hblank : ∀ c ∈ s, isBlank c = false := fun c hc =>
      h.blank c ((List.takeWhile_sublist _).mem
        (mem_of_mem_pieces (List.mem_of_mem_filter hmem) hc))
    rw [hs, ← List.append_assoc] at hclean ⊢
    have hfilter : [s].filter (fun p => !p.isEmpty) = [s] :=
      List.filter_cons_of_pos (List.mem_filter.mp hmem).2
    rw [segmentChars_render_concat hclean,
      dropTrailing_eq_self fun c hc => hblank c (List.mem_of_getLast? hc), hfilter]

/-- Where nothing of a pattern is read, the base is read twice. -/
theorem IsPattern.segments_join_nil {pattern : String} (h : IsPattern pattern)
    (hnil : runs '/' (upTo '?' pattern.toList) = []) (base : String) :
    segments (join base pattern) = segments (normalize base) := by
  rw [HttpPath.segments_join, h.segmentChars_eq, hnil, List.append_nil, segments, normalize,
    String.toList_ofList]

/-- Whether a path has segments and the last one is all blank. -/
def EndsBlank (segs : List String) : Prop :=
  ∃ s ∈ segs.getLast?, ∀ c ∈ s.toList, isBlank c = true

/-- Reading a path twice costs it a last segment that is all blank, and no other. -/
theorem length_segments_normalize (path : String) :
    ((segments (normalize path)).length = (segments path).length ↔ ¬EndsBlank (segments path)) ∧
      (segments (normalize path)).length ≤ (segments path).length := by
  rw [segments_normalize]
  rcases List.eq_nil_or_concat' (segments path) with hnil | ⟨front, s, hs⟩
  · rw [hnil]
    refine ⟨iff_of_true rfl ?_, Nat.le_refl 0⟩
    rintro ⟨s, hs, -⟩
    cases hs
  · have hend : EndsBlank (front ++ [s]) ↔ trimEnd s = "" := by
      simp [EndsBlank, trimEnd, dropTrailing_eq_nil_iff]
    rw [hs, hend, trimLast_concat]
    by_cases hblank : trimEnd s = "" <;> simp [hblank]

/-- **What is left of a pattern under a base.**  A base that was joined and a pattern have all their
segments after they are joined if and only if the marks of the pattern stand in its last segment,
behind something (and, for a pattern without segments, the base does not end in a blank segment).
Then the segments of the pattern lose their marks and nothing else.  In any case what stands before
the first mark is there, if it is anything. -/
theorem pattern_kept_whole_iff (left right pattern : String) (h : IsPattern pattern) :
    ((segments (join (join left right) pattern)).length =
          (segments (join left right)).length + (written pattern).length ↔
        MarkedAtEnd (written pattern) ∧
          (written pattern = [] → ¬EndsBlank (segments (join left right)))) ∧
      (MarkedAtEnd (written pattern) → written pattern ≠ [] →
        segments (join (join left right) pattern) =
          segments (join left right) ++
            (written pattern).map fun s => String.ofList (upTo '?' s)) ∧
      (runs '/' (upTo '?' pattern.toList) ≠ [] →
        segments (join (join left right) pattern) =
          segments (join left right) ++
            (runs '/' (upTo '?' pattern.toList)).map String.ofList) := by
  obtain ⟨hlength, hmap⟩ := runs_upTo_mark pattern.toList
  rw [← written] at hlength hmap
  generalize join left right = base
  refine ⟨?_, fun hm hne => ?_, fun hne => h.segments_join hne base⟩
  · by_cases hnil : runs '/' (upTo '?' pattern.toList) = []
    · obtain ⟨hread, hle⟩ := length_segments_normalize base
      have hwritten : written pattern = [] ↔ MarkedAtEnd (written pattern) := by
        rw [← hlength, hnil, List.length_nil]
        exact List.length_eq_zero_iff.symm.trans eq_comm
      rw [h.segments_join_nil hnil]
      constructor
      · intro heq
        have hzero : (written pattern).length = 0 := by omega
        exact ⟨hwritten.mp (List.length_eq_zero_iff.mp hzero), fun _ => hread.mp (by omega)⟩
      · rintro ⟨hm, hbase⟩
        have hempty := hwritten.mpr hm
        rw [hempty, List.length_nil, Nat.add_zero]
        exact hread.mpr (hbase hempty)
    · have hpos : 0 < (runs '/' (upTo '?' pattern.toList)).length := List.length_pos_iff.mpr hnil
      rw [h.segments_join hnil base, List.length_append, List.length_map, Nat.add_left_cancel_iff]
      refine hlength.trans (iff_self_and.mpr fun hm hempty => ?_)
      rw [hlength.mpr hm, hempty] at hpos
      exact absurd hpos (Nat.lt_irrefl 0)
  · have hcut := hmap hm
    have hne' : runs '/' (upTo '?' pattern.toList) ≠ [] := by
      rw [hcut]
      exact mt List.map_eq_nil_iff.mp hne
    rw [h.segments_join hne' base, hcut, List.map_map]
    rfl

/-- A base of two segments and a pattern whose last parameter is optional: all four are kept. -/
theorem pattern_kept_whole_iff_lastOptional :
    IsPattern "/:lang/:page?" ∧ written "/:lang/:page?" = [":lang".toList, ":page?".toList] ∧
      MarkedAtEnd (written "/:lang/:page?") ∧
      segments (join (join "/api" "v1/") "/:lang/:page?") = ["api", "v1", ":lang", ":page"] := by
  have h : IsPattern "/:lang/:page?" := by decide +kernel
  have hwritten : written "/:lang/:page?" = [":lang".toList, ":page?".toList] := by decide +kernel
  have hm : MarkedAtEnd (written "/:lang/:page?") := by
    rw [hwritten]
    exact ⟨by decide +kernel, by decide +kernel⟩
  obtain ⟨-, hkept, -⟩ := pattern_kept_whole_iff "/api" "v1/" "/:lang/:page?" h
  refine ⟨h, hwritten, hm, ?_⟩
  rw [hkept hm (by rw [hwritten]; exact List.cons_ne_nil _ _), hwritten]
  decide +kernel

end HttpPath

namespace Traversal

open HttpPath

/-- A router with an optional parameter in the middle of a pattern, under a base. -/
def optionalLanguage : Files :=
  .ofList ([
    routerFile "/r/pages.js" [] [.handler .get "/:lang?/docs" []],
    routerFile "/r/site.js" [("pages", "/r/pages.js")] [.mount "/site" ["pages"]]].map
      fun f => (f.path, f))

/-- Of `/:lang?/docs` under `/site` the last segment is lost, and so it is recorded. -/
theorem optional_parameter_ends_pattern :
    join "/" "/site" = "/site" ∧ IsPattern "/:lang?/docs" ∧
      written "/:lang?/docs" = [":lang?".toList, "docs".toList] ∧
      segments "/site" = ["site"] ∧
      segments (join "/site" "/:lang?/docs") = ["site", ":lang"] ∧
      (segments (join "/site" "/:lang?/docs")).length ≠
        (segments "/site").length + (written "/:lang?/docs").length ∧
      (routeGraph optionalLanguage).forward.keys = ["/:lang", "/site/:lang"] := by
  refine ⟨?_, ?_, ?_, ?_, ?_, ?_, ?_⟩ <;> decide +kernel

end Traversal

end RouteAtlas
