import Mathlib.Data.List.Infix
import RouteAtlas.Proofs.HttpPath

/-!
# The canonical form

Segments are clean, so what is written from them is in canonical form whatever the text was that
they come from (`isCanonical_render`), and cutting it at its slashes gives them back.  Read as a
path once more it is the same unless a blank ends its last segment (`normalize_normalize_iff`).

What decorates the path of a URL is in front of its first slash or behind its end.  A query and a
fragment are cut off first, in this order, and it does not matter where a `?` stands behind a `#` or
a `#` behind a `?` (`resource_append_query`, `resource_append_fragment`); an origin goes last
(`resource_origin_append`).  So **a path with any of these has the canonical form of the path
alone** (`normalize_canonical`).
-/

set_option autoImplicit false

namespace RouteAtlas.HttpPath

open RouteAtlas.Text

/-- The canonical form: one slash in front, single slashes inside, none at the end but for the
root, and nothing of a query or a fragment. -/
structure IsCanonical (path : String) : Prop where
  starts : path.toList.head? = some '/'
  query : '?' ∉ path.toList
  fragment : '#' ∉ path.toList
  slashes : ¬['/', '/'] <:+: path.toList
  ends : path.toList.getLast? = some '/' → path = "/"

/-! ## Single slashes -/

theorem not_infix_append {cs rest : List Char} (hcs : '/' ∉ cs)
    (hrest : ¬['/', '/'] <:+: rest) : ¬['/', '/'] <:+: cs ++ rest := by
  induction cs with
  | nil => exact hrest
  | cons c cs ih =>
    obtain ⟨hc, hcs⟩ := not_or.mp (mt List.mem_cons.mpr hcs)
    rw [List.cons_append, List.infix_cons_iff, not_or]
    exact ⟨fun h => hc (List.cons_prefix_cons.mp h).1, ih hcs⟩

theorem not_infix_segments {segs : List (List Char)} (h : ∀ cs ∈ segs, Clean cs) :
    ¬['/', '/'] <:+: segs.flatMap ('/' :: ·) := by
  induction segs with
  | nil => exact fun h => absurd (List.infix_nil.mp h) (List.cons_ne_nil _ _)
  | cons cs segs ih =>
    obtain ⟨hcs, hsegs⟩ := List.forall_mem_cons.mp h
    rw [List.flatMap_cons, List.cons_append, List.infix_cons_iff, not_or]
    refine ⟨fun hprefix => ?_, not_infix_append hcs.slash (ih hsegs)⟩
    -- The second slash would be the first character of the segment, which is not empty.
    obtain ⟨c, cs', rfl⟩ := List.exists_cons_of_ne_nil hcs.ne_nil
    have hc := (List.cons_prefix_cons.mp (List.cons_prefix_cons.mp hprefix).2).1
    exact hcs.slash (hc ▸ List.mem_cons_self)

theorem not_infix_render {segs : List (List Char)} (h : ∀ cs ∈ segs, Clean cs) :
    ¬['/', '/'] <:+: render segs := by
  cases segs with
  | nil => decide
  | cons cs segs => exact not_infix_segments h

theorem render_eq_root_of_getLast? {segs : List (List Char)} (h : ∀ cs ∈ segs, Clean cs)
    (hlast : (render segs).getLast? = some '/') : render segs = ['/'] := by
  rcases segs.eq_nil_or_concat' with rfl | ⟨front, s, rfl⟩
  · rfl
  · have hs := h s (List.mem_append_right _ List.mem_cons_self)
    obtain ⟨c, cs, rfl⟩ := List.exists_cons_of_ne_nil hs.ne_nil
    rw [render_concat, List.getLast?_append_cons, List.getLast?_cons_cons] at hlast
    exact absurd (List.mem_of_getLast? hlast) hs.slash

theorem isCanonical_render {segs : List (List Char)} (h : ∀ cs ∈ segs, Clean cs) :
    IsCanonical (String.ofList (render segs)) where
  starts := by
    obtain ⟨s, hs⟩ := render_eq_cons segs
    rw [String.toList_ofList, hs]
    rfl
  query := by
    rw [String.toList_ofList]
    exact not_mem_render (by decide) fun cs hcs => (h cs hcs).query
  fragment := by
    rw [String.toList_ofList]
    exact not_mem_render (by decide) fun cs hcs => (h cs hcs).fragment
  slashes := by
    rw [String.toList_ofList]
    exact not_infix_render h
  ends := by
    rw [String.toList_ofList]
    intro hlast
    rw [render_eq_root_of_getLast? h hlast]

theorem segments_eq_runs_normalize (path : String) :
    segments path = (runs '/' (normalize path).toList).map String.ofList := by
  rw [segments, normalize, String.toList_ofList,
    runs_render fun _ hcs => clean_of_mem_segmentChars hcs]

theorem normalize_eq_iff {a b : String} : normalize a = normalize b ↔ segments a = segments b := by
  refine ⟨fun h => ?_, normalize_eq_of_segments_eq⟩
  rw [segments_eq_runs_normalize, h, segments_eq_runs_normalize]

/-! ## Read again -/

theorem trimEnd_eq_self_iff {s : String} : trimEnd s = s ↔ ¬HasTrailingBlank s := by
  rw [trimEnd, ← String.toList_inj, String.toList_ofList, dropTrailing_eq_self_iff,
    HasTrailingBlank]
  simp

theorem not_hasTrailingBlank_trimEnd (s : String) : ¬HasTrailingBlank (trimEnd s) := by
  rw [← trimEnd_eq_self_iff, trimEnd, trimEnd, String.toList_ofList, dropTrailing_dropTrailing]

theorem clean_trimEnd {path s : String} (hs : s ∈ segments path) (hne : trimEnd s ≠ "") :
    Clean (trimEnd s).toList := by
  obtain ⟨cs, hcs, rfl⟩ := List.mem_map.mp hs
  have hclean := clean_of_mem_segmentChars hcs
  have hmem : ∀ c ∈ (trimEnd (String.ofList cs)).toList, c ∈ cs := by
    intro c hc
    rw [trimEnd, String.toList_ofList, String.toList_ofList] at hc
    exact mem_of_mem_dropTrailing hc
  exact ⟨by simpa using hne, fun hc => hclean.slash (hmem _ hc),
    fun hc => hclean.query (hmem _ hc), fun hc => hclean.fragment (hmem _ hc)⟩

theorem trimLast_eq_self_iff {segs : List String} (h : ∀ s ∈ segs, s.isEmpty = false) :
    trimLast segs = segs ↔ ∀ s ∈ segs.getLast?, ¬HasTrailingBlank s := by
  rcases List.eq_nil_or_concat' segs with rfl | ⟨front, s, rfl⟩
  · exact iff_of_true rfl fun s hs => by cases hs
  · have hs : s.isEmpty = false := h s List.mem_concat_self
    rw [trimLast_concat, List.append_cancel_left_eq, List.getLast?_concat]
    simp only [Option.mem_some_iff, forall_eq', ← trimEnd_eq_self_iff]
    constructor
    · intro he
      have hmem : s ∈ [trimEnd s].filter fun s => !s.isEmpty := he ▸ List.mem_cons_self
      exact (List.mem_singleton.mp (List.mem_of_mem_filter hmem)).symm
    · intro he
      rw [he, List.filter_cons_of_pos (by simpa using hs), List.filter_nil]

theorem normalize_normalize_iff {path : String} :
    normalize (normalize path) = normalize path ↔
      ∀ s ∈ (segments path).getLast?, ¬HasTrailingBlank s := by
  rw [normalize_eq_iff, segments_normalize,
    trimLast_eq_self_iff fun _ hs => isEmpty_of_mem_segments hs]

/-- Segments of which no blank ends the last one are read back as they were written. -/
theorem segments_render {segs : List String} (hclean : ∀ s ∈ segs, Clean s.toList)
    (hblank : ∀ s ∈ segs.getLast?, ¬HasTrailingBlank s) :
    segments (String.ofList (render (segs.map String.toList))) = segs := by
  have hchars : ∀ cs ∈ segs.map String.toList, Clean cs := fun cs hcs => by
    obtain ⟨s, hs, rfl⟩ := List.mem_map.mp hcs
    exact hclean s hs
  have hend : ∀ c, (render (segs.map String.toList)).getLast? = some c → isBlank c = false := by
    intro c hc
    rcases List.eq_nil_or_concat' segs with rfl | ⟨front, s, rfl⟩
    · cases hc
      decide
    · obtain ⟨d, ds, hs⟩ := List.exists_cons_of_ne_nil (hclean s List.mem_concat_self).ne_nil
      rw [List.map_append, List.map_singleton, render_concat, List.getLast?_append_cons, hs,
        List.getLast?_cons_cons, ← hs] at hc
      by_contra hne
      exact hblank s List.getLast?_concat ⟨c, hc, Bool.not_eq_false _ ▸ hne⟩
  rw [segments, String.toList_ofList, segmentChars_render hchars hend, List.map_map]
  simp

/-! ## Decoration -/

theorem normalize_eq_of_resource_eq {a b : String} (h : resource a.toList = resource b.toList) :
    normalize a = normalize b := by
  rw [normalize, normalize, segmentChars, segmentChars, h]

theorem resource_append_query (s t : List Char) : resource (s ++ '?' :: t) = resource s := by
  rw [resource, upTo_append_sep, resource]

/-- If a `?` inside the fragment is taken for a query, what is left of the fragment goes next. -/
theorem resource_append_fragment (s t : List Char) : resource (s ++ '#' :: t) = resource s := by
  by_cases hs : '?' ∈ s
  · rw [resource, upTo_append_of_mem hs, resource]
  · have ht : upTo '?' ('#' :: t) = '#' :: upTo '?' t := List.takeWhile_cons_of_pos (by decide)
    rw [resource, upTo_append_of_not_mem hs, ht, upTo_append_sep, resource, upTo_eq_self hs]

/-- What a host name is made of, for a text that is cut at the path, the query and the fragment. -/
structure IsHost (host : List Char) : Prop where
  slash : '/' ∉ host
  query : '?' ∉ host
  fragment : '#' ∉ host

/-- The text after an origin starts with the first slash behind the scheme. -/
theorem withoutOrigin_append {scheme : String} (h : scheme ∈ ["http://", "https://"])
    {host : List Char} (hhost : '/' ∉ host) (s : List Char) :
    withoutOrigin (scheme.toList ++ (host ++ '/' :: s)) = '/' :: s := by
  have hdrop : (host ++ '/' :: s).dropWhile (· ≠ '/') = '/' :: s := by
    rw [List.dropWhile_append_of_pos fun c hc => by
      rw [decide_eq_true_eq]
      rintro rfl
      exact hhost hc]
    exact List.dropWhile_cons_of_neg (by simp)
  rcases List.mem_pair.mp h with rfl | rfl
  · rw [withoutOrigin, isPrefixOf?_append]
    exact hdrop
  · have hother : "http://".toList.isPrefixOf? ("https://".toList ++ (host ++ '/' :: s)) = none :=
      rfl
    rw [withoutOrigin, hother, isPrefixOf?_append]
    exact hdrop

/-- No scheme starts with a blank, so only the path is trimmed behind an origin. -/
theorem trimChars_origin_append {scheme : String} (h : scheme ∈ ["http://", "https://"])
    (host s : List Char) :
    trimChars (scheme.toList ++ (host ++ '/' :: s)) =
      scheme.toList ++ (host ++ '/' :: dropTrailing isBlank s) := by
  have hfront : (scheme.toList ++ (host ++ '/' :: s)).dropWhile isBlank =
      scheme.toList ++ (host ++ '/' :: s) := by
    rcases List.mem_pair.mp h with rfl | rfl <;> exact List.dropWhile_cons_of_neg (by decide)
  rw [trimChars, trimBoth, hfront, ← List.append_assoc, dropTrailing_append_cons (by decide),
    List.append_assoc]

theorem upTo_origin_append {scheme : String} (h : scheme ∈ ["http://", "https://"])
    {host : List Char} {c : Char} (hc : c ∈ ['?', '#']) (hhost : c ∉ host) (s : List Char) :
    upTo c (scheme.toList ++ (host ++ '/' :: s)) = scheme.toList ++ (host ++ '/' :: upTo c s) := by
  have hscheme : c ∉ scheme.toList := by
    rcases List.mem_pair.mp h with rfl | rfl <;> rcases List.mem_pair.mp hc with rfl | rfl <;>
      decide
  have hslash : upTo c ('/' :: s) = '/' :: upTo c s := by
    rcases List.mem_pair.mp hc with rfl | rfl <;> exact List.takeWhile_cons_of_pos (by decide)
  rw [upTo_append_of_not_mem hscheme, upTo_append_of_not_mem hhost, hslash]

theorem resource_origin_append {scheme : String} (h : scheme ∈ ["http://", "https://"])
    {host : List Char} (hhost : IsHost host) (s : List Char) :
    resource (scheme.toList ++ (host ++ '/' :: s)) = resource ('/' :: s) := by
  rw [resource, upTo_origin_append h (by decide) hhost.query,
    upTo_origin_append h (by decide) hhost.fragment, trimChars_origin_append h,
    withoutOrigin_append h hhost.slash, resource_slash_cons]

theorem normalize_origin_append {scheme : String} (h : scheme ∈ ["http://", "https://"])
    {host path : String} (hhost : IsHost host.toList) (hpath : path.toList.head? = some '/') :
    normalize (scheme ++ host ++ path) = normalize path := by
  obtain ⟨s, hs⟩ := List.head?_eq_some_iff.mp hpath
  refine normalize_eq_of_resource_eq ?_
  rw [String.toList_append, String.toList_append, List.append_assoc, hs]
  exact resource_origin_append h hhost s

theorem normalize_append_query (path query : String) :
    normalize (path ++ "?" ++ query) = normalize path := by
  refine normalize_eq_of_resource_eq ?_
  rw [String.toList_append, String.toList_append, List.append_assoc]
  exact resource_append_query _ _

theorem normalize_append_fragment (path fragment : String) :
    normalize (path ++ "#" ++ fragment) = normalize path := by
  refine normalize_eq_of_resource_eq ?_
  rw [String.toList_append, String.toList_append, List.append_assoc]
  exact resource_append_fragment _ _

/-- **Every text has a canonical form that its segments are cut from, and the form of a path does
not depend on an origin, a query or a fragment around it.** -/
theorem normalize_canonical :
    (∀ v, IsCanonical (normalize v) ∧
      segments v = (runs '/' (normalize v).toList).map String.ofList) ∧
    ∀ path : String, path.toList.head? = some '/' →
      (∀ scheme ∈ ["http://", "https://"], ∀ host : String, IsHost host.toList →
        normalize (scheme ++ host ++ path) = normalize path) ∧
      (∀ query, normalize (path ++ "?" ++ query) = normalize path) ∧
      ∀ fragment, normalize (path ++ "#" ++ fragment) = normalize path :=
  ⟨fun v => ⟨isCanonical_render fun _ hcs => clean_of_mem_segmentChars hcs,
      segments_eq_runs_normalize v⟩,
    fun path hpath => ⟨fun _ hscheme _ hhost => normalize_origin_append hscheme hhost hpath,
      normalize_append_query path, normalize_append_fragment path⟩⟩

/-- A query with a fragment's mark in it, a fragment with a query's, and a port in the host. -/
theorem normalize_canonical_users :
    normalize ("https://" ++ "example.com:8443" ++ "//users/ /42/") = "/users/ /42" ∧
      normalize ("//users/ /42/" ++ "?" ++ "q=#1") = "/users/ /42" ∧
      normalize ("//users/ /42/" ++ "#" ++ "top?q") = "/users/ /42" := by
  have hform : normalize "//users/ /42/" = "/users/ /42" := by decide +kernel
  obtain ⟨horigin, hquery, hfragment⟩ := normalize_canonical.2 "//users/ /42/" (by decide +kernel)
  refine ⟨(horigin "https://" (by decide) "example.com:8443" ?_).trans hform,
    (hquery "q=#1").trans hform, (hfragment "top?q").trans hform⟩
  exact ⟨by decide +kernel, by decide +kernel, by decide +kernel⟩

end RouteAtlas.HttpPath
