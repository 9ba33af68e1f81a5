import RouteAtlas.Proofs.HttpPath.Canonical
import RouteAtlas.Proofs.Route.RoundTrip

/-!
# Asking with a canonical form

A path is normalized when it is asked for, and the answer for several paths normalizes each before
that.  Normalizing again changes nothing but a blank at the end: blanks are trimmed before slashes
are dropped, so the blank of `/a /` is kept by the slash behind it and trimmed the next time.

`normalize_again_iff` says **when a path and its canonical form are the same to the index**.  The
canonical form is kept exactly if no blank ends the last segment.  The answers are the same exactly
if no blank ends the last segment, or that segment is written like a parameter or a splat: a node
takes a segment for its text only if the node is literal, and no literal text starts as these do
(`best_concat_eq`).  Otherwise some route tells the two apart (`exists_ne_of_literal`).
-/

set_option autoImplicit false

namespace RouteAtlas

open HttpPath

/-! ## The last segment of a path -/

namespace SegmentKind

open Text

theorem ofSegment_eq_literal_iff {s : String} :
    ofSegment s = .literal ↔ ∀ c ∈ s.toList.head?, c ≠ ':' ∧ c ≠ '*' := by
  unfold ofSegment
  cases s.toList with
  | nil => simp
  | cons c cs => split <;> simp_all

/-- The blanks at its end have no part in what kind a segment is. -/
theorem ofSegment_trimEnd_eq_literal_iff {s : String} :
    ofSegment (trimEnd s) = .literal ↔ ofSegment s = .literal := by
  rw [ofSegment_eq_literal_iff, ofSegment_eq_literal_iff, trimEnd, String.toList_ofList]
  constructor
  · intro h c hc
    cases hblank : isBlank c with
    | true =>
      constructor <;> rintro rfl <;> exact absurd hblank (by decide)
    | false =>
      obtain ⟨cs, hcs⟩ := List.head?_eq_some_iff.mp hc
      rw [hcs, dropTrailing_cons hblank] at h
      exact h c rfl
  · intro h c hc
    obtain ⟨t, ht, -⟩ := exists_eq_dropTrailing_append isBlank s.toList
    refine h c ?_
    rw [ht, List.head?_append, hc]
    rfl

end SegmentKind

namespace RouteTrie

variable {V : Type}

/-- Nodes that do not ask for a text take any two segments alike. -/
theorem enter_eq {s s' : String} (h : SegmentKind.ofSegment s ≠ .literal)
    (h' : SegmentKind.ofSegment s' ≠ .literal) : enter (V := V) s = enter s' := by
  funext remaining below c
  unfold enter
  cases hk : c.kind with
  | literal =>
    rw [if_neg, if_neg]
    · rintro rfl
      exact h' hk
    · rintro rfl
      exact h hk
  | param => rfl
  | splat => rfl

/-- Behind the same segments, two that no literal node takes lead the same way. -/
theorem best_concat_eq {s s' : String} (h : SegmentKind.ofSegment s ≠ .literal)
    (h' : SegmentKind.ofSegment s' ≠ .literal) (front : List String) (t : RouteTrie V) :
    best (front ++ [s]) t = best (front ++ [s']) t := by
  induction front generalizing t with
  | nil => simp only [List.nil_append, best, enter_eq h h']
  | cons a front ih =>
    have hbelow : best (V := V) (front ++ [s]) = best (front ++ [s']) := funext ih
    simp only [List.cons_append, best, hbelow, List.length_append, List.length_singleton]

theorem covers_param_cons_iff {n : String} {p q : List String}
    (hn : SegmentKind.ofSegment n = .param) :
    Covers (n :: p) q ↔ ∃ s q', q = s :: q' ∧ Covers p q' := by
  constructor
  · generalize hp : n :: p = p₀
    intro h
    cases h with
    | nil => cases hp
    | literal hk _ =>
      cases hp
      exact absurd (hn.symm.trans hk) (by decide)
    | param _ h =>
      cases hp
      exact ⟨_, _, rfl, h⟩
    | splat hk =>
      cases hp
      exact absurd (hn.symm.trans hk) (by decide)
  · rintro ⟨s, q', rfl, h⟩
    exact .param hn h

theorem Covers.eq_of_literal {t s : String} (ht : SegmentKind.ofSegment t = .literal)
    (h : Covers [t] [s]) : s = t := by
  cases h with
  | literal => rfl
  | param hk => exact absurd (ht.symm.trans hk) (by decide)
  | splat hk => exact absurd (ht.symm.trans hk) (by decide)

/-- A route of parameters with one more segment behind them takes paths of its length, if that
segment takes their last one. -/
theorem covers_params_concat_iff {n : Nat} {t : String} {q : List String}
    (ht : SegmentKind.ofSegment t ≠ .splat) :
    Covers (List.replicate n ":p" ++ [t]) q ↔
      ∃ front s, q = front ++ [s] ∧ front.length = n ∧ Covers [t] [s] := by
  induction n generalizing q with
  | zero =>
    constructor
    · intro h
      cases h with
      | literal hk h =>
        cases h
        exact ⟨[], _, rfl, rfl, .literal hk .nil⟩
      | param hk h =>
        cases h
        exact ⟨[], _, rfl, rfl, .param hk .nil⟩
      | splat hk => exact absurd hk ht
    · rintro ⟨front, s, rfl, hfront, h⟩
      rw [List.eq_nil_of_length_eq_zero hfront]
      exact h
  | succ n ih =>
    rw [List.replicate_succ, List.cons_append, covers_param_cons_iff (by decide)]
    constructor
    · rintro ⟨a, q', rfl, h⟩
      obtain ⟨front, s, rfl, hfront, h⟩ := ih.mp h
      exact ⟨a :: front, s, rfl, congrArg (· + 1) hfront, h⟩
    · rintro ⟨front, s, rfl, hfront, h⟩
      obtain ⟨a, front, rfl⟩ := List.exists_cons_of_length_eq_add_one hfront
      exact ⟨a, _, rfl, ih.mpr ⟨front, s, rfl, Nat.succ.inj hfront, h⟩⟩

end RouteTrie

/-! ## A route that tells two paths apart -/

namespace RouteGraph

open RouteTrie Text

/-- One file serves one route. -/
def soleRoute (route : String) : RouteGraph :=
  .record .empty ⟨route, "get", "/r/a.js"⟩

theorem isSome_cell?_soleRoute_iff {route route' method : String} :
    ((soleRoute route).cell? route' method).isSome ↔ route' = route ∧ method = "get" := by
  rw [soleRoute, cell?_record]
  split
  · rename_i h
    exact iff_of_true rfl h
  · rename_i h
    exact iff_of_false (by simp) h

theorem mem_soleRoute_iff {route route' method source : String} :
    source ∈ (soleRoute route).sources route' method ↔
      route' = route ∧ method = "get" ∧ source = "/r/a.js" := by
  rw [soleRoute, mem_sources_record]
  simp [sources_eq_getD]

/-- The route of `n` parameters and one more segment. -/
def paramsThen (n : Nat) (t : String) : String :=
  String.ofList (render ((List.replicate n ":p" ++ [t]).map String.toList))

theorem segments_paramsThen {n : Nat} {t : String} (hclean : Clean t.toList)
    (hblank : ¬HasTrailingBlank t) : segments (paramsThen n t) = List.replicate n ":p" ++ [t] := by
  refine segments_render (fun s hs => ?_) fun s hs => ?_
  · rcases List.mem_append.mp hs with hs | hs
    · rw [List.eq_of_mem_replicate hs]
      exact ⟨by decide, by decide, by decide, by decide⟩
    · rw [List.mem_singleton.mp hs]
      exact hclean
  · rw [List.getLast?_concat, Option.mem_some_iff] at hs
    rwa [← hs]

theorem addressOf_paramsThen {n : Nat} {t : String} (hclean : Clean t.toList)
    (hblank : ¬HasTrailingBlank t) : addressOf (paramsThen n t) = List.replicate n ":p" ++ [t] := by
  rw [addressOf, address, filter_segments, segments_paramsThen hclean hblank]
  refine cutAtSplat_eq_self fun s hs => ?_
  rw [List.dropLast_concat] at hs
  rw [List.eq_of_mem_replicate hs]
  decide

end RouteGraph

namespace RouteIndex

open RouteGraph RouteTrie Text

/-- Whatever is answered was recorded for a route that takes the path or a beginning of it. -/
theorem exists_covers_of_mem_sourcesForPath {g : RouteGraph} {path source : String}
    (h : source ∈ (ofGraph g).sourcesForPath path) :
    ∃ route method q, source ∈ g.sources route method ∧ q <+: segments path ∧
      Covers (addressOf route) q := by
  obtain ⟨n, hn, method, -, set, hset, hs⟩ := mem_sourcesForPath_iff.mp h
  obtain ⟨turns, hb, -⟩ := exists_bestBy (segments path) (ofGraph g).trie
  have ho : (ofGraph g).trie.Ordered := ofGraph_trie g ▸ ordered_putAll _
  obtain ⟨p, hp, hnode⟩ := (hb.mem_nodes_iff ho).mp hn
  have hhandler : (ofGraph g).trie.handler? p method = some set := by
    rw [handler?, hnode, Option.bind_some, hset]
  obtain ⟨route, hc, rfl, -⟩ := handler?_ofGraph_eq_some_iff.mp hhandler
  obtain ⟨q, hq, hcovers⟩ := hb.covers_take.exists_of_isPrefix hp
  exact ⟨route, method, q, mem_sources_of_cell? hc hs, hq.trans (List.take_prefix _ _), hcovers⟩

theorem mem_sourcesForPath_soleRoute {route path : String}
    (h : Covers (addressOf route) (segments path)) :
    "/r/a.js" ∈ (ofGraph (soleRoute route)).sourcesForPath path := by
  have hkept : (soleRoute route).Kept route "get" := by
    intro route' hlt _
    rw [← Option.not_isSome_iff_eq_none, isSome_cell?_soleRoute_iff]
    rintro ⟨rfl, -⟩
    exact String.lt_irrefl _ hlt
  have hprevails : Prevails (soleRoute route).Laid (segments path) (addressOf route) := by
    refine ⟨.inr ⟨route, "get", isSome_cell?_soleRoute_iff.mpr ⟨rfl, rfl⟩, List.prefix_rfl⟩, h,
      fun p' hp' hcovers => .inl (h.eq_of_isPrefix hcovers ?_)⟩
    rcases hp' with rfl | ⟨route', method, hsome, hp'⟩
    · exact List.nil_prefix
    · rwa [(isSome_cell?_soleRoute_iff.mp hsome).1] at hp'
  exact (mem_sourcesForPath_ofGraph_iff hprevails).mpr
    ⟨route, "get", by decide, hkept, List.prefix_rfl, mem_soleRoute_iff.mpr ⟨rfl, rfl, rfl⟩⟩

/-- Of the paths that are not longer than a route, it answers those that it takes. -/
theorem mem_soleRoute_paramsThen_iff {n : Nat} {t path : String} (hclean : Clean t.toList)
    (hblank : ¬HasTrailingBlank t) (ht : SegmentKind.ofSegment t ≠ .splat)
    (hle : (segments path).length ≤ n + 1) :
    "/r/a.js" ∈ (ofGraph (soleRoute (paramsThen n t))).sourcesForPath path ↔
      ∃ front s, segments path = front ++ [s] ∧ front.length = n ∧ Covers [t] [s] := by
  have haddress := addressOf_paramsThen (n := n) hclean hblank
  rw [← covers_params_concat_iff ht, ← haddress]
  refine ⟨fun h => ?_, mem_sourcesForPath_soleRoute⟩
  obtain ⟨route, method, q, hs, hq, hcovers⟩ := exists_covers_of_mem_sourcesForPath h
  rw [(mem_soleRoute_iff.mp hs).1] at hcovers
  -- What the route takes is as long as the route, so it is the whole path.
  have hlength : q.length = n + 1 := by
    rw [haddress, covers_params_concat_iff ht] at hcovers
    obtain ⟨front, s, rfl, hfront, -⟩ := hcovers
    rw [List.length_append, hfront, List.length_singleton]
  rwa [← hq.eq_of_length_le (hlength ▸ hle)]

/-- A path that ends in a literal segment with a blank at its end is told apart from its canonical
form.  If the segment is all blank the canonical form is too short for a route of parameters;
otherwise only the canonical form has the text that is left. -/
theorem exists_ne_of_literal {path s : String} (hs : s ∈ (segments path).getLast?)
    (hblank : HasTrailingBlank s) (hl : SegmentKind.ofSegment s = .literal) :
    ∃ g : RouteGraph,
      (ofGraph g).sourcesForPath (normalize path) ≠ (ofGraph g).sourcesForPath path := by
  obtain ⟨front, hfront⟩ := List.getLast?_eq_some_iff.mp hs
  have hcanonical := segments_normalize path
  rw [hfront, trimLast_concat] at hcanonical
  have hlength : (segments path).length ≤ front.length + 1 := by
    rw [hfront, List.length_append, List.length_singleton]
  have hlength' : (segments (normalize path)).length ≤ front.length + 1 := by
    rw [hcanonical, List.length_append]
    exact Nat.add_le_add_left (List.length_filter_le _ _) _
  by_cases he : trimEnd s = ""
  · have hclean : Clean ":p".toList := ⟨by decide, by decide, by decide, by decide⟩
    have htrim : ¬HasTrailingBlank ":p" := by decide
    rw [he, List.filter_cons_of_neg (by decide), List.filter_nil, List.append_nil] at hcanonical
    refine ⟨soleRoute (paramsThen front.length ":p"), fun hsame => ?_⟩
    have hin := (mem_soleRoute_paramsThen_iff hclean htrim (by decide) hlength).mpr
      ⟨front, s, hfront, rfl, .param (by decide) .nil⟩
    rw [← hsame, mem_soleRoute_paramsThen_iff hclean htrim (by decide) hlength',
      hcanonical] at hin
    obtain ⟨front', s', rfl, hshorter, -⟩ := hin
    simp at hshorter
  · have hclean := clean_trimEnd (List.mem_of_getLast? hs) he
    have htrim := not_hasTrailingBlank_trimEnd s
    have hkind := SegmentKind.ofSegment_trimEnd_eq_literal_iff.mpr hl
    have hsplat : SegmentKind.ofSegment (trimEnd s) ≠ .splat := by
      rw [hkind]
      decide
    rw [List.filter_cons_of_pos (by simpa using he), List.filter_nil] at hcanonical
    refine ⟨soleRoute (paramsThen front.length (trimEnd s)), fun hsame => ?_⟩
    have hin := (mem_soleRoute_paramsThen_iff hclean htrim hsplat hlength').mpr
      ⟨front, trimEnd s, hcanonical, rfl, .literal hkind .nil⟩
    rw [hsame, mem_soleRoute_paramsThen_iff hclean htrim hsplat hlength, hfront] at hin
    obtain ⟨front', s', hfront', -, hcovers⟩ := hin
    rw [hcovers.eq_of_literal hkind] at hfront'
    have hsame : s = trimEnd s := List.singleton_inj.mp (List.append_inj' hfront' rfl).2
    exact trimEnd_eq_self_iff.mp hsame.symm hblank

/-! ## Both answers -/

/-- Otherwise the two are answered alike. -/
theorem sourcesForKey_normalize {path : String}
    (h : ∀ s ∈ (segments path).getLast?, HasTrailingBlank s →
      SegmentKind.ofSegment s ≠ .literal) (ix : RouteIndex) (method : String) :
    ix.sourcesForKey (segments (normalize path)) method =
      ix.sourcesForKey (segments path) method := by
  by_cases hblank : ∀ s ∈ (segments path).getLast?, ¬HasTrailingBlank s
  · rw [normalize_eq_iff.mp (normalize_normalize_iff.mpr hblank)]
  · simp only [not_forall, not_not, exists_prop] at hblank
    obtain ⟨s, hs, hblank⟩ := hblank
    obtain ⟨front, hfront⟩ := List.getLast?_eq_some_iff.mp hs
    have hkind := h s hs hblank
    have hkind' : SegmentKind.ofSegment (trimEnd s) ≠ .literal :=
      mt SegmentKind.ofSegment_trimEnd_eq_literal_iff.mp hkind
    have hne : trimEnd s ≠ "" := by
      rintro he
      rw [he] at hkind'
      exact hkind' rfl
    have hcanonical := segments_normalize path
    rw [hfront, trimLast_concat, List.filter_cons_of_pos (by simpa using hne),
      List.filter_nil] at hcanonical
    rw [sourcesForKey, sourcesForKey, lookup, lookup, filter_segments, filter_segments, hcanonical,
      hfront, best_concat_eq hkind' hkind]

theorem sourcesForPaths_singleton (ix : RouteIndex) (path : String) :
    ix.sourcesForPaths [path] = ix.sourcesForPath (normalize path) := by
  refine SortedSet.ext_mem fun source => ?_
  rw [sourcesForPaths, SortedSet.mem_foldl_union]
  simp

/-- **When it makes no difference to normalize a path before asking.**  Normalizing again takes the
blanks from the end of the last segment, and the segment with them if it is nothing but blanks.  So
a canonical form is kept exactly if no blank ends that segment; and whatever the index was made
from, the path and its canonical form are answered alike exactly if no blank ends that segment or
the segment is not literal. -/
theorem normalize_again_iff (path : String) :
    (normalize (normalize path) = normalize path ↔
      ∀ s ∈ (segments path).getLast?, ¬HasTrailingBlank s) ∧
    segments (normalize path) = trimLast (segments path) ∧
    ((∀ g : RouteGraph, (ofGraph g).sourcesForPaths [path] = (ofGraph g).sourcesForPath path ∧
        ∀ m : HttpMethod, (ofGraph g).sourcesFor m (normalize path) =
          (ofGraph g).sourcesFor m path) ↔
      ∀ s ∈ (segments path).getLast?, HasTrailingBlank s →
        SegmentKind.ofSegment s ≠ .literal) := by
  refine ⟨normalize_normalize_iff, segments_normalize path, fun h s hs hblank hl => ?_,
    fun h g => ⟨?_, fun m => sourcesForKey_normalize h _ _⟩⟩
  · obtain ⟨g, hg⟩ := exists_ne_of_literal hs hblank hl
    exact hg ((sourcesForPaths_singleton _ _).symm.trans (h g).1)
  · rw [sourcesForPaths_singleton, sourcesForPath, sourcesForPath,
      funext (sourcesForKey_normalize h (ofGraph g))]

end RouteIndex

namespace Traversal

/-- One router serves one page. -/
def onePage : Files :=
  .ofList ([routerFile "/r/a.js" [] [.handler .get "/a" []]].map fun f => (f.path, f))

/-- The slash behind the blank is dropped after blanks were trimmed, so the next reading trims
one more. -/
theorem normalize_again_onePage :
    normalize (normalize "/a /") ≠ normalize "/a /" ∧
      ((RouteIndex.ofGraph (routeGraph onePage)).sourcesForPath "/a /").toList = [] ∧
      ((RouteIndex.ofGraph (routeGraph onePage)).sourcesForPath (normalize "/a /")).toList =
        ["/r/a.js"] ∧
      ((RouteIndex.ofGraph (routeGraph onePage)).sourcesForPaths ["/a /"]).toList =
        ["/r/a.js"] := by
  decide +kernel

end Traversal

end RouteAtlas
