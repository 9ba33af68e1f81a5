import RouteAtlas.HttpPath
import RouteAtlas.Proofs.Text

/-!
# Paths written out and read back

Joining writes segments out, and every later reading cuts the text again.  The segments come back as
they were (`segmentChars_render`) unless the text ends in a blank: blanks are trimmed before the
slashes are looked at, and a blank that a slash kept from the end of one text can be at the end of
the next.  So **a joined path is in canonical form if it does not end in a blank**
(`normalize_join`), and what the segments of a path lose when its canonical form is read are the
blanks at the end of the last one (`segments_normalize`).
-/

set_option autoImplicit false

namespace RouteAtlas.HttpPath

open RouteAtlas.Text

/-! ## Segments -/

/-- What a segment is made of: something, from between two slashes and before any `?` or `#`. -/
structure Clean (cs : List Char) : Prop where
  ne_nil : cs ≠ []
  slash : '/' ∉ cs
  query : '?' ∉ cs
  fragment : '#' ∉ cs

theorem mem_of_mem_withoutOrigin {s : List Char} {c : Char} (h : c ∈ withoutOrigin s) : c ∈ s := by
  have hdrop : ∀ {scheme rest : List Char}, scheme.isPrefixOf? s = some rest →
      c ∈ rest.dropWhile (· ≠ '/') → c ∈ s := by
    intro scheme rest hrest hc
    rw [← List.isPrefixOf?_eq_some_iff_append_eq.mp hrest]
    exact List.mem_append_right _ ((List.dropWhile_sublist _).mem hc)
  unfold withoutOrigin at h
  split at h
  · exact hdrop ‹_› h
  · split at h
    · exact hdrop ‹_› h
    · exact h

theorem mem_of_mem_resource {s : List Char} {c : Char} (h : c ∈ resource s) :
    c ∈ upTo '#' (upTo '?' s) := by
  have htrim := mem_of_mem_withoutOrigin h
  rw [trimChars, trimBoth] at htrim
  exact (List.dropWhile_sublist _).mem (mem_of_mem_dropTrailing htrim)

theorem clean_of_mem_segmentChars {s cs : List Char} (h : cs ∈ segmentChars s) : Clean cs := by
  obtain ⟨hp, hne⟩ := List.mem_filter.mp h
  have hresource : ∀ c ∈ cs, c ∈ upTo '#' (upTo '?' s) := fun c hc =>
    mem_of_mem_resource (mem_of_mem_pieces hp hc)
  refine ⟨by simpa using hne, not_mem_of_mem_pieces hp, fun hq => ?_, fun hf => ?_⟩
  · have hquery := (List.takeWhile_sublist _).mem (hresource _ hq)
    exact absurd (List.mem_takeWhile_imp hquery) (by decide)
  · exact absurd (List.mem_takeWhile_imp (hresource _ hf)) (by decide)

theorem isEmpty_of_mem_segments {path s : String} (h : s ∈ segments path) :
    s.isEmpty = false := by
  obtain ⟨cs, hcs, rfl⟩ := List.mem_map.mp h
  have hne : cs ≠ [] := by
    simpa using (List.mem_filter.mp hcs).2
  rw [← Bool.not_eq_true, String.isEmpty_iff]
  intro he
  exact hne (String.ofList_eq_empty_iff.mp he)

theorem filter_segments (path : String) :
    ((segments path).filter fun s => !s.isEmpty) = segments path :=
  List.filter_eq_self.mpr fun s hs => by rw [isEmpty_of_mem_segments hs, Bool.not_false]

/-- The segments tell the canonical form. -/
theorem normalize_eq_of_segments_eq {a b : String} (h : segments a = segments b) :
    normalize a = normalize b := by
  have hchars : segmentChars a.toList = segmentChars b.toList :=
    List.map_injective_iff.mpr (fun _ _ => String.ofList_inj.mp) h
  rw [normalize, normalize, hchars]

/-! ## Reading what was written -/

theorem render_eq_cons (segs : List (List Char)) : ∃ s, render segs = '/' :: s := by
  cases segs with
  | nil => exact ⟨[], rfl⟩
  | cons cs segs => exact ⟨_, rfl⟩

theorem render_concat (segs : List (List Char)) (s : List Char) :
    render (segs ++ [s]) = segs.flatMap ('/' :: ·) ++ '/' :: s := by
  cases segs <;> simp [render]

theorem mem_render {segs : List (List Char)} {c : Char} (h : c ∈ render segs) :
    c = '/' ∨ ∃ cs ∈ segs, c ∈ cs := by
  cases segs with
  | nil => exact .inl (List.mem_singleton.mp h)
  | cons cs segs =>
    obtain ⟨ds, hds, hc⟩ := List.mem_flatMap.mp h
    rcases List.mem_cons.mp hc with rfl | hc
    · exact .inl rfl
    · exact .inr ⟨ds, hds, hc⟩

theorem not_mem_render {segs : List (List Char)} {c : Char} (hc : c ≠ '/')
    (h : ∀ cs ∈ segs, c ∉ cs) : c ∉ render segs := fun hmem => by
  rcases mem_render hmem with he | ⟨cs, hcs, hin⟩
  · exact hc he
  · exact h cs hcs hin

theorem runs_render {segs : List (List Char)} (h : ∀ cs ∈ segs, Clean cs) :
    runs '/' (render segs) = segs := by
  have hpieces : ∀ {segs : List (List Char)} {p : List Char}, '/' ∉ p →
      (∀ cs ∈ segs, Clean cs) → pieces '/' (p ++ segs.flatMap ('/' :: ·)) = p :: segs := by
    intro segs
    induction segs with
    | nil =>
      intro p hp _
      rw [List.flatMap_nil, List.append_nil, pieces_of_not_mem hp]
    | cons cs segs ih =>
      intro p hp h
      obtain ⟨hcs, hsegs⟩ := List.forall_mem_cons.mp h
      rw [List.flatMap_cons, List.cons_append, pieces_append_cons hp, ih hcs.slash hsegs]
  cases segs with
  | nil => rfl
  | cons cs segs =>
    have hcut := hpieces (p := []) List.not_mem_nil h
    rw [List.nil_append] at hcut
    rw [runs, render, hcut, List.filter_cons_of_neg (by simp)]
    exact List.filter_eq_self.mpr fun ds hds => by simpa using (h ds hds).ne_nil

theorem resource_slash_cons (s : List Char) :
    resource ('/' :: s) = '/' :: dropTrailing isBlank (upTo '#' (upTo '?' s)) := by
  have hquery : upTo '?' ('/' :: s) = '/' :: upTo '?' s := List.takeWhile_cons_of_pos (by decide)
  have hfragment : upTo '#' ('/' :: upTo '?' s) = '/' :: upTo '#' (upTo '?' s) :=
    List.takeWhile_cons_of_pos (by decide)
  rw [resource, hquery, hfragment, trimChars_cons (by decide)]
  rfl

/-- All that is cut off a path that starts with a slash and has no query and no fragment are the
blanks at its end. -/
theorem resource_of_slash {s : List Char} (hquery : '?' ∉ s) (hfragment : '#' ∉ s)
    (hslash : ∃ s', s = '/' :: s') : resource s = dropTrailing isBlank s := by
  obtain ⟨s', rfl⟩ := hslash
  have hmem : ∀ c, c ∉ '/' :: s' → c ∉ s' := fun c h hc => h (List.mem_cons_of_mem _ hc)
  rw [resource_slash_cons, upTo_eq_self (hmem '?' hquery), upTo_eq_self (hmem '#' hfragment),
    dropTrailing_cons (by decide)]

theorem resource_render {segs : List (List Char)} (h : ∀ cs ∈ segs, Clean cs) :
    resource (render segs) = dropTrailing isBlank (render segs) :=
  resource_of_slash (not_mem_render (by decide) fun cs hcs => (h cs hcs).query)
    (not_mem_render (by decide) fun cs hcs => (h cs hcs).fragment) (render_eq_cons segs)

/-- **Written segments are read back**, if no blank ends the text. -/
theorem segmentChars_render {segs : List (List Char)} (h : ∀ cs ∈ segs, Clean cs)
    (hblank : ∀ c, (render segs).getLast? = some c → isBlank c = false) :
    segmentChars (render segs) = segs := by
  rw [segmentChars, resource_render h, dropTrailing_eq_self hblank, runs_render h]

/-- In any case they are read back up to the blanks that end the last one.  If that is all blank,
it is lost. -/
theorem segmentChars_render_concat {segs : List (List Char)} {s : List Char}
    (h : ∀ cs ∈ segs ++ [s], Clean cs) :
    segmentChars (render (segs ++ [s])) =
      segs ++ [dropTrailing isBlank s].filter fun p => !p.isEmpty := by
  have hs : '/' ∉ dropTrailing isBlank s := fun hc =>
    (h s (List.mem_append_right _ List.mem_cons_self)).slash (mem_of_mem_dropTrailing hc)
  have hfront : runs '/' (segs.flatMap ('/' :: ·)) = segs := by
    cases segs with
    | nil => rfl
    | cons cs segs => exact runs_render fun ds hds => h ds (List.mem_append_left _ hds)
  rw [segmentChars, resource_render h, render_concat, dropTrailing_append_cons (by decide), runs,
    pieces_append_sep, List.filter_append, pieces_of_not_mem hs, ← runs, hfront]

theorem normalize_join {base child : String}
    (hblank : ∀ c, (join base child).toList.getLast? = some c → isBlank c = false) :
    normalize (join base child) = join base child := by
  have hclean : ∀ cs ∈ segmentChars base.toList ++ segmentChars child.toList, Clean cs := by
    intro cs hcs
    rcases List.mem_append.mp hcs with hcs | hcs <;> exact clean_of_mem_segmentChars hcs
  rw [join, String.toList_ofList] at hblank
  rw [normalize, join, String.toList_ofList, segmentChars_render hclean hblank]

/-! ## Reading a canonical form -/

/-- Whether a blank ends a text. -/
def HasTrailingBlank (s : String) : Prop :=
  ∃ c ∈ s.toList.getLast?, isBlank c = true

instance : DecidablePred HasTrailingBlank := fun s =>
  decidable_of_iff (s.toList.getLast?.any isBlank = true) (Option.any_eq_true _ _)

/-- A text without the blanks at its end. -/
def trimEnd (s : String) : String :=
  String.ofList (dropTrailing isBlank s.toList)

/-- Segments without the blanks that end the last one, and without the last one if it is all
blank. -/
def trimLast (segs : List String) : List String :=
  segs.dropLast ++ (segs.getLast?.map trimEnd).toList.filter fun s => !s.isEmpty

@[simp] theorem trimLast_concat (front : List String) (s : String) :
    trimLast (front ++ [s]) = front ++ [trimEnd s].filter fun s => !s.isEmpty := by
  rw [trimLast, List.dropLast_concat, List.getLast?_concat]
  rfl

/-- The blanks that end a canonical form are trimmed when it is read. -/
theorem segments_normalize (path : String) :
    segments (normalize path) = trimLast (segments path) := by
  have hclean : ∀ cs ∈ segmentChars path.toList, Clean cs := fun _ => clean_of_mem_segmentChars
  rw [segments, normalize, String.toList_ofList, segments]
  rcases List.eq_nil_or_concat' (segmentChars path.toList) with hnil | ⟨front, s, hs⟩
  · rw [hnil]
    rfl
  · rw [hs] at hclean ⊢
    rw [segmentChars_render_concat hclean, List.map_append, List.map_append, List.map_singleton,
      trimLast_concat, trimEnd, String.toList_ofList]
    by_cases hblank : dropTrailing isBlank s = [] <;> simp [hblank]

end RouteAtlas.HttpPath
