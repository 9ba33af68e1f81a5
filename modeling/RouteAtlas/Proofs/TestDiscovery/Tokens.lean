import RouteAtlas.Proofs.HttpPath
import RouteAtlas.Proofs.Places
import RouteAtlas.Proofs.Search.Needles
import RouteAtlas.Proofs.Trie.Pattern
import RouteAtlas.TestDiscovery

/-!
# The texts that a route is mentioned by

A test asks for a path and not for a route, so the route itself is often in no test.  What a path
has in common with a route that takes it is how both begin: up to the first parameter, or, where a
splat comes before any parameter, up to the splat (`common_cases`).  Both beginnings are tokens of
the route.  They are of use if there is something in them, which is so when the route begins with a
literal; then **the tokens find every path that the route takes, in every text**
(`tokens_find_taken_path`).
-/

set_option autoImplicit false

namespace RouteAtlas.TestDiscovery

open HttpPath RouteTrie Search

/-! ## Where tokens end -/

/-- Segments with a slash before each. -/
def written (segs : List String) : List Char :=
  segs.flatMap fun s => '/' :: s.toList

@[simp] theorem written_nil : written [] = [] := rfl

@[simp] theorem written_cons (s : String) (segs : List String) :
    written (s :: segs) = '/' :: s.toList ++ written segs := rfl

theorem written_append (segs segs' : List String) :
    written (segs ++ segs') = written segs ++ written segs' := List.flatMap_append

theorem render_eq_written {segs : List String} (h : segs ≠ []) :
    render (segs.map String.toList) = written segs := by
  cases segs with
  | nil => exact absurd rfl h
  | cons s segs => exact List.flatMap_map String.toList ('/' :: ·) (s :: segs)

theorem beforeParameter_append {cs : List Char} (h : '/' ∉ cs) (rest : List Char) :
    beforeParameter (cs ++ rest) = (beforeParameter rest).map (cs ++ ·) := by
  induction cs with
  | nil => exact Option.map_id'.symm
  | cons c cs ih =>
    obtain ⟨hc, hcs⟩ := not_or.mp (mt List.mem_cons.mpr h)
    rw [List.cons_append, beforeParameter.eq_2 _ _ fun _ hslash _ => hc hslash.symm, ih hcs,
      Option.map_map]
    rfl

theorem beforeParameter_param {s : String} (h : SegmentKind.ofSegment s = .param)
    (rest : List Char) : beforeParameter ('/' :: s.toList ++ rest) = some [] := by
  unfold SegmentKind.ofSegment at h
  split at h
  · rename_i hs
    rw [hs]
    rfl
  · cases h
  · cases h

/-- What comes before the first parameter goes on through a literal. -/
theorem beforeParameter_literal {s : String} (hs : Clean s.toList)
    (h : SegmentKind.ofSegment s = .literal) (rest : List Char) :
    beforeParameter ('/' :: s.toList ++ rest) =
      (beforeParameter rest).map ('/' :: s.toList ++ ·) := by
  have hcolon : ∀ tail, s.toList ++ rest ≠ ':' :: tail := by
    intro tail htail
    obtain ⟨c, cs, hcs⟩ := List.exists_cons_of_ne_nil hs.ne_nil
    rw [hcs, List.cons_append] at htail
    rw [SegmentKind.ofSegment, hcs, (List.cons.inj htail).1] at h
    cases h
  rw [List.cons_append, beforeParameter.eq_2 _ _ fun tail _ htail => hcolon tail htail,
    beforeParameter_append hs.slash, Option.map_map]
  rfl

theorem aboveLast_concat {segs : List String} {s : String} (hs : Clean s.toList)
    (hne : written segs ≠ []) : aboveLast (written (segs ++ [s])) = some (written segs) := by
  have hdrop : ((written (segs ++ [s])).reverse.dropWhile (· ≠ '/')).drop 1 =
      (written segs).reverse := by
    rw [written_append, written_cons, written_nil, List.append_nil, List.reverse_append,
      List.reverse_cons, List.append_assoc, List.dropWhile_append_of_pos fun c hc => by
        rw [decide_eq_true_eq]
        rintro rfl
        exact hs.slash (List.mem_reverse.mp hc)]
    rfl
  rw [aboveLast, hdrop, List.reverse_reverse]
  exact if_neg (by simpa using hne)

/-- **What a route has in common with a path that it takes**: all of it, or what comes before its
first parameter, or all but the splat at its end. -/
theorem common_cases {p q : List String} (h : Covers p q) (hp : ∀ s ∈ p, Clean s.toList) :
    p = q ∨ (∃ front, beforeParameter (written p) = some front ∧ front <+: written q) ∨
      ∃ front s, p = front ++ [s] ∧ front <+: q := by
  induction h with
  | nil => exact .inl rfl
  | @literal s p q hk _ ih =>
    obtain ⟨hs, hp⟩ := List.forall_mem_cons.mp hp
    rcases ih hp with rfl | ⟨front, hfront, hprefix⟩ | ⟨front, l, rfl, hprefix⟩
    · exact .inl rfl
    · refine .inr (.inl ⟨'/' :: s.toList ++ front, ?_, ?_⟩)
      · rw [written_cons, beforeParameter_literal hs hk, hfront]
        rfl
      · rw [written_cons]
        exact (List.prefix_append_right_inj _).mpr hprefix
    · exact .inr (.inr ⟨s :: front, l, rfl, List.cons_prefix_cons.mpr ⟨rfl, hprefix⟩⟩)
  | @param n s p q hk _ _ =>
    exact .inr (.inl ⟨[], beforeParameter_param hk _, List.nil_prefix⟩)
  | @splat n s q hk => exact .inr (.inr ⟨[], n, rfl, List.nil_prefix⟩)

/-! ## Tokens -/

section Tokens

variable {route : String} {cs : List Char}

theorem mem_tokens_iff :
    String.ofList cs ∈ tokens route ↔
      1 < (String.ofList cs).utf8ByteSize ∧
        (cs = (normalize route).toList ∨
          (∃ front, beforeParameter (normalize route).toList = some front ∧
            (cs = front ++ ['/'] ∨ cs = front)) ∨
          ∃ above, aboveLast (normalize route).toList = some above ∧
            (cs = above ∨ cs = above ++ ['/'])) := by
  unfold tokens
  dsimp only
  rw [List.mem_eraseDups, List.mem_filter, decide_eq_true_eq, and_comm,
    List.mem_map_of_injective fun _ _ => String.ofList_inj.mp, List.cons_append, List.mem_cons,
    List.mem_append]
  refine and_congr_right fun _ => or_congr_right (or_congr ?_ ?_)
  · cases beforeParameter (normalize route).toList <;> simp
  · cases aboveLast (normalize route).toList <;> simp

/-- A literal at the beginning makes a token longer than its slash. -/
theorem one_lt_utf8ByteSize {s : String} (hs : Clean s.toList) (rest : List Char) :
    1 < (String.ofList ('/' :: s.toList ++ rest)).utf8ByteSize := by
  obtain ⟨c, cs, hcs⟩ := List.exists_cons_of_ne_nil hs.ne_nil
  rw [hcs, List.cons_append, List.cons_append, String.ofList_cons, String.utf8ByteSize_append,
    String.ofList_cons, String.utf8ByteSize_append, String.utf8ByteSize_singleton,
    String.utf8ByteSize_singleton]
  have hslash := Char.utf8Size_pos '/'
  have hc := c.utf8Size_pos
  omega

theorem clean_of_mem_segments {s : String} (h : s ∈ segments route) : Clean s.toList := by
  obtain ⟨cs, hcs, rfl⟩ := List.mem_map.mp h
  rw [String.toList_ofList]
  exact clean_of_mem_segmentChars hcs

theorem toList_normalize (route : String) :
    (normalize route).toList = render ((segments route).map String.toList) := by
  rw [HttpPath.normalize, String.toList_ofList, segments, List.map_map]
  exact congrArg render (List.map_id'' (fun _ => String.toList_ofList) _).symm

/-- A path that a route takes begins with a token of the route, if the route begins with a
literal. -/
theorem exists_token_prefix {s : String} {rest values : List String}
    (hroute : segments route = s :: rest) (hs : SegmentKind.ofSegment s = .literal)
    (h : Covers (s :: rest) values) :
    ∃ token ∈ tokens route, token.toList <+: render (values.map String.toList) := by
  obtain ⟨hclean, hrest⟩ := List.forall_mem_cons.mp
    (hroute ▸ fun _ => clean_of_mem_segments : ∀ s' ∈ s :: rest, Clean s'.toList)
  have hform : (normalize route).toList = written (s :: rest) := by
    rw [toList_normalize, hroute, render_eq_written (List.cons_ne_nil s rest)]
  cases h with
  | param hk _ => exact absurd (hs.symm.trans hk) (by decide)
  | splat hk => exact absurd (hs.symm.trans hk) (by decide)
  | @literal _ _ q _ h =>
    rw [render_eq_written (List.cons_ne_nil s q)]
    rcases common_cases h hrest with rfl | ⟨front, hfront, hprefix⟩ | ⟨front, l, rfl, hprefix⟩
    · refine ⟨_, mem_tokens_iff.mpr
        ⟨one_lt_utf8ByteSize hclean (written rest), .inl hform.symm⟩, ?_⟩
      rw [String.toList_ofList]
      exact List.prefix_rfl
    · have hbefore : beforeParameter (normalize route).toList =
          some ('/' :: s.toList ++ front) := by
        rw [hform, written_cons, beforeParameter_literal hclean hs, hfront]
        rfl
      refine ⟨_, mem_tokens_iff.mpr ⟨one_lt_utf8ByteSize hclean front,
        .inr (.inl ⟨_, hbefore, .inr rfl⟩)⟩, ?_⟩
      rw [String.toList_ofList, written_cons]
      exact (List.prefix_append_right_inj _).mpr hprefix
    · have habove : aboveLast (normalize route).toList = some (written (s :: front)) := by
        rw [hform, ← List.cons_append]
        exact aboveLast_concat (hrest l List.mem_concat_self) (List.cons_ne_nil _ _)
      refine ⟨_, mem_tokens_iff.mpr ⟨one_lt_utf8ByteSize hclean (written front),
        .inr (.inr ⟨_, habove, .inl rfl⟩)⟩, ?_⟩
      obtain ⟨back, rfl⟩ := hprefix
      rw [String.toList_ofList, written_cons, written_append, ← List.append_assoc]
      exact List.prefix_append _ _

end Tokens

/-- **The tokens of a route find every path that it takes**, wherever the path stands in a text and
whatever is written for the parameters, if the route begins with a literal.  No token is listed
twice, and none is as short as a lone slash, which would find every path. -/
theorem tokens_find_taken_path (route : String) :
    (tokens route).Nodup ∧ (∀ token ∈ tokens route, 1 < token.utf8ByteSize) ∧
      ∀ (s : String) (rest values : List String), segments route = s :: rest →
        SegmentKind.ofSegment s = .literal → Covers (s :: rest) values →
          ∀ text : String, render (values.map String.toList) <:+: text.toList →
            ∀ q : Query, q.patterns = tokens route → q.mode = .literal →
              ∃ needles, Needle.ofQuery? q = some needles ∧ Needle.anyIn needles text = true := by
  refine ⟨nodup_eraseDups _, fun token htoken => ?_, ?_⟩
  · rw [← String.ofList_toList (s := token)] at htoken ⊢
    exact (mem_tokens_iff.mp htoken).1
  · intro s rest values hroute hs hcovers text htext q hpatterns hmode
    refine ⟨(tokens route).map Needle.ofLiteral, by rw [Needle.ofQuery?, hmode, hpatterns], ?_⟩
    obtain ⟨token, htoken, hbegins⟩ := exists_token_prefix hroute hs hcovers
    have hin : token.toList <:+: text.toList := List.IsInfix.trans hbegins.isInfix htext
    exact Needle.anyIn_iff.mpr ⟨_, List.mem_map_of_mem htoken, Needle.isIn_ofLiteral hin⟩

/-- The route itself is not in this test, and neither is what is above its last segment. -/
def postsTest : String := "await request(app).get('/Users/42/posts?page=2');"

theorem tokens_find_taken_path_posts :
    segments "/Users/:id/posts" = ["Users", ":id", "posts"] ∧
      SegmentKind.ofSegment "Users" = .literal ∧
      Covers ["Users", ":id", "posts"] ["Users", "42", "posts"] ∧
      render (["Users", "42", "posts"].map String.toList) <:+: postsTest.toList ∧
      ∃ needles, Needle.ofQuery? (query ⟨"/r"⟩ ["/Users/:id/posts"] [] 1000) = some needles ∧
        Needle.anyIn needles postsTest = true := by
  have hroute : segments "/Users/:id/posts" = ["Users", ":id", "posts"] := by decide +kernel
  have hcovers : Covers ["Users", ":id", "posts"] ["Users", "42", "posts"] :=
    .literal (by decide) (.param (by decide) (.literal (by decide) .nil))
  have htext : render (["Users", "42", "posts"].map String.toList) <:+: postsTest.toList :=
    Text.occursIn_iff.mp (by decide +kernel)
  exact ⟨hroute, by decide, hcovers, htext,
    (tokens_find_taken_path "/Users/:id/posts").2.2 _ _ _ hroute (by decide) hcovers postsTest
      htext _ (List.append_nil _) rfl⟩

end RouteAtlas.TestDiscovery
