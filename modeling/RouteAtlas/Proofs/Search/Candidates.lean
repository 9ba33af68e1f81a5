import RouteAtlas.Proofs.Regex
import RouteAtlas.Proofs.Source.StatementOrder
import RouteAtlas.Proofs.Syntax.Placement
import RouteAtlas.Search.Content

/-!
# Which files a search for candidates finds

Routes are looked for in the files whose text matches one of a few patterns, before any tree is
read.  A file that has routes or hands out a router makes one somewhere, and the patterns find the
call unless something stands between the name of the maker and the parenthesis: they ask for the
one right behind the other, and the grammar does not.
-/

set_option autoImplicit false

namespace RouteAtlas

open Syntax Syntax.Token Search

variable {cs : List Char}

/-! ## Calls in a text -/

/-- The names of what makes routers and apps. -/
def makers : List String :=
  ["Router", "express"]

/-- Whether a name stands at a place of a text, not as the end of a longer one, and is called. -/
def IsCalledAt (cs : List Char) (name : String) (i : Nat) : Prop :=
  name.toList <+: cs.drop i ∧ EndsApart (cs.take i) ∧ CalledAt cs (i + name.toList.length)

/-- Whether a name is called somewhere with something between it and its arguments, or with other
arguments than those in parentheses. -/
def CallsLoosely (cs : List Char) (name : String) : Prop :=
  ∃ i < cs.length, IsCalledAt cs name i ∧ (cs.drop (i + name.toList.length)).head? ≠ some '('

instance (cs : List Char) (name : String) (i : Nat) : Decidable (IsCalledAt cs name i) :=
  inferInstanceAs (Decidable (_ ∧ EndsApart (cs.take i) ∧ _ = true))

instance (cs : List Char) (name : String) : Decidable (CallsLoosely cs name) :=
  inferInstanceAs (Decidable (∃ i < cs.length, _))

theorem exists_cons_of_mem_makers {name : String} (h : name ∈ makers) :
    ∃ c w, name.toList = c :: w ∧ isNamePart c = true ∧ Text.isWordChar c = true := by
  rcases List.mem_pair.mp h with rfl | rfl
  · exact ⟨'R', "outer".toList, rfl, by decide +kernel, by decide +kernel⟩
  · exact ⟨'e', "xpress".toList, rfl, by decide +kernel, by decide +kernel⟩

/-- A maker that is spelled, stands apart and is called. -/
theorem isCalledAt_of_spelled {n : Node} (hname : n.text ∈ makers) (hspelled : n.Spelled cs)
    (hapart : Apart cs n.span.start) (hcalled : CalledAt cs n.span.stop) :
    IsCalledAt cs n.text n.span.start := by
  have hstop := hspelled.stop_eq hcalled.drop_ne_nil
  obtain ⟨c, w, hcw, hc, -⟩ := exists_cons_of_mem_makers hname
  have hdrop : cs.drop n.span.start = c :: (w ++ cs.drop n.span.stop) := by
    rw [← hspelled, hcw, List.cons_append]
  refine ⟨⟨_, hspelled⟩, hapart ?_ ?_, hstop ▸ hcalled⟩
  · rw [hdrop]
    exact List.cons_ne_nil _ _
  · rw [hdrop]
    intro d hd
    cases hd
    exact hc

/-! ## Where containers are made -/

namespace Finding

/-- A new container that stands apart is made by a call of a maker in the text. -/
theorem exists_isCalledAt_of_creates {m : Node} {value : Tree} {kind : ContainerKind}
    (h : Placed cs m value) (hapart : Apart cs m.span.start) (hnew : Creates kind value) :
    ∃ name ∈ makers, ∃ i, IsCalledAt cs name i := by
  have hnamed {callee : Tree} (hcall : value.kind = .call)
      (hcallee : value.child? .callee = some callee) (hk : callee.kind = .identifier)
      (hmaker : callee.text ∈ makers) : ∃ name ∈ makers, ∃ i, IsCalledAt cs name i := by
    obtain ⟨c, hc, hl, hplaced⟩ := h.of_child? (by decide) hcallee
    obtain ⟨hstart, hcalled⟩ := h.1.callee (h.kind_eq ▸ hcall) hc hl
    rw [hplaced.text_eq] at hmaker
    exact ⟨c.text, hmaker, c.span.start, isCalledAt_of_spelled hmaker
      (hplaced.1.spelled (hplaced.kind_eq ▸ hk)) (hstart ▸ hapart) hcalled⟩
  cases hnew with
  | router hcall hcallee hname htext =>
    exact hnamed hcall hcallee hname (by rw [htext]; decide)
  | app hcall hcallee hname htext =>
    exact hnamed hcall hcallee hname (by rw [htext]; decide)
  | memberRouter hcall hcallee hmember hproperty htext =>
    obtain ⟨c, hc, hl, hcallee⟩ := h.of_child? (by decide) hcallee
    obtain ⟨_, hcalled⟩ := h.1.callee (h.kind_eq ▸ hcall) hc hl
    obtain ⟨p, hp, hl, hproperty⟩ := hcallee.of_child? (by decide) hproperty
    obtain ⟨hspelled, hstop, hapart⟩ := hcallee.1.property (hcallee.kind_eq ▸ hmember) hp hl
    have hmaker : p.text ∈ makers := by
      rw [← hproperty.text_eq, htext]
      decide
    exact ⟨p.text, hmaker, p.span.start,
      isCalledAt_of_spelled hmaker hspelled hapart (hstop ▸ hcalled)⟩

theorem Binds.kind_cases {kind : ContainerKind} {name : String} {n : Tree}
    (h : Binds kind name n) : n.kind = .declarator ∨ n.kind = .assignment := by
  cases h with
  | declarator hkind => exact .inl hkind
  | assignment hkind => exact .inr hkind

/-- A name that is bound to a new container in the tree of a text is bound by a call of a maker
there. -/
theorem exists_isCalledAt_of_container {language : Language} {text name : String}
    {kind : ContainerKind} (h : container kind name ∈ ofTree (tree language text)) :
    ∃ name ∈ makers, ∃ i, IsCalledAt text.toList name i := by
  obtain ⟨n, hn, h⟩ := mem_ofTree_iff.mp h
  have hbinds := container_mem_ofNode_iff.mp h
  have hkind : n.kind ≠ .program ∧ n.kind ≠ .comment := by
    rcases hbinds.kind_cases with hk | hk <;> rw [hk] <;> decide
  obtain ⟨m, hm⟩ := placed_of_within_tree hn hkind.1 hkind.2
  cases hbinds with
  | declarator hkind htarget hname hvalue hnew =>
    obtain ⟨c, hc, hl, hplaced⟩ := hm.of_child? (by decide) hvalue
    obtain ⟨d, hd, hapart⟩ := hplaced.unwrapped (hm.1.value (hm.kind_eq ▸ hkind) hc hl)
    exact exists_isCalledAt_of_creates hd hapart hnew
  | assignment hkind hleft hname hright hnew =>
    obtain ⟨c, hc, hl, hplaced⟩ := hm.of_child? (by decide) hright
    obtain ⟨d, hd, hapart⟩ := hplaced.unwrapped (hm.1.right (hm.kind_eq ▸ hkind) hc hl)
    exact exists_isCalledAt_of_creates hd hapart hnew

end Finding

/-- Facts that are not empty are about some container. -/
theorem FileRoutes.exists_container_of_isEmpty_eq_false {t : FileTree} {root path : FilePath}
    {fs : List Finding} {cache : Alias.Cache}
    (h : (ofFindings t root path fs cache).1.isEmpty = false) :
    ∃ kind name, Finding.container kind name ∈ fs := by
  rcases Bool.and_eq_false_iff.mp h with hcontainers | hexports
  · obtain ⟨name, hname⟩ := SortedMap.exists_mem_keys_of_isEmpty_eq_false hcontainers
    obtain ⟨-, kind, hkind⟩ := mem_keys_containers_iff.mp hname
    exact ⟨kind, name, hkind⟩
  · rw [Bool.not_eq_false'] at hexports
    obtain ⟨name, -, hname⟩ := exportsRouter_eq_true_iff.mp hexports
    exact ⟨.router, name, hname⟩

/-! ## The patterns -/

namespace Search

/-- What is looked for to find a maker: its name behind an edge of a word, and the parenthesis. -/
def makerPattern (name : String) : Regex :=
  Regex.behindEdge (name.toList ++ ['('])

/-- Each maker has a pattern. -/
theorem exists_needles (root : FilePath) (exclude : List String) (budget : Nat) :
    ∃ needles, Needle.ofQuery? (.routeCandidates root exclude budget) = some needles ∧
      ∀ name ∈ makers, .pattern (makerPattern name) ∈ needles := by
  have hqualified : (Regex.parse? "express\\.Router\\(").isSome = true := by decide +kernel
  have hmethod : (Regex.parse?
      "\\.(use|route|all|get|post|put|delete|patch|options|head)\\(").isSome = true := by
    decide +kernel
  have hrouter : Regex.parse? "\\bRouter\\(" = some (makerPattern "Router") := by
    decide +kernel
  have happ : Regex.parse? "\\bexpress\\(" = some (makerPattern "express") := by
    decide +kernel
  obtain ⟨qualified, hqualified⟩ := Option.isSome_iff_exists.mp hqualified
  obtain ⟨method, hmethod⟩ := Option.isSome_iff_exists.mp hmethod
  refine ⟨[.pattern qualified, .pattern (makerPattern "Router"),
    .pattern (makerPattern "express"), .pattern method], ?_, ?_⟩
  · simp [Needle.ofQuery?, Query.routeCandidates, routeCandidatePatterns, hqualified, hrouter,
      happ, hmethod]
  · simp [makers]

theorem anyIn_of_mem {needles : List Needle} {r : Regex} {text : String}
    (h : .pattern r ∈ needles) (hin : r.isIn text.toList = true) :
    Needle.anyIn needles text = true :=
  List.any_eq_true.mpr ⟨_, h, hin⟩

/-- The pattern of a maker finds where it is called with the parenthesis right behind its name. -/
theorem isIn_of_isCalledAt {name : String} {i : Nat} (hname : name ∈ makers)
    (h : IsCalledAt cs name i) (hnext : (cs.drop (i + name.toList.length)).head? = some '(') :
    (makerPattern name).isIn cs = true := by
  obtain ⟨⟨after, hafter⟩, hapart, -⟩ := h
  obtain ⟨c, w, hcw, -, hc⟩ := exists_cons_of_mem_makers hname
  have hbehind : after = cs.drop (i + name.toList.length) := by
    rw [← List.drop_drop, ← hafter, List.drop_left]
  obtain ⟨rest, hrest⟩ := List.head?_eq_some_iff.mp hnext
  have hcs : cs = cs.take i ++ (c :: (w ++ ['(']) ++ rest) := by
    conv => lhs; rw [← List.take_append_drop i cs, ← hafter, hcw, hbehind, hrest]
    simp
  rw [makerPattern, hcs, hcw]
  exact Regex.isIn_behindEdge hc hapart

end Search

/-- **A text with route facts is a candidate** when it calls the makers of its containers with the
parenthesis right behind the name.  So the search passes over a file that says something about
routes only where one of the two names is called loosely. -/
theorem candidate_of_ofText {files : FileTree} {root path : FilePath} {text : String}
    {cache : Alias.Cache} {found : FileRoutes × Alias.Cache}
    (h : FileRoutes.ofText files root path text cache = .ok found)
    (hfacts : found.1.isEmpty = false) (htight : ∀ name ∈ makers, ¬ CallsLoosely text.toList name)
    (dir : FilePath) (exclude : List String) (budget : Nat) :
    ∃ needles, Needle.ofQuery? (.routeCandidates dir exclude budget) = some needles ∧
      Needle.anyIn needles text = true := by
  cases hlanguage : languageOf path with
  | error e =>
    rw [FileRoutes.ofText, hlanguage] at h
    cases h
  | ok language =>
    rw [FileRoutes.ofText, hlanguage] at h
    have hof : FileRoutes.ofFindings files root path (Finding.ofTree (tree language text)) cache =
        found :=
      Except.ok.inj h
    rw [← hof] at hfacts
    obtain ⟨kind, bound, hbound⟩ := FileRoutes.exists_container_of_isEmpty_eq_false hfacts
    obtain ⟨name, hname, i, hcalled⟩ := Finding.exists_isCalledAt_of_container hbound
    obtain ⟨needles, hneedles, hmakers⟩ := exists_needles dir exclude budget
    refine ⟨needles, hneedles, anyIn_of_mem (hmakers name hname) ?_⟩
    apply isIn_of_isCalledAt hname hcalled
    by_contra hnext
    have hlt : i < text.toList.length := by
      have hpos := List.length_pos_iff.mpr hcalled.2.2.drop_ne_nil
      rw [List.length_drop] at hpos
      omega
    exact htight name hname ⟨i, hlt, hcalled, hnext⟩

/-- A module that makes a router and hands it out. -/
def madeTightly : String :=
  "const router = Router();\nmodule.exports = router;\n"

/-- The same with a blank in front of the parenthesis. -/
def madeLoosely : String :=
  "const router = Router ();\nmodule.exports = router;\n"

/-- The facts of a text that is taken to be in a script. -/
def factsOfScript (text : String) : FileRoutes × Alias.Cache :=
  FileRoutes.ofFindings .empty ⟨"/r"⟩ ⟨"/r/a.js"⟩ (Finding.ofTree (tree .typed text)) .empty

theorem ofText_script (text : String) :
    FileRoutes.ofText .empty ⟨"/r"⟩ ⟨"/r/a.js"⟩ text .empty = .ok (factsOfScript text) :=
  rfl

/-- A router that is made without a blank is found. -/
theorem candidate_of_ofText_madeTightly :
    FileRoutes.ofText .empty ⟨"/r"⟩ ⟨"/r/a.js"⟩ madeTightly .empty =
        .ok (factsOfScript madeTightly) ∧
      (factsOfScript madeTightly).1.isEmpty = false ∧
      (∀ name ∈ makers, ¬ CallsLoosely madeTightly.toList name) ∧
      ∃ needles, Needle.ofQuery? (.routeCandidates ⟨"/r"⟩ [] 1) = some needles ∧
        Needle.anyIn needles madeTightly = true := by
  have hfacts : (factsOfScript madeTightly).1.isEmpty = false := by decide +kernel
  have htight : ∀ name ∈ makers, ¬ CallsLoosely madeTightly.toList name := by decide +kernel
  exact ⟨ofText_script madeTightly, hfacts, htight,
    candidate_of_ofText (ofText_script madeTightly) hfacts htight ⟨"/r"⟩ [] 1⟩

/-- A blank is enough to hide a router from the search: the module has facts and is no candidate. -/
theorem blank_hides_router :
    FileRoutes.ofText .empty ⟨"/r"⟩ ⟨"/r/a.js"⟩ madeLoosely .empty =
        .ok (factsOfScript madeLoosely) ∧
      (factsOfScript madeLoosely).1.isEmpty = false ∧
      ∃ needles, Needle.ofQuery? (.routeCandidates ⟨"/r"⟩ [] 1) = some needles ∧
        Needle.anyIn needles madeLoosely = false := by
  refine ⟨ofText_script madeLoosely, by decide +kernel, ?_⟩
  have hmissed : (Needle.ofQuery? (.routeCandidates ⟨"/r"⟩ [] 1)).map
      (Needle.anyIn · madeLoosely) = some false := by
    decide +kernel
  exact Option.map_eq_some_iff.mp hmissed

end RouteAtlas
