import RouteAtlas.Proofs.Places
import RouteAtlas.Proofs.Source.StatementOrder
import RouteAtlas.Proofs.Syntax.Placement

/-!
# Names mentioned by arguments

What the arguments of a call mention is told by the ways that lead from an argument down to a plain
name or to a `require` on the spot: through the object of an access, through what is called and what
it is given, through lists and wrappers (`EntersAt`).  A way is a list of numbers, so the places it
leads to are ordered as they stand in the text.

The search goes all these ways but one: it does not look behind a type assertion, `<T>x`, though
that is a wrapper like the others.  So the names it lists are those mentioned at a place with no
type assertion around it, each where it is met first, and a name that is only asserted is lost.
-/

set_option autoImplicit false

namespace RouteAtlas

open Syntax Syntax.Token

namespace Syntax.Tree

/-! ## Ways down -/

/-- A list of expressions: what a call is given, an array, what is spread. -/
def isListing : Kind → Bool
  | .arguments | .array | .spread => true
  | _ => false

/-- A step from a node into one of its children, numbered from left to right. -/
inductive EntersAt (e : Tree) : Nat → Tree → Prop
  /-- `e.x` and `e[x]` -/
  | object {t : Tree} (hkind : t.kind = .member ∨ t.kind = .subscript)
      (hobject : t.child? .object = some e) : EntersAt e 0 t
  /-- `e(…)`, which must not be a `require` -/
  | callee {t : Tree} (hkind : t.kind = .call) (hplain : t.requiredModule? = none)
      (hcallee : t.child? .callee = some e) : EntersAt e 0 t
  | given {t : Tree} (hkind : t.kind = .call) (hplain : t.requiredModule? = none)
      (hgiven : t.child? .arguments = some e) : EntersAt e 1 t
  | part {t : Tree} {i : Nat} (hkind : isListing t.kind = true ∨ isWrapper t.kind = true)
      (hpart : t.children[i]? = some e) : EntersAt e i t

/-- A node that a way leads to. -/
inductive LeadsTo (n : Tree) : List Nat → Tree → Prop
  | here : LeadsTo n [] n
  | under {t e : Tree} {i : Nat} {place : List Nat} (hin : e.EntersAt i t)
      (h : LeadsTo n place e) : LeadsTo n (i :: place) t

/-- What a node mentions by itself. -/
def mention? (t : Tree) : Option Mention :=
  if t.kind = .identifier then some (.name t.text) else t.requiredModule?.map .required

/-- A mention at a place in a tree. -/
def MentionsAt (m : Mention) (place : List Nat) (t : Tree) : Prop :=
  ∃ n, LeadsTo n place t ∧ n.mention? = some m

/-- A place to which the way goes through a type assertion. -/
inductive Asserted : List Nat → Tree → Prop
  | here {t : Tree} {i : Nat} {place : List Nat} (hkind : t.kind = .typeAssertion) :
      Asserted (i :: place) t
  | under {t e : Tree} {i : Nat} {place : List Nat} (hin : e.EntersAt i t)
      (h : Asserted place e) : Asserted (i :: place) t

/-- A mention that no type assertion is around. -/
def SeenAt (m : Mention) (place : List Nat) (t : Tree) : Prop :=
  MentionsAt m place t ∧ ¬ Asserted place t

/-- Such a mention in one of several trees, whose number begins the place. -/
def SeenAmong (ts : List Tree) (m : Mention) (place : List Nat) : Prop :=
  ∃ i t rest, place = i :: rest ∧ ts[i]? = some t ∧ SeenAt m rest t

/-- What keeps its names to itself: functions, classes, methods and object literals. -/
def isOpaque (k : Kind) : Bool :=
  isOtherFunction k || k = .method || k = .object

variable {t e : Tree} {i : Nat} {m : Mention} {place : List Nat}

theorem EntersAt.not_isOpaque (h : e.EntersAt i t) : isOpaque t.kind = false := by
  cases h with
  | object hkind => rcases hkind with hkind | hkind <;> (rw [hkind]; rfl)
  | callee hkind | given hkind => rw [hkind]; rfl
  | part hkind =>
    revert hkind
    cases t.kind <;> decide

/-- The only step out of an access goes to its object. -/
theorem EntersAt.eq_object (h : e.EntersAt i t) (hkind : t.kind = .member ∨ t.kind = .subscript) :
    i = 0 ∧ t.child? .object = some e := by
  cases h with
  | object _ hobject => exact ⟨rfl, hobject⟩
  | callee hcall | given hcall => rcases hkind with hkind | hkind <;> cases hkind.symm.trans hcall
  | part hpart =>
    rcases hkind with hkind | hkind <;>
      (rw [hkind] at hpart; rcases hpart with hpart | hpart <;> cases hpart)

theorem mentionsAt_iff :
    MentionsAt m place t ↔ place = [] ∧ t.mention? = some m ∨
      ∃ i e rest, place = i :: rest ∧ e.EntersAt i t ∧ MentionsAt m rest e := by
  constructor
  · rintro ⟨n, hn, hm⟩
    cases hn with
    | here => exact .inl ⟨rfl, hm⟩
    | under hin h => exact .inr ⟨_, _, _, rfl, hin, n, h, hm⟩
  · rintro (⟨rfl, hm⟩ | ⟨i, e, rest, rfl, hin, n, h, hm⟩)
    · exact ⟨t, .here, hm⟩
    · exact ⟨n, .under hin h, hm⟩

/-- A node mentions something by itself only as a plain name or a call. -/
theorem kind_of_mention? (h : t.mention? = some m) : t.kind = .identifier ∨ t.kind = .call := by
  unfold mention? at h
  split at h
  · exact .inl ‹_›
  · obtain ⟨specifier, h, -⟩ := Option.map_eq_some_iff.mp h
    rw [requiredModule?_eq] at h
    split at h
    · exact .inr ‹_›
    · cases h

theorem not_mentionsAt_of_isOpaque (hsealed : isOpaque t.kind = true) : ¬ MentionsAt m place t := by
  intro h
  rcases mentionsAt_iff.mp h with ⟨-, hm⟩ | ⟨i, e, rest, -, hin, -⟩
  · rcases kind_of_mention? hm with hkind | hkind <;> (rw [hkind] at hsealed; cases hsealed)
  · rw [hin.not_isOpaque] at hsealed
    cases hsealed

theorem mentionsAt_object (hkind : t.kind = .member ∨ t.kind = .subscript)
    (h : MentionsAt m place t) :
    ∃ object rest, t.child? .object = some object ∧ place = 0 :: rest ∧
      MentionsAt m rest object := by
  rcases mentionsAt_iff.mp h with ⟨-, hm⟩ | ⟨i, e, rest, rfl, hin, hrest⟩
  · rcases hkind with hkind | hkind <;>
      (rcases kind_of_mention? hm with hm | hm <;> cases hkind.symm.trans hm)
  · obtain ⟨rfl, hobject⟩ := hin.eq_object hkind
    exact ⟨e, rest, hobject, rfl, hrest⟩

/-! ## The ways that are gone -/

/-- The nodes that the search for mentions goes on to, with the numbers of the steps. -/
def ways (t : Tree) : List (Tree × Nat) :=
  if t.kind = .member || t.kind = .subscript then (t.child? .object).toList.map (·, 0)
  else if t.kind = .call then
    if t.requiredModule?.isSome then []
    else (t.child? .callee).toList.map (·, 0) ++ (t.child? .arguments).toList.map (·, 1)
  else if Mention.isTransparent t.kind then t.children.zipIdx
  else []

theorem isTransparent_iff {k : Kind} :
    Mention.isTransparent k = true ↔
      (isListing k = true ∨ isWrapper k = true) ∧ k ≠ .typeAssertion := by
  cases k <;> decide

theorem mem_map_pair_iff {o : Option Tree} {j : Nat} :
    (e, i) ∈ o.toList.map (·, j) ↔ i = j ∧ o = some e := by
  simp [eq_comm, and_comm]

/-- All steps are gone but those out of a type assertion. -/
theorem mem_ways_iff : (e, i) ∈ t.ways ↔ e.EntersAt i t ∧ t.kind ≠ .typeAssertion := by
  constructor
  · intro h
    unfold ways at h
    split at h
    · rename_i hkind
      rw [Bool.or_eq_true, decide_eq_true_eq, decide_eq_true_eq] at hkind
      obtain ⟨rfl, hobject⟩ := mem_map_pair_iff.mp h
      refine ⟨.object hkind hobject, ?_⟩
      rcases hkind with hkind | hkind <;> (rw [hkind]; decide)
    split at h
    · rename_i hkind
      split at h
      · cases h
      rename_i hplain
      have hplain := Option.not_isSome_iff_eq_none.mp hplain
      refine ⟨?_, by rw [hkind]; decide⟩
      rcases List.mem_append.mp h with h | h
      · obtain ⟨rfl, hcallee⟩ := mem_map_pair_iff.mp h
        exact .callee hkind hplain hcallee
      · obtain ⟨rfl, hgiven⟩ := mem_map_pair_iff.mp h
        exact .given hkind hplain hgiven
    split at h
    · rename_i hkind
      obtain ⟨hkind, hassertion⟩ := isTransparent_iff.mp hkind
      exact ⟨.part hkind (List.mk_mem_zipIdx_iff_getElem?.mp h), hassertion⟩
    · cases h
  · rintro ⟨h, hassertion⟩
    unfold ways
    cases h with
    | object hkind hobject =>
      have haccess : (t.kind = .member || t.kind = .subscript) = true := by simpa using hkind
      rw [if_pos haccess]
      exact mem_map_pair_iff.mpr ⟨rfl, hobject⟩
    | callee hkind hplain hcallee =>
      rw [hkind, hplain]
      exact List.mem_append_left _ (mem_map_pair_iff.mpr ⟨rfl, hcallee⟩)
    | given hkind hplain hgiven =>
      rw [hkind, hplain]
      exact List.mem_append_right _ (mem_map_pair_iff.mpr ⟨rfl, hgiven⟩)
    | part hkind hpart =>
      have hmem := List.mk_mem_zipIdx_iff_getElem?.mpr hpart
      have htransparent := isTransparent_iff.mpr ⟨hkind, hassertion⟩
      revert hkind htransparent
      cases t.kind <;> intro hkind htransparent <;>
        first | exact hmem | cases htransparent

theorem pairwise_zipIdx (ts : List Tree) : ts.zipIdx.Pairwise fun w w' => w.2 < w'.2 := by
  rw [← List.pairwise_map (f := Prod.snd) (R := (· < ·)), List.zipIdx_map_snd]
  exact List.pairwise_lt_range' 1

theorem pairwise_ways (t : Tree) : t.ways.Pairwise fun w w' => w.2 < w'.2 := by
  unfold ways
  split
  · cases t.child? .object <;> simp
  split
  · split
    · exact .nil
    · cases t.child? .callee <;> cases t.child? .arguments <;> simp
  split
  · exact pairwise_zipIdx _
  · exact .nil

/-- The number of a step tells where it goes. -/
theorem eq_of_mem_ways {e' : Tree} (h : (e, i) ∈ t.ways) (h' : (e', i) ∈ t.ways) : e = e' := by
  have hnodup : (t.ways.map Prod.snd).Nodup :=
    List.pairwise_map.mpr ((pairwise_ways t).imp Nat.ne_of_lt)
  exact congrArg Prod.fst (List.inj_on_of_nodup_map hnodup h h' rfl)

theorem sizeOf_lt_of_mem_ways (h : (e, i) ∈ t.ways) : sizeOf e < sizeOf t := by
  cases (mem_ways_iff.mp h).1 with
  | object _ hchild | callee _ _ hchild | given _ _ hchild => exact sizeOf_lt_of_child? hchild
  | part _ hpart => exact sizeOf_lt_of_mem (List.mem_of_getElem? hpart)

theorem seenAt_iff :
    SeenAt m place t ↔ place = [] ∧ t.mention? = some m ∨
      ∃ e i rest, place = i :: rest ∧ (e, i) ∈ t.ways ∧ SeenAt m rest e := by
  constructor
  · rintro ⟨hm, hopen⟩
    obtain h | ⟨i, e, rest, rfl, hin, hm⟩ := mentionsAt_iff.mp hm
    · exact .inl h
    · have hassertion : t.kind ≠ .typeAssertion := fun hkind => hopen (.here hkind)
      exact .inr ⟨e, i, rest, rfl, mem_ways_iff.mpr ⟨hin, hassertion⟩, hm,
        fun h => hopen (.under hin h)⟩
  · rintro (⟨rfl, hm⟩ | ⟨e, i, rest, rfl, hway, hm, hopen⟩)
    · exact ⟨mentionsAt_iff.mpr (.inl ⟨rfl, hm⟩), nofun⟩
    · obtain ⟨hin, hassertion⟩ := mem_ways_iff.mp hway
      refine ⟨mentionsAt_iff.mpr (.inr ⟨i, e, rest, rfl, hin, hm⟩), fun h => ?_⟩
      cases h with
      | here hkind => exact hassertion hkind
      | under hin' h =>
        obtain rfl := eq_of_mem_ways hway (mem_ways_iff.mpr ⟨hin', hassertion⟩)
        exact hopen h

end Syntax.Tree

namespace Mention

open Syntax.Tree

/-! ## Lists of mentions -/

theorem flatMap_zipIdx (ts : List Tree) :
    (ts.zipIdx.flatMap fun w => ofTree w.1) = ts.flatMap ofTree := by
  rw [← List.flatMap_map, List.zipIdx_map_fst]

theorem ofTree_eq_ways (t : Tree) :
    ofTree t = t.mention?.toList ++ t.ways.flatMap fun w => ofTree w.1 := by
  have hchild (o : Option Tree) (i : Nat) :
      ((o.toList.map (·, i)).flatMap fun w => ofTree w.1) = o.elim [] ofTree := by
    cases o with
    | none => rfl
    | some e => exact List.append_nil _
  have hnot (h : t.kind ≠ .call) : t.requiredModule? = none := by
    rw [requiredModule?_eq, if_neg h]
  rw [ofTree_eq]
  unfold mention? ways
  split
  · rename_i hkind
    rw [hkind]
    rfl
  split
  · rename_i hkind
    rw [hchild, hnot (by rintro h; rw [h] at hkind; cases hkind)]
    rfl
  split
  · cases t.requiredModule? with
    | none =>
      dsimp only
      rw [if_neg (by decide), List.flatMap_append, hchild, hchild]
      rfl
    | some specifier => rfl
  · rename_i hcall
    rw [hnot hcall]
    split
    · rw [flatMap_zipIdx]
      rfl
    · rfl

/-- The mentions in a tree are listed in the order in which they stand there. -/
theorem listedInOrder_ofTree (t : Tree) :
    ListedInOrder (ofTree t) fun m place => SeenAt m place t := by
  have hways := ListedInOrder.flatMap t.pairwise_ways fun e i hway =>
    have _ := sizeOf_lt_of_mem_ways hway
    listedInOrder_ofTree e
  have hall := (ListedInOrder.here t.mention?).append hways <| by
    rintro _ _ _ _ ⟨rfl, -⟩ ⟨_, _, _, rfl, -⟩
    exact .nil
  rw [ofTree_eq_ways]
  exact hall.congr fun m place => seenAt_iff.symm
termination_by sizeOf t

theorem listedInOrder_ofTrees (given : List Tree) :
    ListedInOrder (ofTrees given) (SeenAmong given) := by
  have hall := ListedInOrder.flatMap (pairwise_zipIdx given) fun t _ _ => listedInOrder_ofTree t
  rw [ofTrees_eq_flatMap, ← flatMap_zipIdx]
  refine hall.congr fun m place => ?_
  unfold SeenAmong
  simp only [List.mk_mem_zipIdx_iff_getElem?]
  exact ⟨fun ⟨t, i, rest, h⟩ => ⟨i, t, rest, h⟩, fun ⟨i, t, rest, h⟩ => ⟨t, i, rest, h⟩⟩

/-! ## Names made for modules -/

/-- Of a name made for a module only the beginning would be read as a word. -/
theorem not_isWord_requiredName (specifier : String) : ¬ IsWord (requiredName specifier) := by
  rintro ⟨rest, h⟩
  have hname : (requiredName specifier).toList =
      'r' :: "equire".toList ++ '(' :: '\'' :: (specifier.toList ++ ['\'', ')']) := by
    unfold requiredName
    rw [String.toList_append, String.toList_append, List.append_assoc]
    rfl
  have hparts : ∀ d ∈ "equire".toList, isNamePart d = true := List.all_eq_true.mp rfl
  have hlength := congrArg Prod.snd h
  rw [hname, List.append_assoc, lexeme_append (by decide) hparts, List.length_append] at hlength
  have hstop (cs : List Char) : nameLength false ('(' :: cs) = 0 := rfl
  rw [List.cons_append, hstop] at hlength
  simp only [List.length_cons] at hlength
  omega

/-! ## Names of what is mentioned -/

/-- The name of what is mentioned at a place in one of several trees. -/
def NamedAmong (ts : List Tree) (name : String) (place : List Nat) : Prop :=
  ∃ m, m.label = name ∧ SeenAmong ts m place

/-- What the names and the modules that are listed for the arguments of a call tell of them. -/
structure ListsMentions (given : List Tree) (names modules : List String) : Prop where
  nodup : names.Nodup
  /-- Each name stands where it is met first. -/
  inOrder : names.Pairwise (Precedes (NamedAmong given))
  mem_iff : ∀ name, name ∈ names ↔ ∃ place, NamedAmong given name place
  /-- There is a module for each `require` on the spot. -/
  required : ListedInOrder modules fun s => SeenAmong given (.required s)
  named : ∀ s ∈ modules, requiredName s ∈ names

theorem listsMentions (given : List Tree) :
    ListsMentions given (names (ofTrees given)) (requirements (ofTrees given)) := by
  have hmentions := listedInOrder_ofTrees given
  have hnames : ListedInOrder ((ofTrees given).map label) (NamedAmong given) := by
    rw [← List.filterMap_eq_map]
    exact (hmentions.filterMap (some ∘ label)).congr fun name place =>
      exists_congr fun m => and_congr_left' Option.some_inj
  have hmodules : ListedInOrder (requirements (ofTrees given))
      fun s => SeenAmong given (.required s) := by
    refine (hmentions.filterMap required?).congr fun s place => ?_
    constructor
    · rintro ⟨_ | s, hs, hseen⟩ <;> cases hs
      exact hseen
    · exact fun hseen => ⟨.required s, rfl, hseen⟩
  have hmem (name : String) : name ∈ names (ofTrees given) ↔ ∃ place, NamedAmong given name place :=
    List.mem_eraseDups.trans hnames.mem_iff
  refine ⟨nodup_eraseDups _, hnames.pairwise_precedes, hmem, hmodules, fun s hs => ?_⟩
  obtain ⟨place, hs⟩ := hmodules.mem_iff.mp hs
  exact (hmem _).mpr ⟨place, _, rfl, hs⟩

/-- The names listed for the arguments of a call are those that are mentioned at a place with no
type assertion around it, each once and where it is met first.  The names made for modules are among
them, tell the modules, and are no words, as every plain name in a program is.  Nothing is mentioned
by a function, a class or an object literal, nor by an access elsewhere than in its object. -/
theorem lists_mentioned_names (given : List Tree) :
    ListsMentions given (names (ofTrees given)) (requirements (ofTrees given)) ∧
      (∀ s s', s ≠ s' → requiredName s ≠ requiredName s') ∧
      (∀ s, ¬ IsWord (requiredName s)) ∧
      (∀ language text (n : Tree), n.Within (tree language text) → n.kind = .identifier →
        IsWord n.text) ∧
      (∀ m place t, isOpaque t.kind = true → ¬ MentionsAt m place t) ∧
      ∀ m place t, t.kind = .member ∨ t.kind = .subscript → MentionsAt m place t →
        ∃ object rest, t.child? .object = some object ∧ place = 0 :: rest ∧
          MentionsAt m rest object :=
  ⟨listsMentions given, fun _ _ => mt Finding.requiredName_injective, not_isWord_requiredName,
    fun _ _ _ => isWord_of_within_tree, fun _ _ _ => not_mentionsAt_of_isOpaque,
    fun _ _ _ => mentionsAt_object⟩

/-- The argument `auth.required`. -/
def authRequired : Tree :=
  .node .member .plain "" [.node .identifier .object "auth" [],
    .node .propertyName .property "required" []]

/-- The arguments `auth.required`, `[limiter, auth]` and `require('./users')`. -/
def guardedUsers : List Tree :=
  [authRequired,
    .node .array .plain "" [.node .identifier .plain "limiter" [],
      .node .identifier .plain "auth" []],
    .node .call .plain "" [.node .identifier .callee "require" [],
      .node .arguments .arguments "" [.node .string .plain "'./users'" []]]]

/-- The handler `() => users`. -/
def usersHandler : Tree :=
  .node .arrowFunction .plain "" [.node .identifier .body "users" []]

theorem lists_mentioned_names_guardedUsers :
    ListsMentions guardedUsers ["auth", "limiter", "require('./users')"] ["./users"] ∧
      requiredName "./users" ≠ requiredName "./items" ∧ IsWord "auth" ∧
      ¬ MentionsAt (.name "users") [0] usersHandler ∧
      ∃ object rest, authRequired.child? .object = some object ∧ [0] = 0 :: rest ∧
        MentionsAt (.name "auth") rest object := by
  obtain ⟨hlists, hdistinct, -, hword, hsealed, hobject⟩ := lists_mentioned_names guardedUsers
  have hauth : tree .typed "auth" =
      .node .program .plain "" [.node .other .plain "" [.node .identifier .plain "auth" []]] := by
    with_unfolding_all rfl
  have hwithin : (Syntax.Tree.node .identifier .plain "auth" []).Within (tree .typed "auth") := by
    rw [hauth]
    exact .under List.mem_cons_self (.under List.mem_cons_self .here)
  refine ⟨hlists, hdistinct _ _ (by decide), hword _ _ _ hwithin rfl, hsealed _ _ _ rfl,
    hobject _ _ _ (.inl rfl) ?_⟩
  exact ⟨.node .identifier .object "auth" [], .under (.object (.inl rfl) rfl) .here, rfl⟩

/-- The text of such a registration. -/
example :
    Finding.ofTree (tree .typed
        "router.use('/v1', auth.required, [limiter, auth], require('./users'));") =
      [.registered "router" (.mount "/v1" ["auth", "limiter", "require('./users')"]),
        .required "./users"] := by
  decide +kernel

/-- The argument `<any>api`. -/
def assertedApi : Tree :=
  .node .typeAssertion .plain "" [.node .typeArguments .plain "" [],
    .node .identifier .plain "api" []]

/-- A name behind a type assertion is mentioned and not listed, though the wrapper is looked through
where a value is named. -/
theorem asserted_name_lost :
    MentionsAt (.name "api") [1] assertedApi ∧ names (ofTrees [assertedApi]) = [] ∧
      assertedApi.published = ["api"] ∧
      Finding.ofTree (tree .typed "router.use('/v1', <any>api);") =
        [.registered "router" (.mount "/v1" [])] := by
  refine ⟨⟨.node .identifier .plain "api" [], ?_, rfl⟩, by decide, by decide, by decide +kernel⟩
  exact .under (.part (.inr rfl) rfl) .here

end Mention
end RouteAtlas
