import RouteAtlas.Proofs.Alias.Cache
import RouteAtlas.Proofs.SortedMap
import RouteAtlas.Proofs.Source.Nodes
import RouteAtlas.Source.Extraction

/-!
# The order of statements

Nothing that a file says about routes depends on where its statements stand, save the order of the
registrations on one container, which is the order of the statements they are in
(`ofTree_rearranged`).  Findings are collected statement by statement, so a permutation of the
statements permutes them; each part of the facts is then told by what is found and not by when.
Only the imports need more: of several bindings of a name the first that leads to a file counts, so
they depend on the order when a name is bound to two modules.

A container is a name on which something is registered somewhere and to which a new router or app is
bound somewhere; neither has to come first.
-/

set_option autoImplicit false

namespace RouteAtlas

open Syntax

/-! ## Parts of the facts, told by what is found -/

namespace Finding

variable {fs fs' : List Finding}

theorem mem_containers_iff {kind : ContainerKind} {name : String} :
    name ∈ containers kind fs ↔ container kind name ∈ fs := by
  rw [containers, SortedSet.ofList, SortedSet.mem_insertAll]
  constructor
  · rintro (h | h)
    · cases h
    · obtain ⟨f, hf, h⟩ := List.mem_filterMap.mp h
      split at h
      · split at h
        · rename_i hkind
          cases h
          exact hkind ▸ hf
        · cases h
      · cases h
  · intro h
    exact .inr (List.mem_filterMap.mpr ⟨_, h, if_pos rfl⟩)

theorem mem_publishedNames_iff {name : String} :
    name ∈ publishedNames fs ↔ published name ∈ fs := by
  constructor
  · intro h
    obtain ⟨f, hf, h⟩ := List.mem_filterMap.mp h
    split at h
    · cases h
      exact hf
    · cases h
  · exact fun h => List.mem_filterMap.mpr ⟨_, h, rfl⟩

/-- The registrations on one name, in order. -/
def registrationsOn (name : String) (fs : List Finding) : List Registration :=
  fs.filterMap fun
    | registered receiver r => if receiver = name then some r else none
    | _ => none

theorem mem_registrationsOn_iff {name : String} {r : Registration} :
    r ∈ registrationsOn name fs ↔ registered name r ∈ fs := by
  constructor
  · intro h
    obtain ⟨f, hf, h⟩ := List.mem_filterMap.mp h
    split at h
    · split at h
      · rename_i hname
        cases h
        exact hname ▸ hf
      · cases h
    · cases h
  · exact fun h => List.mem_filterMap.mpr ⟨_, h, if_pos rfl⟩

theorem registrationsOn_append (name : String) (fs fs' : List Finding) :
    registrationsOn name (fs ++ fs') = registrationsOn name fs ++ registrationsOn name fs' :=
  List.filterMap_append

theorem registrationsOn_eq_nil_iff {name : String} :
    registrationsOn name fs = [] ↔ ∀ r, registered name r ∉ fs := by
  rw [List.eq_nil_iff_forall_not_mem]
  exact forall_congr' fun r => not_congr mem_registrationsOn_iff

/-- A name is entered with its first registration and gets each further one at the end. -/
theorem get?_registrations (fs : List Finding) (name : String) :
    (registrations fs).get? name =
      if registrationsOn name fs = [] then none else some (registrationsOn name fs) := by
  -- over a map that has entries already, the new ones follow those
  have hfold : ∀ (fs : List Finding) (m : SortedMap (List Registration)),
      (fs.foldl (fun m f =>
        match f with
        | registered receiver r => m.update receiver fun rs => rs.getD [] ++ [r]
        | _ => m) m).get? name =
      if registrationsOn name fs = [] then m.get? name
      else some ((m.get? name).getD [] ++ registrationsOn name fs) := by
    intro fs
    induction fs with
    | nil => exact fun m => (if_pos rfl).symm
    | cons f fs ih =>
      intro m
      rw [List.foldl_cons, ih]
      cases f with
      | registered receiver r =>
        dsimp only
        rw [SortedMap.get?_update]
        by_cases hname : receiver = name
        · have hcons : registrationsOn name (registered receiver r :: fs) =
              r :: registrationsOn name fs := List.filterMap_cons_some (if_pos hname)
          rw [hcons, if_neg (List.cons_ne_nil _ _), if_pos hname.symm, hname]
          split
          · rename_i hnone
            rw [hnone]
          · rw [Option.getD_some, List.append_assoc]
            rfl
        · have hcons : registrationsOn name (registered receiver r :: fs) =
              registrationsOn name fs := List.filterMap_cons_none (if_neg hname)
          rw [hcons, if_neg (Ne.symm hname)]
      | _ => rfl
  exact hfold fs ∅

/-- The names bound by imports, with the modules they are bound to. -/
def importedPairs (fs : List Finding) : List (String × String) :=
  fs.filterMap fun
    | imported name specifier => some (name, specifier)
    | _ => none

/-- The names made for modules required on the spot. -/
def requiredPairs (fs : List Finding) : List (String × String) :=
  fs.filterMap fun
    | required specifier => some (requiredName specifier, specifier)
    | _ => none

theorem mem_importedPairs_iff {name specifier : String} :
    (name, specifier) ∈ importedPairs fs ↔ imported name specifier ∈ fs := by
  constructor
  · intro h
    obtain ⟨f, hf, h⟩ := List.mem_filterMap.mp h
    split at h
    · cases h
      exact hf
    · cases h
  · exact fun h => List.mem_filterMap.mpr ⟨_, h, rfl⟩

theorem requiredName_injective {s s' : String} (h : requiredName s = requiredName s') : s = s' := by
  have hlist := congrArg String.toList h
  unfold requiredName at hlist
  rw [String.toList_append, String.toList_append, String.toList_append, String.toList_append,
    List.append_assoc, List.append_assoc] at hlist
  exact String.toList_inj.mp (List.append_cancel_right (List.append_cancel_left hlist))

/-- A name made for a required module tells the module. -/
theorem requiredPairs_single {name s s' : String} (h : (name, s) ∈ requiredPairs fs)
    (h' : (name, s') ∈ requiredPairs fs) : s = s' := by
  have hname {s : String} (h : (name, s) ∈ requiredPairs fs) : name = requiredName s := by
    obtain ⟨f, -, h⟩ := List.mem_filterMap.mp h
    split at h
    · cases h
      rfl
    · cases h
  exact requiredName_injective ((hname h).symm.trans (hname h'))

end Finding

/-! ## Imports -/

namespace FileRoutes

variable (t : FileTree) (root path : FilePath)

/-- The file that one binding leads to, if it is a binding of this name. -/
def fileOf (cache : Alias.Cache) (name : String) (binding : String × String) : Option String :=
  if binding.1 = name then (Alias.resolve t root path binding.2 cache).1.map t.key else none

/-- What one binding adds to the files that are found so far. -/
def withBinding (found : SortedMap String × Alias.Cache) (binding : String × String) :
    SortedMap String × Alias.Cache :=
  if found.1.contains binding.1 then found
  else
    let answer := Alias.resolve t root path binding.2 found.2
    (answer.1.elim found.1 fun file => found.1.insert binding.1 (t.key file), answer.2)

theorem importsOf_eq (bindings : List (String × String)) (cache : Alias.Cache) :
    importsOf t root path bindings cache =
      bindings.foldl (withBinding t root path) (∅, cache) := by
  apply congrArg (fun step => bindings.foldl step (∅, cache))
  funext ⟨found, now⟩ ⟨bound, specifier⟩
  unfold withBinding
  dsimp only
  split
  · rfl
  · rcases Alias.resolve t root path specifier now with ⟨_ | file, later⟩ <;> rfl

/-- A binding gives its name a file when the name has none, and leaves the other names alone. -/
theorem get?_withBinding {found : SortedMap String} {now cache : Alias.Cache}
    {binding : String × String}
    (h : (Alias.resolve t root path binding.2 now).1 =
      (Alias.resolve t root path binding.2 cache).1)
    (name : String) :
    (withBinding t root path (found, now) binding).1.get? name =
      (found.get? name).or (fileOf t root path cache name binding) := by
  obtain ⟨bound, specifier⟩ := binding
  unfold withBinding fileOf
  dsimp only at h ⊢
  rw [← h]
  split
  · rename_i hfound
    by_cases hname : bound = name
    · obtain ⟨file, hfile⟩ := Option.isSome_iff_exists.mp hfound
      rw [← hname, hfile, Option.some_or]
    · rw [if_neg hname, Option.or_none]
  · rename_i hfound
    have hnew : found.get? bound = none := Option.not_isSome_iff_eq_none.mp hfound
    cases (Alias.resolve t root path specifier now).1 with
    | none => rw [Option.elim_none, Option.map_none, ite_self, Option.or_none]
    | some file =>
      rw [Option.elim_some, SortedMap.get?_insert, Option.map_some]
      by_cases hname : bound = name
      · rw [if_pos hname.symm, if_pos hname, ← hname, hnew, Option.none_or]
      · rw [if_neg (Ne.symm hname), if_neg hname, Option.or_none]

/-- What was asked before does not matter for what is asked next. -/
theorem resolve_after_withBinding (found : SortedMap String) (now : Alias.Cache)
    (binding : String × String) (specifier : String) :
    (Alias.resolve t root path specifier (withBinding t root path (found, now) binding).2).1 =
      (Alias.resolve t root path specifier now).1 := by
  unfold withBinding
  split
  · rfl
  · exact Alias.resolve_after_resolve t root path binding.2 path specifier (fun _ => rfl) now

/-- A bound name has the first file that a binding of it leads to; what was asked before does not
matter. -/
theorem get?_importsOf (bindings : List (String × String)) (cache : Alias.Cache) (name : String) :
    (importsOf t root path bindings cache).1.get? name =
      bindings.findSome? (fileOf t root path cache name) := by
  -- all that the cache of a later step has in common with the first one: it answers alike
  have hfold : ∀ (bindings : List (String × String)) (found : SortedMap String)
      (now : Alias.Cache),
      (∀ specifier, (Alias.resolve t root path specifier now).1 =
        (Alias.resolve t root path specifier cache).1) →
      (bindings.foldl (withBinding t root path) (found, now)).1.get? name =
        (found.get? name).or (bindings.findSome? (fileOf t root path cache name)) := by
    intro bindings
    induction bindings with
    | nil => exact fun found now _ => Option.or_none.symm
    | cons binding bindings ih =>
      intro found now hnow
      have hlater := fun s =>
        (resolve_after_withBinding t root path found now binding s).trans (hnow s)
      rw [List.foldl_cons, List.findSome?_cons, ih _ _ hlater,
        get?_withBinding t root path (hnow binding.2)]
      cases found.get? name with
      | some file => rw [Option.some_or, Option.some_or, Option.some_or]
      | none =>
        rw [Option.none_or, Option.none_or]
        cases fileOf t root path cache name binding <;> rfl
  rw [importsOf_eq]
  exact hfold bindings ∅ cache fun _ => rfl

/-! ## Facts -/

/-- The facts of a tree that is taken to be in a file. -/
def ofTree (tree : Tree) (cache : Alias.Cache) : FileRoutes :=
  (ofFindings t root path (Finding.ofTree tree) cache).1

variable {t root path} {fs fs' : List Finding} {cache : Alias.Cache}

/-- The entries of a container: what is registered on its name. -/
theorem get?_containers_eq_some_iff {name : String} {entries : List Registration} :
    (ofFindings t root path fs cache).1.containers.get? name = some entries ↔
      (entries ≠ [] ∧ Finding.registrationsOn name fs = entries) ∧
        ∃ kind, Finding.container kind name ∈ fs := by
  have hkind : ((Finding.containers .router fs).contains name ||
      (Finding.containers .app fs).contains name) = true ↔
        ∃ kind, Finding.container kind name ∈ fs := by
    rw [Bool.or_eq_true, SortedSet.contains_iff, SortedSet.contains_iff,
      Finding.mem_containers_iff, Finding.mem_containers_iff]
    constructor
    · rintro (h | h)
      · exact ⟨.router, h⟩
      · exact ⟨.app, h⟩
    · rintro ⟨kind, h⟩
      cases kind with
      | router => exact .inl h
      | app => exact .inr h
  show ((Finding.registrations fs).filter _).get? name = some entries ↔ _
  rw [SortedMap.get?_filter, Option.filter_eq_some_iff, hkind, Finding.get?_registrations]
  apply and_congr_left'
  split
  · rename_i hnone
    rw [hnone]
    exact ⟨nofun, fun h => absurd h.2.symm h.1⟩
  · rename_i hsome
    rw [Option.some_inj]
    exact ⟨fun h => ⟨h ▸ hsome, h⟩, And.right⟩

/-- The containers are the names on which something is registered and to which a new router or app
is bound. -/
theorem mem_keys_containers_iff {name : String} :
    name ∈ (ofFindings t root path fs cache).1.containers.keys ↔
      (∃ r, Finding.registered name r ∈ fs) ∧ ∃ kind, Finding.container kind name ∈ fs := by
  rw [SortedMap.mem_keys_iff]
  simp only [get?_containers_eq_some_iff]
  constructor
  · rintro ⟨entries, ⟨hne, rfl⟩, hkind⟩
    obtain ⟨r, hr⟩ := List.exists_mem_of_ne_nil _ hne
    exact ⟨⟨r, Finding.mem_registrationsOn_iff.mp hr⟩, hkind⟩
  · rintro ⟨⟨r, hr⟩, hkind⟩
    exact ⟨_, ⟨List.ne_nil_of_mem (Finding.mem_registrationsOn_iff.mpr hr), rfl⟩, hkind⟩

/-! ### Findings in another order -/

/-- Where all that can be found is one value, the order of the search does not matter. -/
theorem findSome?_eq_of_perm {α β : Type} {g : α → Option β} {xs ys : List α} (hp : xs.Perm ys)
    (hone : ∀ x ∈ xs, ∀ y ∈ xs, (g x).isSome → (g y).isSome → x = y) :
    xs.findSome? g = ys.findSome? g := by
  cases hx : xs.findSome? g with
  | none =>
    rw [List.findSome?_eq_none_iff] at hx
    exact (List.findSome?_eq_none_iff.mpr fun y hy => hx y (hp.mem_iff.mpr hy)).symm
  | some a =>
    obtain ⟨x, hxs, hxa⟩ := List.exists_of_findSome?_eq_some hx
    cases hy : ys.findSome? g with
    | none =>
      rw [List.findSome?_eq_none_iff] at hy
      rw [hy x (hp.mem_iff.mp hxs)] at hxa
      cases hxa
    | some b =>
      obtain ⟨y, hys, hyb⟩ := List.exists_of_findSome?_eq_some hy
      obtain rfl := hone x hxs y (hp.mem_iff.mpr hys) (by rw [hxa]; rfl) (by rw [hyb]; rfl)
      rw [← hxa, hyb]

theorem containers_eq_of_perm (hp : fs.Perm fs') (kind : ContainerKind) :
    Finding.containers kind fs' = Finding.containers kind fs := by
  apply SortedSet.ext_mem
  intro name
  rw [Finding.mem_containers_iff, Finding.mem_containers_iff, hp.mem_iff]

theorem exportsRouter_eq_of_perm (hp : fs.Perm fs') :
    (ofFindings t root path fs' cache).1.exportsRouter =
      (ofFindings t root path fs cache).1.exportsRouter := by
  show (Finding.publishedNames fs').any (Finding.containers .router fs').contains =
    (Finding.publishedNames fs).any (Finding.containers .router fs).contains
  rw [containers_eq_of_perm hp]
  exact (hp.filterMap _).symm.any_eq

/-- A file exports a router when a name that is handed out is bound to a new router. -/
theorem exportsRouter_eq_true_iff :
    (ofFindings t root path fs cache).1.exportsRouter = true ↔
      ∃ name, Finding.published name ∈ fs ∧ Finding.container .router name ∈ fs := by
  show (Finding.publishedNames fs).any (Finding.containers .router fs).contains = true ↔ _
  rw [List.any_eq_true]
  exact exists_congr fun name => and_congr Finding.mem_publishedNames_iff
    (SortedSet.contains_iff.trans Finding.mem_containers_iff)

/-- Imports are the same when no name is bound to two modules. -/
theorem imports_eq_of_perm (hp : fs.Perm fs')
    (hone : ∀ name s s', Finding.imported name s ∈ fs → Finding.imported name s' ∈ fs → s = s') :
    (ofFindings t root path fs' cache).1.imports =
      (ofFindings t root path fs cache).1.imports := by
  have hbound {name : String} {binding : String × String}
      (h : (fileOf t root path cache name binding).isSome) : binding.1 = name := by
    by_contra hname
    rw [fileOf, if_neg hname] at h
    cases h
  apply SortedMap.ext_get?
  intro name
  show (importsOf t root path (Finding.importedPairs fs' ++ Finding.requiredPairs fs') cache).1.get?
      name =
    (importsOf t root path (Finding.importedPairs fs ++ Finding.requiredPairs fs) cache).1.get? name
  rw [get?_importsOf, get?_importsOf, List.findSome?_append, List.findSome?_append]
  congr 1
  · symm
    apply findSome?_eq_of_perm (hp.filterMap _)
    rintro ⟨n, s⟩ hs ⟨n', s'⟩ hs' hn hn'
    obtain rfl : n = name := hbound hn
    obtain rfl : n' = n := hbound hn'
    rw [hone n' s s' (Finding.mem_importedPairs_iff.mp hs) (Finding.mem_importedPairs_iff.mp hs')]
  · symm
    apply findSome?_eq_of_perm (hp.filterMap _)
    rintro ⟨n, s⟩ hs ⟨n', s'⟩ hs' hn hn'
    obtain rfl : n = name := hbound hn
    obtain rfl : n' = n := hbound hn'
    rw [Finding.requiredPairs_single hs hs']

end FileRoutes

/-! ## Statements in another order -/

theorem Finding.ofTree_program (l : Label) (s : String) (ss : List Tree) :
    ofTree (.node .program l s ss) = ss.flatMap ofTree := by
  rw [ofTree_eq]
  rfl

theorem Finding.registrationsOn_flatMap (name : String) (ss : List Tree) :
    registrationsOn name (ss.flatMap ofTree) =
      ss.flatMap fun statement => registrationsOn name (ofTree statement) := by
  induction ss with
  | nil => rfl
  | cons statement ss ih =>
    rw [List.flatMap_cons, List.flatMap_cons, ← ih, registrationsOn_append]

/-- **Where a statement stands does not matter.**  A permutation of the statements of a program
leaves its routers, its apps, what it hands out and the names of its containers as they are, and
puts the registrations on a container in the order of the statements that make them; and what is
imported stays unless a name is bound to two modules.

For the containers this is since they are the names that some call, anywhere in the tree, registers
something on, and that some declarator or assignment, anywhere in the tree, binds to a new router or
app. -/
theorem ofTree_rearranged (files : FileTree) (root path : FilePath) (cache : Alias.Cache) :
    (∀ {l : Label} {s : String} {ss ss' : List Tree}, ss.Perm ss' →
      let before := FileRoutes.ofTree files root path (.node .program l s ss) cache
      let after := FileRoutes.ofTree files root path (.node .program l s ss') cache
      after.routers = before.routers ∧
        after.apps = before.apps ∧
        after.exportsRouter = before.exportsRouter ∧
        after.containers.keys = before.containers.keys ∧
        (∀ name entries, before.containers.get? name = some entries →
          entries = ss.flatMap (fun c => Finding.registrationsOn name (Finding.ofTree c)) ∧
            after.containers.get? name =
              some (ss'.flatMap fun c => Finding.registrationsOn name (Finding.ofTree c))) ∧
        ((∀ name specifier specifier',
          Finding.imported name specifier ∈ Finding.ofTree (.node .program l s ss) →
            Finding.imported name specifier' ∈ Finding.ofTree (.node .program l s ss) →
              specifier = specifier') →
          after.imports = before.imports)) ∧
    ∀ (tree : Tree) (name : String),
      name ∈ (FileRoutes.ofTree files root path tree cache).containers.keys ↔
        (∃ n : Tree, n.Within tree ∧ n.kind = .call ∧ ∃ r, Finding.Registers name r n) ∧
          ∃ n : Tree, n.Within tree ∧ ∃ kind, Finding.Binds kind name n := by
  constructor
  · intro l s ss ss' hp
    have hfound : (Finding.ofTree (.node .program l s ss)).Perm
        (Finding.ofTree (.node .program l s ss')) := by
      rw [Finding.ofTree_program, Finding.ofTree_program]
      exact hp.flatMap_right Finding.ofTree
    refine ⟨FileRoutes.containers_eq_of_perm hfound .router,
      FileRoutes.containers_eq_of_perm hfound .app,
      FileRoutes.exportsRouter_eq_of_perm hfound, ?_, ?_, FileRoutes.imports_eq_of_perm hfound⟩
    · apply SortedMap.keys_eq_of_mem_iff
      intro name
      unfold FileRoutes.ofTree
      rw [FileRoutes.mem_keys_containers_iff, FileRoutes.mem_keys_containers_iff]
      simp only [hfound.mem_iff]
    · intro name entries hentries
      obtain ⟨⟨hne, hbefore⟩, kind, hkind⟩ := FileRoutes.get?_containers_eq_some_iff.mp hentries
      rw [Finding.ofTree_program, Finding.registrationsOn_flatMap] at hbefore
      refine ⟨hbefore.symm, FileRoutes.get?_containers_eq_some_iff.mpr ⟨⟨?_, ?_⟩, kind, ?_⟩⟩
      · intro hnil
        rw [← hbefore] at hne
        apply hne
        have hperm := hp.flatMap_right fun c => Finding.registrationsOn name (Finding.ofTree c)
        exact (hnil ▸ hperm).eq_nil
      · rw [Finding.ofTree_program, Finding.registrationsOn_flatMap]
      · exact hfound.mem_iff.mp hkind
  · intro tree name
    unfold FileRoutes.ofTree
    rw [FileRoutes.mem_keys_containers_iff]
    simp only [Finding.mem_ofTree_iff, Finding.registered_mem_ofNode_iff,
      Finding.container_mem_ofNode_iff]
    constructor
    · rintro ⟨⟨r, n, hn, hcall, hr⟩, kind, n', hn', hkind⟩
      exact ⟨⟨n, hn, hcall, r, hr⟩, n', hn', kind, hkind⟩
    · rintro ⟨⟨n, hn, hcall, r, hr⟩, n', hn', kind, hkind⟩
      exact ⟨⟨r, n, hn, hcall, hr⟩, kind, n', hn', hkind⟩

/-- `router.use('/users', users);` -/
def mounting : Tree :=
  .node .other .plain "" [
    .node .call .plain "" [
      .node .member .callee "" [
        .node .identifier .object "router" [],
        .node .propertyName .property "use" []],
      .node .arguments .arguments "" [
        .node .string .plain "'/users'" [],
        .node .identifier .plain "users" []]]]

/-- `const users = require('./users');` -/
def requiring : Tree :=
  .node .lexicalDeclaration .plain "" [
    .node .declarator .plain "" [
      .node .identifier .name "users" [],
      .node .call .value "" [
        .node .identifier .callee "require" [],
        .node .arguments .arguments "" [.node .string .plain "'./users'" []]]]]

/-- `const router = Router();` -/
def creating : Tree :=
  .node .lexicalDeclaration .plain "" [
    .node .declarator .plain "" [
      .node .identifier .name "router" [],
      .node .call .value "" [
        .node .identifier .callee "Router" [],
        .node .arguments .arguments "" []]]]

/-- A mount before the router and the mounted module are declared counts as it does after that. -/
theorem ofTree_rearranged_declaredLast :
    let files : FileTree :=
      ⟨.directory [("r", .directory [("users.js", .file ByteArray.empty false)])], []⟩
    let facts (ss : List Tree) : FileRoutes :=
      .ofTree files ⟨"/r"⟩ ⟨"/r/a.js"⟩ (.node .program .plain "" ss) .empty
    [creating, requiring, mounting].Perm [mounting, requiring, creating] ∧
      (facts [mounting, requiring, creating]).imports =
        (facts [creating, requiring, mounting]).imports ∧
      (facts [creating, requiring, mounting]).imports.toList = [("users", "/r/users.js")] ∧
      (facts [mounting, requiring, creating]).containers.get? "router" =
        some [.mount "/users" ["users"]] := by
  intro files facts
  have hp : [creating, requiring, mounting].Perm [mounting, requiring, creating] :=
    List.reverse_perm [mounting, requiring, creating]
  obtain ⟨-, -, -, -, hentries, himports⟩ :=
    (ofTree_rearranged files ⟨"/r"⟩ ⟨"/r/a.js"⟩ .empty).1 (l := .plain) (s := "") hp
  have hfound : Finding.ofTree (.node .program .plain "" [creating, requiring, mounting]) =
      [.container .router "router", .imported "users" "./users",
        .registered "router" (.mount "/users" ["users"])] := by
    decide +kernel
  have hbefore : (facts [creating, requiring, mounting]).containers.get? "router" =
      some [.mount "/users" ["users"]] := by
    decide +kernel
  refine ⟨hp, himports ?_, by decide +kernel, (hentries "router" _ hbefore).2.trans ?_⟩
  · intro name specifier specifier' h h'
    rw [hfound] at h h'
    simp only [List.mem_cons, List.not_mem_nil, reduceCtorEq, Finding.imported.injEq, false_or,
      or_false] at h h'
    rw [h.2, h'.2]
  · decide +kernel

end RouteAtlas
