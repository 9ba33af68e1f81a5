import RouteAtlas.Alias.Metro
import RouteAtlas.Proofs.Text

/-!
# The longest key decides

A table of aliases can have many keys that apply to one specifier, and a module resolver does not
try them one after the other: one entry decides, and when there is no file at its target no other
entry is asked.  It is the entry with the longest key that applies, and of several the one declared
last (`Decides`).  The two dialects with such tables differ in what applies: a key of either stands
for itself and for what is below it, never for a longer word that it begins, and in one dialect a
star at the end of a key stands for anything.

Since only one entry is asked, **the others can be taken out and put back** as long as they do not
apply, or one that applies has a longer key (`longest_key_decides`).  That is said of the answer and
not only of the choice, so it covers the search that goes on to the roots.
-/

set_option autoImplicit false

namespace RouteAtlas.Alias

open Text

variable {α β : Type}

/-! ## The entry that decides -/

/-- Whether an entry of a table decides: it applies, of those that apply none has a longer key, and
none behind it has one as long. -/
def Decides (applies : String → Prop) (table : List (String × α)) (e : String × α) : Prop :=
  applies e.1 ∧ ∃ before after, table = before ++ e :: after ∧
    (∀ e' ∈ before, applies e'.1 → e'.1.utf8ByteSize ≤ e.1.utf8ByteSize) ∧
    ∀ e' ∈ after, applies e'.1 → e'.1.utf8ByteSize < e.1.utf8ByteSize

/-- Whether a key has no say beside other entries: it does not apply, or one of them applies with a
longer key. -/
def Irrelevant (applies : String → Prop) (others : List (String × α)) (key : String) : Prop :=
  ¬applies key ∨ ∃ e ∈ others, applies e.1 ∧ key.utf8ByteSize < e.1.utf8ByteSize

section

variable {applies : String → Prop} {table : List (String × α)}

theorem Decides.le {e e' : String × α} (h : Decides applies table e) (he' : e' ∈ table)
    (happlies : applies e'.1) : e'.1.utf8ByteSize ≤ e.1.utf8ByteSize := by
  obtain ⟨-, before, after, rfl, hbefore, hafter⟩ := h
  rcases List.mem_append.mp he' with he' | he'
  · exact hbefore e' he' happlies
  · rcases List.mem_cons.mp he' with rfl | he'
    · exact Nat.le_refl _
    · exact Nat.le_of_lt (hafter e' he' happlies)

theorem exists_decides (h : ∃ e ∈ table, applies e.1) : ∃ e, Decides applies table e := by
  induction table with
  | nil => simp at h
  | cons d table ih =>
    by_cases hrest : ∃ e ∈ table, applies e.1
    · obtain ⟨e, hdecides⟩ := ih hrest
      by_cases hlonger : applies d.1 ∧ e.1.utf8ByteSize < d.1.utf8ByteSize
      · -- the entry in front is longer than the best behind it
        refine ⟨d, hlonger.1, [], table, rfl, by simp, fun e' he' happlies => ?_⟩
        exact Nat.lt_of_le_of_lt (hdecides.le he' happlies) hlonger.2
      · obtain ⟨happlies, before, after, rfl, hbefore, hafter⟩ := hdecides
        refine ⟨e, happlies, d :: before, after, rfl, fun e' he' happlies' => ?_, hafter⟩
        rcases List.mem_cons.mp he' with rfl | he'
        · exact Nat.le_of_not_lt fun hlt => hlonger ⟨happlies', hlt⟩
        · exact hbefore e' he' happlies'
    · obtain ⟨e, he, happlies⟩ := h
      rcases List.mem_cons.mp he with rfl | he
      · exact ⟨e, happlies, [], table, rfl, by simp, fun e' he' h' => absurd ⟨e', he', h'⟩ hrest⟩
      · exact absurd ⟨e, he, happlies⟩ hrest

/-- An entry that does not apply, or is shorter, leaves the decision where it is. -/
theorem Decides.insert {u v : List (String × α)} {d e : String × α}
    (h : Decides applies (u ++ v) d)
    (he : applies e.1 → e.1.utf8ByteSize < d.1.utf8ByteSize) : Decides applies (u ++ e :: v) d := by
  obtain ⟨happlies, before, after, hsplit, hbefore, hafter⟩ := h
  -- where the new entry stands: somewhere before the one that decides, or somewhere behind it
  have hplace : (∃ w, before = u ++ w ∧ v = w ++ d :: after) ∨
      ∃ w, u = before ++ d :: w ∧ after = w ++ v := by
    rcases List.append_eq_append_iff.mp hsplit with ⟨w, hw, hv⟩ | ⟨w, hw, hv⟩
    · exact .inl ⟨w, hw, hv⟩
    · cases w with
      | nil => exact .inl ⟨[], by simpa using hw.symm, by simpa using hv.symm⟩
      | cons d' w =>
        obtain ⟨rfl, rfl⟩ := List.cons.inj hv
        exact .inr ⟨w, hw, rfl⟩
  rcases hplace with ⟨w, rfl, rfl⟩ | ⟨w, rfl, rfl⟩
  · refine ⟨happlies, u ++ e :: w, after, by simp, fun e' he' happlies' => ?_, hafter⟩
    simp only [List.mem_append, List.mem_cons] at he' hbefore
    rcases he' with he' | rfl | he'
    · exact hbefore e' (.inl he') happlies'
    · exact Nat.le_of_lt (he happlies')
    · exact hbefore e' (.inr he') happlies'
  · refine ⟨happlies, before, w ++ e :: v, by simp, hbefore, fun e' he' happlies' => ?_⟩
    simp only [List.mem_append, List.mem_cons] at he' hafter
    rcases he' with he' | rfl | he'
    · exact hafter e' (.inl he') happlies'
    · exact he happlies'
    · exact hafter e' (.inr he') happlies'

end

/-! ## Choosing it -/

theorem mem_of_lastLongest {es : List (Nat × α)} {e : Nat × α} (h : lastLongest es = some e) :
    e ∈ es := by
  induction es generalizing e with
  | nil => cases h
  | cons d es ih =>
    rw [lastLongest] at h
    split at h
    · cases h
      exact List.mem_cons_self
    · rename_i best hbest
      split at h
      · cases h
        exact List.mem_cons_self
      · cases h
        exact List.mem_cons_of_mem d (ih hbest)

theorem lastLongest_append_cons {before after : List (Nat × α)} {e : Nat × α}
    (hbefore : ∀ e' ∈ before, e'.1 ≤ e.1) (hafter : ∀ e' ∈ after, e'.1 < e.1) :
    lastLongest (before ++ e :: after) = some e := by
  induction before with
  | nil =>
    cases hbest : lastLongest after with
    | none => simp [lastLongest, hbest]
    | some best => simp [lastLongest, hbest, hafter best (mem_of_lastLongest hbest)]
  | cons d before ih =>
    have hle : ¬e.1 < d.1 := Nat.not_lt.mpr (hbefore d List.mem_cons_self)
    have hrest := ih fun e' he' => hbefore e' (List.mem_cons_of_mem d he')
    rw [List.cons_append, lastLongest, hrest]
    exact if_neg hle

/-- What the entries of a table offer, each with the length of its key. -/
def offers (give : String → α → Option β) (table : List (String × α)) : List (Nat × β) :=
  table.filterMap fun (key, x) => (give key x).map fun y => (key.utf8ByteSize, y)

/-- The choice that the dialects have in common: the last of the longest offers. -/
def decided? (give : String → α → Option β) (table : List (String × α)) : Option β :=
  (lastLongest (offers give table)).map (·.2)

section

variable {applies : String → Prop} {give : String → α → Option β}
  (hgive : ∀ key x, (give key x).isSome = true ↔ applies key)

include hgive

/-- Only entries that apply offer anything. -/
theorem exists_of_mem_offers {table : List (String × α)} {d : Nat × β}
    (h : d ∈ offers give table) : ∃ e ∈ table, applies e.1 ∧ e.1.utf8ByteSize = d.1 := by
  obtain ⟨⟨key, x⟩, he, hmap⟩ := List.mem_filterMap.mp h
  obtain ⟨y, hy, rfl⟩ := Option.map_eq_some_iff.mp hmap
  exact ⟨(key, x), he, (hgive key x).mp (by simp [hy]), rfl⟩

theorem decided?_eq_none {table : List (String × α)} (h : ∀ e ∈ table, ¬applies e.1) :
    decided? give table = none := by
  cases hlast : lastLongest (offers give table) with
  | none => simp [decided?, hlast]
  | some d =>
    obtain ⟨e, he, happlies, -⟩ := exists_of_mem_offers hgive (mem_of_lastLongest hlast)
    exact absurd happlies (h e he)

/-- The entry that decides is the one that is chosen. -/
theorem Decides.decided?_eq {table : List (String × α)} {e : String × α}
    (h : Decides applies table e) : decided? give table = give e.1 e.2 := by
  obtain ⟨happlies, before, after, rfl, hbefore, hafter⟩ := h
  obtain ⟨key, x⟩ := e
  obtain ⟨y, hy⟩ := Option.isSome_iff_exists.mp ((hgive key x).mpr happlies)
  have hoffers : offers give (before ++ (key, x) :: after) =
      offers give before ++ (key.utf8ByteSize, y) :: offers give after := by
    simp [offers, hy]
  have hlast : lastLongest (offers give (before ++ (key, x) :: after)) =
      some (key.utf8ByteSize, y) := by
    rw [hoffers]
    refine lastLongest_append_cons (fun d hd => ?_) fun d hd => ?_
    · obtain ⟨e', he', happlies', hsize⟩ := exists_of_mem_offers hgive hd
      exact hsize ▸ hbefore e' he' happlies'
    · obtain ⟨e', he', happlies', hsize⟩ := exists_of_mem_offers hgive hd
      exact hsize ▸ hafter e' he' happlies'
  rw [decided?, hlast]
  exact hy.symm

/-- An entry without a say can be put anywhere. -/
theorem decided?_insert {u v : List (String × α)} {e : String × α}
    (h : Irrelevant applies (u ++ v) e.1) :
    decided? give (u ++ e :: v) = decided? give (u ++ v) := by
  by_cases hany : ∃ e' ∈ u ++ v, applies e'.1
  · obtain ⟨d, hd⟩ := exists_decides hany
    have he (happlies : applies e.1) : e.1.utf8ByteSize < d.1.utf8ByteSize := by
      rcases h with hnot | ⟨e', he', happlies', hlt⟩
      · exact absurd happlies hnot
      · exact Nat.lt_of_lt_of_le hlt (hd.le he' happlies')
    rw [hd.decided?_eq hgive, (hd.insert he).decided?_eq hgive]
  · have hnot : ¬applies e.1 := by
      rcases h with hnot | ⟨e', he', happlies', -⟩
      · exact hnot
      · exact absurd ⟨e', he', happlies'⟩ hany
    rw [decided?_eq_none hgive fun e' he' h' => hany ⟨e', he', h'⟩, decided?_eq_none hgive]
    intro e' he' happlies'
    simp only [List.mem_append, List.mem_cons] at he' hany
    rcases he' with he' | rfl | he'
    · exact hany ⟨e', .inl he', happlies'⟩
    · exact hnot happlies'
    · exact hany ⟨e', .inr he', happlies'⟩

end

/-- Whether the answer of a table is what one of its entries gives: the one that decides.  Where no
entry applies there is another answer, and entries without a say can be put in and taken out. -/
structure OneDecides (applies : String → Prop) (answer : List (String × α) → Option FilePath)
    (given : String × α → Option FilePath → Prop) (otherwise : Option FilePath) : Prop where
  decided : ∀ table e, Decides applies table e → given e (answer table)
  exists_or : ∀ table, (∃ e, Decides applies table e) ∨
    (∀ e ∈ table, ¬applies e.1) ∧ answer table = otherwise
  irrelevant : ∀ before e after, Irrelevant applies (before ++ after) e.1 →
    answer (before ++ e :: after) = answer (before ++ after)

/-- What is made of the last of the longest offers alone is decided by one entry. -/
theorem oneDecides_of_decided? {applies : String → Prop} {give : String → α → Option β}
    (hgive : ∀ key x, (give key x).isSome = true ↔ applies key)
    {answer : List (String × α) → Option FilePath} (made : Option β → Option FilePath)
    (hanswer : ∀ table, answer table = made (decided? give table))
    {given : String × α → Option FilePath → Prop}
    (hgiven : ∀ e y, give e.1 e.2 = some y → given e (made (some y))) :
    OneDecides applies answer given (made none) where
  decided table e h := by
    obtain ⟨y, hy⟩ := Option.isSome_iff_exists.mp ((hgive e.1 e.2).mpr h.1)
    rw [hanswer, h.decided?_eq hgive, hy]
    exact hgiven e y hy
  exists_or table := by
    by_cases hany : ∃ e ∈ table, applies e.1
    · exact .inl (exists_decides hany)
    · have hnone : ∀ e ∈ table, ¬applies e.1 := fun e he happlies => hany ⟨e, he, happlies⟩
      exact .inr ⟨hnone, by rw [hanswer, decided?_eq_none hgive hnone]⟩
  irrelevant before e after h := by
    rw [hanswer, hanswer, decided?_insert hgive h]

/-! ## What applies -/

/-- Whether a specifier is what a key names, or something below it. -/
def IsUnder (key specifier : List Char) : Prop :=
  specifier = key ∨ ∃ rest, specifier = key ++ '/' :: rest

namespace Babel

/-- A key with a star at its end applies to whatever starts with what is before the star. -/
def Applies (key specifier : String) : Prop :=
  (∃ start, key.toList = start ++ ['*'] ∧ start <+: specifier.toList) ∨
    key.toList.getLast? ≠ some '*' ∧ IsUnder key.toList specifier.toList

/-- What an alias makes of a specifier, by the shape of its key.  A rest is put in the place of the
star in the target if there is one, else below the target. -/
inductive Expands (target : List Char) : List Char → List Char → List Char → Prop
  | itself {key} (h : key.getLast? ≠ some '*') : Expands target key key target
  | under {key} (rest) (h : key.getLast? ≠ some '*') :
      Expands target key (key ++ '/' :: rest) (below target rest)
  | star (start rest) (h : '*' ∈ target) :
      Expands target (start ++ ['*']) (start ++ rest) (replaceFirst '*' rest target)
  | starUnder (start rest) (h : '*' ∉ target) :
      Expands target (start ++ ['*']) (start ++ rest) (below target rest)

theorem expand?_eq_some_iff {key target specifier e : List Char} :
    expand? key target specifier = some e ↔ Expands target key specifier e := by
  constructor
  · intro h
    unfold expand? at h
    split at h
    · rename_i hstar
      obtain ⟨start, rfl⟩ := List.getLast?_eq_some_iff.mp hstar
      rw [List.dropLast_concat] at h
      obtain ⟨rest, hrest, rfl⟩ := Option.map_eq_some_iff.mp h
      rw [List.isPrefixOf?_eq_some_iff_append_eq] at hrest
      subst hrest
      split
      · rename_i hmem
        exact .star start rest hmem
      · rename_i hmem
        exact .starUnder start rest hmem
    · rename_i hstar
      split at h
      · rename_i heq
        subst heq
        cases h
        exact .itself hstar
      · split at h
        · rename_i rest hrest
          cases h
          rw [List.isPrefixOf?_eq_some_iff_append_eq] at hrest
          exact hrest ▸ .under rest hstar
        · cases h
  · intro h
    cases h with
    | itself hstar => simp [expand?, hstar]
    | under rest hstar => simp [expand?, hstar, isPrefixOf?_append]
    | star start rest hmem => simp [expand?, isPrefixOf?_append, hmem]
    | starUnder start rest hmem => simp [expand?, isPrefixOf?_append, hmem]

theorem exists_expands_iff {key specifier : String} (target : List Char) :
    (∃ e, Expands target key.toList specifier.toList e) ↔ Applies key specifier := by
  unfold Applies
  generalize key.toList = key
  generalize specifier.toList = specifier
  constructor
  · rintro ⟨e, h⟩
    cases h with
    | itself hstar => exact .inr ⟨hstar, .inl rfl⟩
    | under rest hstar => exact .inr ⟨hstar, .inr ⟨rest, rfl⟩⟩
    | star start rest => exact .inl ⟨start, rfl, List.prefix_append start rest⟩
    | starUnder start rest => exact .inl ⟨start, rfl, List.prefix_append start rest⟩
  · rintro (⟨start, rfl, rest, rfl⟩ | ⟨hstar, rfl | ⟨rest, rfl⟩⟩)
    · by_cases hmem : '*' ∈ target
      · exact ⟨_, .star start rest hmem⟩
      · exact ⟨_, .starUnder start rest hmem⟩
    · exact ⟨_, .itself hstar⟩
    · exact ⟨_, .under rest hstar⟩

/-- What an alias offers for a specifier. -/
def offer? (specifier key target : String) : Option String :=
  (expand? key.toList target.toList specifier.toList).map String.ofList

theorem isSome_offer?_iff (specifier key target : String) :
    (offer? specifier key target).isSome = true ↔ Applies key specifier := by
  rw [← exists_expands_iff target.toList, offer?, Option.isSome_map,
    Option.isSome_iff_exists]
  simp only [expand?_eq_some_iff]

theorem expansion?_eq (c : Babel) (specifier : String) :
    c.expansion? specifier = decided? (offer? specifier) c.aliases := by
  simp [expansion?, decided?, offers, offer?, Function.comp_def]

/-- The file that a specifier names under one of the roots. -/
def underRoots? (c : Babel) (t : FileTree) (specifier : String) : Option FilePath :=
  c.roots.findSome? fun root => c.find t (root.join specifier)

theorem resolve_eq (c : Babel) (t : FileTree) (specifier : String) :
    c.resolve t specifier =
      ((decided? (offer? specifier) c.aliases).bind (c.target? t)).or
        (c.underRoots? t specifier) := by
  rw [resolve, expansion?_eq, underRoots?]

end Babel

namespace Metro

/-- A star in a key has no meaning here. -/
def Applies (key specifier : String) : Prop :=
  IsUnder key.toList specifier.toList

/-- What a specifier leaves below a key. -/
def Leaves (key specifier rest : List Char) : Prop :=
  specifier = key ∧ rest = [] ∨ specifier = key ++ '/' :: rest

theorem below?_eq_some_iff {key specifier rest : List Char} :
    below? key specifier = some rest ↔ Leaves key specifier rest := by
  unfold below? Leaves
  constructor
  · intro h
    split at h
    · rename_i heq
      cases h
      exact .inl ⟨heq, rfl⟩
    · split at h
      · rename_i hrest
        cases h
        rw [List.isPrefixOf?_eq_some_iff_append_eq] at hrest
        exact .inr hrest.symm
      · cases h
  · rintro (⟨rfl, rfl⟩ | rfl)
    · simp
    · simp [isPrefixOf?_append]

/-- What an alias offers for a specifier: its target, and what is below its key. -/
def offer? (specifier key : String) (target : FilePath) : Option (FilePath × List Char) :=
  (below? key.toList specifier.toList).map fun rest => (target, rest)

theorem isSome_offer?_iff (specifier key : String) (target : FilePath) :
    (offer? specifier key target).isSome = true ↔ Applies key specifier := by
  rw [offer?, Option.isSome_map, Option.isSome_iff_exists]
  simp only [below?_eq_some_iff, Leaves, Applies, IsUnder, exists_or]
  simp

theorem hit?_eq (c : Metro) (specifier : String) :
    c.hit? specifier = decided? (offer? specifier) c.aliases := by
  simp [hit?, decided?, offers, offer?, Function.comp_def]

/-- Where the rest of a specifier is looked for: at the target, or below it. -/
def place (target : FilePath) (rest : List Char) : FilePath :=
  if rest = [] then target else target.join (String.ofList rest)

theorem resolve_eq (c : Metro) (t : FileTree) (specifier : String) :
    c.resolve t specifier =
      (decided? (offer? specifier) c.aliases).bind fun (target, rest) =>
        probe t (place target rest) := by
  simp [resolve, hit?_eq, place]

end Metro

/-! ## The answer -/

/-- **One entry decides, and none that is shorter or does not apply has a say**, in both dialects:
also where the target of the one that decides holds no file, and the roots are asked next. -/
theorem longest_key_decides (t : FileTree) (specifier : String) :
    (∀ c : Babel, OneDecides (Babel.Applies · specifier)
      (fun aliases => Babel.resolve { c with aliases := aliases } t specifier)
      (fun e answer => ∃ expansion,
        Babel.Expands e.2.toList e.1.toList specifier.toList expansion ∧
          answer = (c.target? t (String.ofList expansion)).or (c.underRoots? t specifier))
      (c.underRoots? t specifier)) ∧
    OneDecides (Metro.Applies · specifier)
      (fun aliases => Metro.resolve ⟨aliases⟩ t specifier)
      (fun e answer => ∃ rest, Metro.Leaves e.1.toList specifier.toList rest ∧
        answer = probe t (Metro.place e.2 rest))
      none := by
  constructor
  · intro c
    refine oneDecides_of_decided? (Babel.isSome_offer?_iff specifier)
      (fun e => (e.bind (c.target? t)).or (c.underRoots? t specifier))
      (fun aliases => Babel.resolve_eq { c with aliases := aliases } t specifier) ?_
    intro e y hy
    obtain ⟨expansion, hexpansion, rfl⟩ := Option.map_eq_some_iff.mp hy
    exact ⟨expansion, Babel.expand?_eq_some_iff.mp hexpansion, rfl⟩
  · refine oneDecides_of_decided? (Metro.isSome_offer?_iff specifier)
      (fun hit => hit.bind fun (target, rest) => probe t (Metro.place target rest))
      (fun aliases => Metro.resolve_eq ⟨aliases⟩ t specifier) ?_
    intro e y hy
    obtain ⟨rest, hrest, rfl⟩ := Option.map_eq_some_iff.mp hy
    exact ⟨rest, Metro.below?_eq_some_iff.mp hrest, rfl⟩

/-- Two aliases for one directory, of which the longer one leads nowhere. -/
def strayAlias : Babel :=
  ⟨⟨"/app"⟩, [("@*", "./src*"), ("@/lib", "./gone")], [⟨"/app/vendor"⟩], []⟩

/-- A file where the shorter alias leads, and one under the root. -/
def strayTree : FileTree :=
  let db : Entry := .directory [("db.js", .file ⟨#[]⟩ false)]
  ⟨.directory [("app", .directory [
    ("src", .directory [("lib", db)]),
    ("vendor", .directory [("@", .directory [("lib", db)])])])], []⟩

theorem longest_key_decides_strayAlias :
    Decides (Babel.Applies · "@/lib/db") strayAlias.aliases ("@/lib", "./gone") ∧
      Irrelevant (Babel.Applies · "@/lib/db") [("@/lib", "./gone")] "@*" ∧
      strayAlias.resolve strayTree "@/lib/db" = some ⟨"/app/vendor/@/lib/db.js"⟩ ∧
      Babel.resolve { strayAlias with aliases := [("@/lib", "./gone")] } strayTree "@/lib/db" =
        some ⟨"/app/vendor/@/lib/db.js"⟩ := by
  have hlib : Babel.Applies "@/lib" "@/lib/db" := .inr ⟨by decide, .inr ⟨['d', 'b'], by decide⟩⟩
  have hdecides : Decides (Babel.Applies · "@/lib/db") strayAlias.aliases ("@/lib", "./gone") :=
    ⟨hlib, [("@*", "./src*")], [], rfl, fun e he _ => by cases List.mem_singleton.mp he; decide,
      by simp⟩
  have hirrelevant : Irrelevant (Babel.Applies · "@/lib/db") [("@/lib", "./gone")] "@*" :=
    .inr ⟨("@/lib", "./gone"), List.mem_singleton_self _, hlib, by decide⟩
  have hone := (longest_key_decides strayTree "@/lib/db").1 strayAlias
  obtain ⟨expansion, hexpansion, hanswer⟩ := hone.decided _ _ hdecides
  have hresolve : strayAlias.resolve strayTree "@/lib/db" = some ⟨"/app/vendor/@/lib/db.js"⟩ := by
    rw [← Babel.expand?_eq_some_iff] at hexpansion
    cases hexpansion
    exact hanswer.trans (by decide +kernel)
  refine ⟨hdecides, hirrelevant, hresolve, ?_⟩
  exact (hone.irrelevant [] ("@*", "./src*") [("@/lib", "./gone")] hirrelevant).symm.trans hresolve

end RouteAtlas.Alias
