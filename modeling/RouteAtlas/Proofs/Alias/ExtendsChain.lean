import Mathlib.Data.List.Chain
import RouteAtlas.Alias.Tsconfig
import RouteAtlas.Proofs.FileTree

/-!
# What a chain of configurations says

A configuration can extend another one, and that a third, and one of them an earlier one.  Reading
goes through the extensions with the options half made, and overrides them on its way back.  What
it amounts to is told by the chain of the files that are read, the configuration itself first
(`Tsconfig.ExtendsChain`): **of each option the first file counts that has it**, and it is seen from
the directory of that file (`Tsconfig.load_merges_chain`).  Every configuration that can be read
begins exactly one such chain, which ends after six files at the latest, so one that extends itself
has a chain too.
-/

set_option autoImplicit false

namespace RouteAtlas.Alias.Tsconfig

/-! ## Layers -/

/-- A configuration file that is read, the directory it lies in, and its value. -/
structure Layer where
  file : FilePath
  dir : FilePath
  document : Json

namespace Layer

structure IsRead (t : FileTree) (l : Layer) : Prop where
  document : document? t l.file = some l.document
  dir : l.file.parent? = some l.dir

/-- Whether a layer extends a file.  It does so by a name that begins with a dot: the file of that
name if there is one, else what has `.json` behind the name. -/
def Extends (t : FileTree) (l : Layer) (file : FilePath) : Prop :=
  ∃ name, l.document.get? "extends" = some (.string name) ∧ name.startsWith "." = true ∧
    file = if t.isFile (l.dir.join name) then l.dir.join name
      else ⟨(l.dir.join name).text ++ ".json"⟩

def compilerOption? (l : Layer) (key : String) : Option Json :=
  (l.document.get? "compilerOptions").bind (·.get? key)

/-- The base that a layer has itself, seen from its directory. -/
def baseUrl? (l : Layer) : Option FilePath :=
  ((l.compilerOption? "baseUrl").bind Json.string?).map l.dir.join

/-- The mappings that a layer has itself; it may have them and still map nothing. -/
def paths? (l : Layer) : Option (List (String × List String)) :=
  ((l.compilerOption? "paths").bind Json.object?).map mappings

end Layer

/-- Whether files are read one after the other, each extended by the one before it: from a file on,
up to a limit, and so far that the last one extends nothing that can be read. -/
structure ExtendsChain (t : FileTree) (limit : Nat) (file : FilePath) (chain : List Layer) :
    Prop where
  first : chain.head?.map Layer.file = some file
  read : ∀ l ∈ chain, l.IsRead t
  linked : chain.IsChain fun l l' => l.Extends t l'.file
  length_le : chain.length ≤ limit
  complete : chain.length < limit → ∀ l, chain.getLast? = some l →
    ∀ file, l.Extends t file → document? t file = none

/-- Whether a configuration has of each option what the first layer with that option says. -/
structure Merges (chain : List Layer) (c : Tsconfig) : Prop where
  baseUrl : c.baseUrl = chain.findSome? Layer.baseUrl?
  paths : c.paths = (chain.findSome? Layer.paths?).getD []
  pathsBase_of_baseUrl : ∀ base, c.baseUrl = some base → c.pathsBase = base
  pathsBase_of_paths : c.baseUrl = none →
    ∃ l, chain.find? (fun l => l.paths?.isSome) = some l ∧ c.pathsBase = l.dir

variable {t : FileTree} {file : FilePath}

theorem extended?_eq_some_iff {l : Layer} :
    extended? t l.dir l.document = some file ↔ l.Extends t file := by
  unfold extended?
  constructor
  · intro h
    obtain ⟨name, hname, h⟩ := Option.bind_eq_some_iff.mp h
    obtain ⟨value, hvalue, hstring⟩ := Option.bind_eq_some_iff.mp hname
    obtain ⟨_, hguard, h⟩ := Option.bind_eq_some_iff.mp h
    have hdot : name.startsWith "." = true := by
      by_contra hdot
      rw [guard, if_neg hdot] at hguard
      cases hguard
    cases value with
    | string s =>
      cases hstring
      exact ⟨name, hvalue, hdot, (Option.some.inj h).symm⟩
    | _ => cases hstring
  · rintro ⟨name, hvalue, hdot, rfl⟩
    refine Option.bind_eq_some_iff.mpr
      ⟨name, ?_, Option.bind_eq_some_iff.mpr ⟨(), if_pos hdot, rfl⟩⟩
    rw [hvalue]
    rfl

/-! ## Reading a chain -/

/-- The layer that is read at a file. -/
def layer? (t : FileTree) (file : FilePath) : Option Layer :=
  (document? t file).bind fun document => file.parent?.map fun dir => ⟨file, dir, document⟩

theorem layer?_of_isRead {l : Layer} (h : l.IsRead t) : layer? t l.file = some l := by
  rw [layer?, h.document, h.dir]
  rfl

theorem layer?_of_document?_eq_none (h : document? t file = none) : layer? t file = none := by
  rw [layer?, h]
  rfl

/-- The layers from a file on, through at most `n` extensions. -/
def layers (t : FileTree) : Nat → FilePath → List Layer
  | 0, file => (layer? t file).toList
  | n + 1, file =>
    match layer? t file with
    | none => []
    | some l => l :: ((extended? t l.dir l.document).map (layers t n)).getD []

theorem layers_zero {l : Layer} (h : l.IsRead t) : layers t 0 l.file = [l] := by
  rw [layers, layer?_of_isRead h]
  rfl

theorem layers_succ {l : Layer} (h : l.IsRead t) (n : Nat) :
    layers t (n + 1) l.file =
      l :: ((extended? t l.dir l.document).map (layers t n)).getD [] := by
  rw [layers, layer?_of_isRead h]

theorem layers_of_document?_eq_none (h : document? t file = none) (n : Nat) :
    layers t n file = [] := by
  cases n with
  | zero => rw [layers, layer?_of_document?_eq_none h]; rfl
  | succ n => rw [layers, layer?_of_document?_eq_none h]

/-- What layers say together, each before those behind it. -/
def merged (chain : List Layer) : Options :=
  ⟨chain.findSome? Layer.baseUrl?, chain.findSome? fun l => l.paths?.map fun ps => (l.dir, ps)⟩

/-- A layer overrides what those behind it say. -/
theorem merged_cons (l : Layer) (chain : List Layer) :
    merged (l :: chain) = (merged chain).override l.dir l.document := by
  unfold merged Options.override Layer.baseUrl? Layer.paths? Layer.compilerOption?
  rw [List.findSome?_cons, List.findSome?_cons]
  cases l.document.get? "compilerOptions" with
  | none => rfl
  | some compiler =>
    cases hbase : (compiler.get? "baseUrl").bind Json.string? <;>
      cases hpaths : (compiler.get? "paths").bind Json.object? <;> simp [hbase, hpaths]

/-- What is made of the layer of a file is made of its value and its directory. -/
theorem map_layer? {α : Type} (f : Layer → α) :
    (layer? t file).map f =
      (document? t file).bind fun document => file.parent?.bind fun dir =>
        some (f ⟨file, dir, document⟩) := by
  rw [layer?]
  cases document? t file with
  | none => rfl
  | some document => cases file.parent? <;> rfl

theorem options?_zero (t : FileTree) (file : FilePath) :
    options? t 0 file =
      (layer? t file).map fun l => Options.override ⟨none, none⟩ l.dir l.document := by
  rw [map_layer?]
  rfl

theorem options?_succ (t : FileTree) (n : Nat) (file : FilePath) :
    options? t (n + 1) file =
      (layer? t file).map fun l =>
        (((extended? t l.dir l.document).bind (options? t n)).getD ⟨none, none⟩).override l.dir
          l.document := by
  rw [map_layer?]
  rfl

/-- **Reading with the options half made is reading the chain** and putting it together. -/
theorem options?_eq (t : FileTree) (n : Nat) (file : FilePath) :
    options? t n file = if layers t n file = [] then none else some (merged (layers t n file)) := by
  induction n generalizing file with
  | zero =>
    rw [options?_zero, layers]
    cases layer? t file with
    | none => rfl
    | some l => exact congrArg some (merged_cons l []).symm
  | succ n ih =>
    rw [options?_succ, layers]
    cases layer? t file with
    | none => rfl
    | some l =>
      have hinherited : ((extended? t l.dir l.document).bind (options? t n)).getD ⟨none, none⟩ =
          merged (((extended? t l.dir l.document).map (layers t n)).getD []) := by
        cases extended? t l.dir l.document with
        | none => rfl
        | some next =>
          rw [Option.bind_some, Option.map_some, Option.getD_some, ih]
          split
          · rename_i hnil
            rw [hnil]
            rfl
          · rfl
      refine congrArg some ?_
      rw [merged_cons, ← hinherited]

/-! ## The chain of a file -/

theorem ExtendsChain.ne_nil {limit : Nat} {chain : List Layer}
    (h : ExtendsChain t limit file chain) : chain ≠ [] := by
  rintro rfl
  cases h.first

/-- A layer is a chain alone if nothing more may be read, or can be. -/
theorem ExtendsChain.singleton {limit : Nat} {l : Layer} (hread : l.IsRead t)
    (hlast : 0 < limit → ∀ file, l.Extends t file → document? t file = none) :
    ExtendsChain t (limit + 1) l.file [l] where
  first := rfl
  read l' hl' := List.mem_singleton.mp hl' ▸ hread
  linked := .singleton l
  length_le := Nat.succ_le_succ limit.zero_le
  complete hlength l' hl' := by
    cases hl'
    exact hlast (Nat.lt_of_succ_lt_succ hlength)

/-- A layer in front of a chain makes a chain. -/
theorem ExtendsChain.cons {limit : Nat} {l : Layer} {chain : List Layer} (hread : l.IsRead t)
    (hextends : l.Extends t file) (h : ExtendsChain t limit file chain) :
    ExtendsChain t (limit + 1) l.file (l :: chain) where
  first := rfl
  read := List.forall_mem_cons.mpr ⟨hread, h.read⟩
  linked := h.linked.cons fun l' hl' => by
    have hfirst := h.first
    rw [hl', Option.map_some, Option.some.injEq] at hfirst
    exact hfirst ▸ hextends
  length_le := Nat.succ_le_succ h.length_le
  complete hlength l' hl' := by
    rw [List.getLast?_cons_of_ne_nil h.ne_nil] at hl'
    exact h.complete (Nat.lt_of_succ_lt_succ hlength) l' hl'

/-- What is left of a chain behind its first layer is a chain. -/
theorem ExtendsChain.tail {limit : Nat} {l l' : Layer} {chain : List Layer}
    (h : ExtendsChain t (limit + 1) file (l :: l' :: chain)) :
    l.Extends t l'.file ∧ ExtendsChain t limit l'.file (l' :: chain) :=
  have hlinked := List.isChain_cons_cons.mp h.linked
  ⟨hlinked.1,
    { first := rfl
      read := (List.forall_mem_cons.mp h.read).2
      linked := hlinked.2
      length_le := Nat.le_of_succ_le_succ h.length_le
      complete := fun hlength last hlast =>
        h.complete (Nat.succ_lt_succ hlength) last
          (by rwa [List.getLast?_cons_of_ne_nil (List.cons_ne_nil l' chain)]) }⟩

/-- There is no other chain than that of the layers. -/
theorem ExtendsChain.eq_layers {n : Nat} {chain : List Layer}
    (h : ExtendsChain t (n + 1) file chain) : chain = layers t n file := by
  induction n generalizing file chain with
  | zero =>
    cases chain with
    | nil => cases h.first
    | cons l rest =>
      cases h.first
      rw [layers_zero (h.read l List.mem_cons_self)]
      have hlength := h.length_le
      cases rest with
      | nil => rfl
      | cons l' rest => simp at hlength
  | succ n ih =>
    cases chain with
    | nil => cases h.first
    | cons l rest =>
      cases h.first
      rw [layers_succ (h.read l List.mem_cons_self), List.cons.injEq]
      refine ⟨rfl, ?_⟩
      cases rest with
      | nil =>
        cases hnext : extended? t l.dir l.document with
        | none => rfl
        | some next =>
          -- what the last layer extends cannot be read, and the limit is not the reason
          have hnone := h.complete (by simp) l rfl next (extended?_eq_some_iff.mp hnext)
          exact (layers_of_document?_eq_none hnone n).symm
      | cons l' rest =>
        obtain ⟨hextends, htail⟩ := h.tail
        rw [extended?_eq_some_iff.mpr hextends]
        exact ih htail

/-- The layers are a chain, if what is read lies in directories. -/
theorem extendsChain_layers
    (hdirs : ∀ file document, document? t file = some document → ∃ dir, file.parent? = some dir)
    (n : Nat) {l : Layer} (h : l.IsRead t) : ExtendsChain t (n + 1) l.file (layers t n l.file) := by
  induction n generalizing l with
  | zero =>
    rw [layers_zero h]
    exact .singleton h (absurd · (Nat.lt_irrefl 0))
  | succ n ih =>
    rw [layers_succ h]
    cases hnext : extended? t l.dir l.document with
    | none =>
      refine .singleton h fun _ file hextends => ?_
      rw [extended?_eq_some_iff.mpr hextends] at hnext
      cases hnext
    | some next =>
      have hextends := extended?_eq_some_iff.mp hnext
      rw [Option.map_some, Option.getD_some]
      cases hdocument : document? t next with
      | none =>
        rw [layers_of_document?_eq_none hdocument]
        refine .singleton h fun _ file hfile => ?_
        rw [extended?_eq_some_iff.mpr hfile] at hnext
        cases hnext
        exact hdocument
      | some document =>
        obtain ⟨dir, hdir⟩ := hdirs next document hdocument
        have hread : Layer.IsRead t ⟨next, dir, document⟩ := ⟨hdocument, hdir⟩
        exact .cons h hextends (ih hread)

/-! ## Loading -/

theorem isFile_of_document? {document : Json} (h : document? t file = some document) :
    t.isFile file = true := by
  unfold document? FileTree.readText at h
  cases hentry : t.entry file with
  | error cause => simp [hentry, bind, Except.bind] at h
  | ok e =>
    cases e with
    | file content executable => simp [FileTree.isFile, hentry, Entry.isFile]
    | directory entries =>
      rw [hentry] at h
      cases h
    | link target =>
      rw [hentry] at h
      cases h

/-- The configuration file of a directory. -/
def configFile? (t : FileTree) (dir : FilePath) : Option FilePath :=
  (["tsconfig.json", "jsconfig.json"].map dir.join).find? t.isFile

/-- Where a directory has a configuration file, whatever is read lies in a directory. -/
theorem exists_parent?_of_document? {dir : FilePath} (h : configFile? t dir = some file)
    {file' : FilePath} {document : Json} (hdocument : document? t file' = some document) :
    ∃ dir', file'.parent? = some dir' := by
  obtain ⟨name, hname, rfl⟩ := List.mem_map.mp (List.mem_of_find?_eq_some h)
  have hisName : FilePath.IsName name := by
    obtain rfl | rfl := List.mem_pair.mp hname
    · exact ⟨by decide, by decide⟩
    · exact ⟨by decide, by decide⟩
  have hmem : .name name ∈ (dir.join name).components := by
    rw [dir.components_join_name hisName]
    exact List.mem_append_right _ List.mem_cons_self
  obtain ⟨entries, htop⟩ := FileTree.exists_directory_of_isFile (List.find?_some h) hmem
  exact FileTree.exists_parent?_of_isFile htop (isFile_of_document? hdocument)

theorem load_eq_none_of_configFile?_eq_none {dir : FilePath} (h : configFile? t dir = none) :
    load t dir = none := by
  unfold configFile? at h
  rw [load, h]
  rfl

theorem load_eq_none_of_document?_eq_none {dir : FilePath} (h : configFile? t dir = some file)
    (hnone : document? t file = none) : load t dir = none := by
  unfold configFile? at h
  rw [load, h, Option.bind_eq_bind, Option.bind_some, options?_eq,
    if_pos (layers_of_document?_eq_none hnone extendsLimit)]
  rfl

theorem map_snd_merged_paths (chain : List Layer) :
    (merged chain).paths.map Prod.snd = chain.findSome? Layer.paths? := by
  simp [merged, List.map_findSome?, Function.comp_def]

/-- The paths are seen from where the first layer that has any lies. -/
theorem exists_find?_of_merged_paths {chain : List Layer} {dir : FilePath}
    {paths : List (String × List String)} (h : (merged chain).paths = some (dir, paths)) :
    ∃ l, chain.find? (fun l => l.paths?.isSome) = some l ∧ dir = l.dir := by
  obtain ⟨before, l, after, hchain, hl, hbefore⟩ := List.findSome?_eq_some_iff.mp h
  obtain ⟨ps, hps, heq⟩ := Option.map_eq_some_iff.mp hl
  refine ⟨l, List.find?_eq_some_iff_append.mpr ⟨by rw [hps]; rfl, before, after, hchain, ?_⟩,
    (Prod.mk.inj heq).1.symm⟩
  intro l' hl'
  simpa using hbefore l' hl'

/-- The configuration that a chain comes to, for a file in a directory. -/
def merge? (home : FilePath) (chain : List Layer) : Option Tsconfig :=
  let options := merged chain
  let paths := options.paths.getD (home, [])
  if options.baseUrl = none ∧ paths.2 = [] then none
  else some ⟨options.baseUrl, options.baseUrl.getD paths.1, paths.2⟩

theorem paths_merged (home : FilePath) (chain : List Layer) :
    ((merged chain).paths.getD (home, [])).2 = (chain.findSome? Layer.paths?).getD [] := by
  rw [← map_snd_merged_paths]
  cases (merged chain).paths <;> rfl

theorem merge?_eq_none_iff {home : FilePath} {chain : List Layer} :
    merge? home chain = none ↔
      chain.findSome? Layer.baseUrl? = none ∧ (chain.findSome? Layer.paths?).getD [] = [] := by
  rw [← paths_merged home chain]
  exact ite_eq_left_iff.trans (not_imp_comm.trans (imp_iff_right nofun))

theorem merges_of_merge?_eq_some {home : FilePath} {chain : List Layer} {c : Tsconfig}
    (h : merge? home chain = some c) : Merges chain c := by
  unfold merge? at h
  dsimp only at h
  split at h
  · cases h
  · rename_i hsome
    cases h
    refine ⟨rfl, paths_merged home chain, fun base hbase => ?_, fun hbase => ?_⟩
    · dsimp only at hbase
      rw [hbase, Option.getD_some]
    · -- without a base there are mappings, so some layer has them
      dsimp only at hbase
      rw [hbase, Option.getD_none]
      cases hpaths : (merged chain).paths with
      | none =>
        rw [hpaths] at hsome
        exact absurd ⟨hbase, rfl⟩ hsome
      | some paths => exact exists_find?_of_merged_paths hpaths

theorem load_eq_merge? {dir home : FilePath} (hfile : configFile? t dir = some file)
    (hhome : file.parent? = some home) (hne : layers t extendsLimit file ≠ []) :
    load t dir = merge? home (layers t extendsLimit file) := by
  unfold configFile? at hfile
  rw [load, hfile, Option.bind_eq_bind, Option.bind_some, options?_eq, if_neg hne, merge?]
  simp only [Option.bind_eq_bind, Option.bind_some, hhome]
  generalize merged (layers t extendsLimit file) = options
  obtain ⟨pathsDir, paths⟩ := options.paths.getD (home, [])
  cases options.baseUrl <;> cases paths <;> rfl

/-- **A directory is configured with what its chain says**, option by option, also where a
configuration extends itself on the way. -/
theorem load_merges_chain (t : FileTree) (dir : FilePath) :
    ((∀ file, configFile? t dir = some file → document? t file = none) → load t dir = none) ∧
    ∀ file document, configFile? t dir = some file → document? t file = some document →
      (∃! chain, ExtendsChain t 6 file chain) ∧
      ∀ chain, ExtendsChain t 6 file chain →
        (load t dir = none ↔
          chain.findSome? Layer.baseUrl? = none ∧ (chain.findSome? Layer.paths?).getD [] = []) ∧
        ∀ c, load t dir = some c → Merges chain c := by
  constructor
  · intro h
    cases hfile : configFile? t dir with
    | none => exact load_eq_none_of_configFile?_eq_none hfile
    | some file => exact load_eq_none_of_document?_eq_none hfile (h file hfile)
  · intro file document hfile hdocument
    have hdirs (file : FilePath) (document : Json) :
        document? t file = some document → ∃ dir, file.parent? = some dir :=
      exists_parent?_of_document? hfile
    obtain ⟨home, hhome⟩ := hdirs file document hdocument
    have hread : Layer.IsRead t ⟨file, home, document⟩ := ⟨hdocument, hhome⟩
    have hchain : ExtendsChain t 6 file (layers t extendsLimit file) :=
      extendsChain_layers hdirs extendsLimit hread
    refine ⟨⟨_, hchain, fun _ => ExtendsChain.eq_layers⟩, fun chain h => ?_⟩
    have heq : chain = layers t extendsLimit file := h.eq_layers
    rw [load_eq_merge? hfile hhome (heq ▸ h.ne_nil), ← heq]
    exact ⟨merge?_eq_none_iff, fun _ => merges_of_merge?_eq_some⟩

/-- Two configurations that extend each other, with mappings in one and a base in the other. -/
def circular : FileTree :=
  let mappings := "\x7b\"extends\": \"./shared/base\", " ++
    "\"compilerOptions\": \x7b\"paths\": \x7b\"@/*\": [\"src/*\"]\x7d\x7d\x7d"
  let base := "\x7b\"extends\": \"../tsconfig.json\", " ++
    "\"compilerOptions\": \x7b\"baseUrl\": \"lib\", \"paths\": \x7b\x7d\x7d\x7d"
  ⟨.directory [("app", .directory [
    ("shared", .directory [("base.json", .file base.toUTF8 false)]),
    ("tsconfig.json", .file mappings.toUTF8 false)])], []⟩

theorem load_merges_chain_circular :
    configFile? circular ⟨"/app"⟩ = some ⟨"/app/tsconfig.json"⟩ ∧
      ∃ chain c, ExtendsChain circular 6 ⟨"/app/tsconfig.json"⟩ chain ∧ Merges chain c ∧
        load circular ⟨"/app"⟩ = some c ∧
        c = ⟨some ⟨"/app/./shared/lib"⟩, ⟨"/app/./shared/lib"⟩, [("@/*", ["src/*"])]⟩ := by
  have hfile : configFile? circular ⟨"/app"⟩ = some ⟨"/app/tsconfig.json"⟩ := by decide +kernel
  have hload : load circular ⟨"/app"⟩ =
      some ⟨some ⟨"/app/./shared/lib"⟩, ⟨"/app/./shared/lib"⟩, [("@/*", ["src/*"])]⟩ := by
    decide +kernel
  obtain ⟨hnone, hchain⟩ := load_merges_chain circular ⟨"/app"⟩
  -- what is loaded was read
  have hread : document? circular ⟨"/app/tsconfig.json"⟩ ≠ none := fun hunread => by
    rw [hnone fun file h => Option.some.inj (hfile.symm.trans h) ▸ hunread] at hload
    cases hload
  obtain ⟨document, hdocument⟩ := Option.ne_none_iff_exists'.mp hread
  obtain ⟨⟨chain, h, -⟩, hmerges⟩ := hchain _ document hfile hdocument
  exact ⟨hfile, chain, _, h, (hmerges chain h).2 _ hload, hload, rfl⟩

end Tsconfig

end RouteAtlas.Alias
