import RouteAtlas.Proofs.Alias.Resolution

/-!
# What a specifier resolves to is there

A specifier can be relative or absolute, and each dialect has ways of its own to make paths of the
others: keys with stars, roots, patterns, directories of modules.  However a path was made, it is
only where probing starts, and probing answers nothing but regular files.  So **what is resolved is
a regular file**, whatever a configuration says (`Config.isFile_of_resolve`), and whichever
configurations the directories have (`isFile_of_resolveUnder`).

A question that was asked before is not looked into again.  Its answer is a file of the tree as it
was then.
-/

set_option autoImplicit false

namespace RouteAtlas.Alias

variable {t : FileTree} {specifier : String} {p : FilePath}

theorem isFile_of_probe {base : FilePath} (h : probe t base = some p) : t.isFile p = true :=
  isFile_of_probeWith h

/-! ## The dialects -/

theorem Tsconfig.isFile_of_resolve {c : Tsconfig} (h : c.resolve t specifier = some p) :
    t.isFile p = true := by
  rcases Option.or_eq_some_iff.mp h with hpaths | ⟨-, hbase⟩
  · obtain ⟨target, -, hprobe⟩ := List.exists_of_findSome?_eq_some hpaths
    exact isFile_of_probe hprobe
  · obtain ⟨base, -, hprobe⟩ := Option.bind_eq_some_iff.mp hbase
    exact isFile_of_probe hprobe

theorem Babel.isFile_of_find {c : Babel} {base : FilePath} (h : c.find t base = some p) :
    t.isFile p = true := by
  unfold find at h
  split at h
  · exact isFile_of_probe h
  · exact isFile_of_probeWith h

theorem Babel.isFile_of_target? {c : Babel} {target : String} (h : c.target? t target = some p) :
    t.isFile p = true := by
  unfold target? at h
  split at h
  · exact isFile_of_find h
  · split at h
    · exact isFile_of_find h
    · cases h

theorem Babel.isFile_of_resolve {c : Babel} (h : c.resolve t specifier = some p) :
    t.isFile p = true := by
  rcases Option.or_eq_some_iff.mp h with halias | ⟨-, hroot⟩
  · obtain ⟨target, -, htarget⟩ := Option.bind_eq_some_iff.mp halias
    exact isFile_of_target? htarget
  · obtain ⟨root, -, hfind⟩ := List.exists_of_findSome?_eq_some hroot
    exact isFile_of_find hfind

theorem Jest.isFile_of_target? {c : Jest} {group : Nat → List Char} {target : String}
    (h : c.target? t group target = some p) : t.isFile p = true := by
  unfold target? at h
  dsimp only at h
  split at h
  · exact isFile_of_probe h
  · exact isFile_of_probe h
  · cases h

theorem Jest.isFile_of_resolve {c : Jest} (h : c.resolve t specifier = some p) :
    t.isFile p = true := by
  unfold resolve at h
  dsimp only at h
  split at h
  · obtain ⟨target, -, htarget⟩ := List.exists_of_findSome?_eq_some h
    exact isFile_of_target? htarget
  · obtain ⟨dir, -, hprobe⟩ := List.exists_of_findSome?_eq_some h
    exact isFile_of_probe hprobe

theorem Metro.isFile_of_resolve {c : Metro} (h : c.resolve t specifier = some p) :
    t.isFile p = true := by
  obtain ⟨⟨target, rest⟩, -, hprobe⟩ := Option.bind_eq_some_iff.mp h
  exact isFile_of_probe hprobe

/-- **A configuration maps specifiers to regular files only**, whatever it says. -/
theorem Config.isFile_of_resolve {c : Config} (h : c.resolve t specifier = some p) :
    t.isFile p = true := by
  cases c with
  | tsconfig c => exact c.isFile_of_resolve h
  | babel c => exact c.isFile_of_resolve h
  | jest c => exact c.isFile_of_resolve h
  | metro c => exact c.isFile_of_resolve h

/-! ## The resolver -/

variable {root importer : FilePath}

theorem isFile_of_pointedTo (h : pointedTo t importer specifier = some p) : t.isFile p = true := by
  obtain ⟨parent, -, h⟩ := Option.bind_eq_some_iff.mp h
  split at h
  · exact isFile_of_probe h
  · split at h
    · exact isFile_of_probe h
    · cases h

/-- The configurations need not be those of the tree. -/
theorem isFile_of_resolveUnder {configs : Dialect → FilePath → Option Config}
    (h : resolveUnder configs t root importer specifier = some p) : t.isFile p = true := by
  unfold resolveUnder at h
  split at h
  · obtain ⟨place, -, hmapped⟩ := List.exists_of_findSome?_eq_some h
    obtain ⟨c, -, hresolve⟩ := Option.bind_eq_some_iff.mp hmapped
    exact c.isFile_of_resolve hresolve
  · exact isFile_of_pointedTo h

/-- **A question that was not asked before is answered with a regular file**, or not at all. -/
theorem isFile_of_resolve {c : Cache}
    (hnew : c.answers.lookup (importer.components, specifier) = none)
    (h : (resolve t root importer specifier c).1 = some p) : t.isFile p = true := by
  rw [resolve_fst, hnew, Option.getD_none, resolveAnew_fst] at h
  exact isFile_of_resolveUnder h

end RouteAtlas.Alias
