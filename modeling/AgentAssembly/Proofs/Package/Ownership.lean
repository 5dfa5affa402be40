import AgentAssembly.Proofs.Disk.Path
import AgentAssembly.Proofs.Package.Files

/-!
What a package owns below its directory. Main statement: a rendering gives exactly the paths of
the package, and it owns them all.
-/

namespace AgentAssembly.Package

open AgentAssembly.Path Identifier

variable {p : Project} {relative directory name : String} {files : FileSet}

def Owns (relative : String) : Prop :=
  relative ∈ topFiles ∨
    ∃ directory ∈ directories, ∃ name, IsName name ∧ hasExtension "py" name = true ∧
      relative = directory ++ "/" ++ name

theorem isName_of_mem_topFiles : ∀ name ∈ topFiles, IsName name := by decide

theorem isName_of_mem_directories : ∀ directory ∈ directories, IsName directory := by decide

theorem isPlain_append_name (h : directory ∈ directories) (hname : IsName name) :
    IsPlain (directory ++ "/" ++ name) :=
  isPlain_append (isPlain_of_isName (isName_of_mem_directories _ h)) (isPlain_of_isName hname)

theorem names_append_name (h : directory ∈ directories) (hname : IsName name) :
    names (directory ++ "/" ++ name) = [directory, name] := by
  rw [names_append, names_of_isName (isName_of_mem_directories _ h), names_of_isName hname,
    List.singleton_append]

theorem Owns.isPlain (h : Owns relative) : IsPlain relative := by
  obtain h | ⟨directory, hdirectory, name, hname, -, rfl⟩ := h
  · exact isPlain_of_isName (isName_of_mem_topFiles _ h)
  · exact isPlain_append_name hdirectory hname

theorem Owns.names_cases (h : Owns relative) :
    (∃ name ∈ topFiles, names relative = [name]) ∨
      ∃ directory ∈ directories, ∃ name, names relative = [directory, name] := by
  obtain h | ⟨directory, hdirectory, name, hname, -, rfl⟩ := h
  · exact .inl ⟨relative, h, names_of_isName (isName_of_mem_topFiles _ h)⟩
  · exact .inr ⟨directory, hdirectory, name, names_append_name hdirectory hname⟩

theorem Owns.not_before {other : String} (h : Owns relative) (hother : Owns other) :
    ¬ names relative <+: (names other).dropLast := by
  have hnot : ∀ name ∈ topFiles, name ∉ directories := by decide
  intro hbefore
  have hlength := hbefore.length_le
  obtain ⟨name, hname, hnames⟩ | ⟨directory, -, name, hnames⟩ := h.names_cases
  · obtain ⟨name', -, hother⟩ | ⟨directory, hdirectory, name', hother⟩ := hother.names_cases
    · simp [hnames, hother] at hlength
    · obtain rfl : name = directory := by simpa [hnames, hother] using hbefore
      exact hnot name hname hdirectory
  · obtain ⟨name', -, hother⟩ | ⟨directory', -, name', hother⟩ := hother.names_cases
    · simp [hnames, hother] at hlength
    · simp [hnames, hother] at hlength

def IsPackagePath (relative : String) : Prop :=
  relative ∈ topFiles ∨
    ∃ directory ∈ directories, ∃ stem, (stem = "__init__" ∨ IsIdentifier stem) ∧
      relative = directory ++ "/" ++ stem ++ ".py"

theorem toList_ending : ".py".toList = ['.', 'p', 'y'] := by decide

theorem not_mem_of_isStem {stem : String} (h : stem = "__init__" ∨ IsIdentifier stem) {c : Char}
    (hc : isPart c = false) : c ∉ stem.toList := by
  obtain rfl | h := h
  · have hinit : "__init__".toList.all isPart = true := by decide
    intro hmem
    rw [List.all_eq_true.mp hinit c hmem] at hc
    cases hc
  · exact h.not_mem hc

theorem isName_moduleFile {stem : String} (h : stem = "__init__" ∨ IsIdentifier stem) :
    IsName (stem ++ ".py") := by
  have hchar : ∀ c, isPart c = false → c ∉ ['.', 'p', 'y'] → c ∉ (stem ++ ".py").toList := by
    intro c hpart hending
    rw [String.toList_append, toList_ending, List.mem_append, not_or]
    exact ⟨not_mem_of_isStem h hpart, hending⟩
  have hne : ∀ s ∈ ["", ".", ".."], stem ++ ".py" ≠ s := by
    have hshort : ∀ s ∈ ["", ".", ".."], s.length < ".py".length := by decide
    intro s hs heq
    have hlength := congrArg String.length heq
    rw [String.length_append] at hlength
    have hs := hshort s hs
    omega
  exact ⟨hne _ (by simp), hne _ (by simp), hne _ (by simp), hchar _ (by decide) (by simp),
    hchar _ (by decide) (by simp)⟩

theorem hasExtension_moduleFile {stem : String} (h : stem ≠ "") :
    hasExtension "py" (stem ++ ".py") = true := by
  have hending : ".py".toList = '.' :: "py".toList := by decide
  have hshort : ('.' :: "py".toList).length = ".py".length := by decide
  have hpos : 0 < stem.length := by
    rw [← String.length_toList]
    exact List.length_pos_iff.mpr (by simpa using h)
  rw [hasExtension, String.toList_append, hending, String.length_append]
  simp only [hshort, Bool.and_eq_true, decide_eq_true_eq, List.isSuffixOf_iff_suffix]
  exact ⟨List.suffix_append _ _, Nat.lt_add_of_pos_left hpos⟩

theorem IsPackagePath.owns (h : IsPackagePath relative) : Owns relative := by
  obtain h | ⟨directory, hdirectory, stem, hstem, rfl⟩ := h
  · exact .inl h
  · have hne : stem ≠ "" := by
      obtain rfl | hidentifier := hstem
      · decide
      · simpa using hidentifier.toList_ne_nil
    exact .inr ⟨directory, hdirectory, _, isName_moduleFile hstem, hasExtension_moduleFile hne,
      String.append_assoc⟩

theorem isPackagePath_moduleFile {d : String} (h : d ∈ directories) (label : String) :
    IsPackagePath (d ++ "/" ++ moduleName label ++ ".py") :=
  .inr ⟨d, h, _, .inr (isIdentifier_moduleName label), rfl⟩

theorem isPackagePath_of_mem_fixedPaths : ∀ path ∈ fixedPaths, IsPackagePath path := by
  have hcases : ∀ path ∈ fixedPaths, path ∈ topFiles ∨
      ∃ directory ∈ directories, path = directory ++ "/" ++ "__init__" ++ ".py" := by
    decide
  intro path hpath
  obtain h | ⟨directory, hdirectory, rfl⟩ := hcases path hpath
  · exact .inl h
  · exact .inr ⟨directory, hdirectory, "__init__", .inl rfl, rfl⟩

theorem isPackagePath_of_mem_paths (h : relative ∈ paths p) : IsPackagePath relative := by
  rw [paths, List.mem_append, List.mem_append] at h
  obtain (h | h) | h := h
  · exact isPackagePath_of_mem_fixedPaths _ ((framePaths_sublist p).subset h)
  · obtain ⟨a, -, rfl⟩ := List.mem_map.mp h
    exact isPackagePath_moduleFile (d := "agents") (by decide) a.name
  · obtain ⟨t, -, rfl⟩ := List.mem_map.mp h
    exact isPackagePath_moduleFile (d := "tools") (by decide) t.name

theorem dropLast_names_moduleFile {d : String} (h : d ∈ directories) (label : String) :
    (names (d ++ "/" ++ moduleName label ++ ".py")).dropLast = [d] := by
  have hfile := isName_moduleFile (.inr (isIdentifier_moduleName label))
  rw [String.append_assoc, names_append_name h hfile]
  rfl

theorem dropLast_names_of_mem_paths (h : relative ∈ paths p) :
    (names relative).dropLast = [] ∨ (names relative).dropLast = ["agents"] ∨
      p.generatedTools ≠ [] ∧ (names relative).dropLast = ["tools"] := by
  rw [paths, List.mem_append, List.mem_append] at h
  obtain (h | h) | h := h
  · have hfixed : ∀ path ∈ fixedPaths, path ≠ "tools/__init__.py" →
        (names path).dropLast = [] ∨ (names path).dropLast = ["agents"] := by decide
    by_cases htools : relative = "tools/__init__.py"
    · have hgenerated : p.generatedTools ≠ [] := by
        intro hnone
        rw [framePaths, if_pos hnone, htools] at h
        split at h <;> simp at h
      subst htools
      exact .inr (.inr ⟨hgenerated, by decide⟩)
    · exact (hfixed relative ((framePaths_sublist p).subset h) htools).imp_right .inl
  · obtain ⟨a, -, rfl⟩ := List.mem_map.mp h
    exact .inr (.inl (dropLast_names_moduleFile (d := "agents") (by decide) a.name))
  · obtain ⟨t, ht, rfl⟩ := List.mem_map.mp h
    exact .inr (.inr ⟨List.ne_nil_of_mem ht,
      dropLast_names_moduleFile (d := "tools") (by decide) t.name⟩)

/-- The directories of the paths: that of the package, that of the agents, and that of the tools
if there are generated ones. -/
theorem exists_dropLast_names_iff {place : List String} :
    (∃ relative ∈ paths p, (names relative).dropLast = place) ↔
      place = [] ∨ place = ["agents"] ∨ p.generatedTools ≠ [] ∧ place = ["tools"] := by
  constructor
  · rintro ⟨relative, hrelative, rfl⟩
    exact dropLast_names_of_mem_paths hrelative
  · rintro (rfl | rfl | ⟨hgenerated, rfl⟩)
    · exact ⟨"agent.py", by simp [paths, framePaths], by decide⟩
    · exact ⟨"agents/__init__.py", by simp [paths, framePaths], by decide⟩
    · exact ⟨"tools/__init__.py", by simp [paths, framePaths, hgenerated], by decide⟩

theorem exists_inserts_of_render (h : p.render = .ok files) :
    ∃ entries, Inserts p entries ∧ files = .ofList entries := by
  rw [Project.render] at h
  split at h
  · simp at h
  · rename_i agents hagents
    split at h
    · simp at h
    · rename_i root hroot
      exact ⟨_, ⟨agents, root, hagents, hroot, rfl⟩, (Except.ok.inj h).symm⟩

/-- The files around agents and tools are written last, so nothing takes their place. -/
theorem get?_of_mem_frameFiles (h : p.render = .ok files) {path content : String}
    (hmem : ∀ root, (path, content) ∈ frameFiles p root) : files.get? path = some content := by
  obtain ⟨entries, ⟨agents, root, -, -, rfl⟩, rfl⟩ := exists_inserts_of_render h
  have hfixed : fixedPaths.Nodup := by decide
  have hnodup : ((frameFiles p root).map (·.1)).Nodup :=
    (framePaths_perm p root).nodup_iff.mpr ((framePaths_sublist p).nodup hfixed)
  obtain ⟨before, after, hsplit⟩ := List.append_of_mem (hmem root)
  rw [hsplit, List.map_append, List.map_cons, List.nodup_middle, List.nodup_cons] at hnodup
  rw [hsplit, ← List.append_assoc]
  exact Dict.get?_ofList_of_split fun hbefore => hnodup.1 (List.mem_append_right _ hbefore)

theorem mem_keys_of_render (h : p.render = .ok files) :
    relative ∈ files.keys ↔ relative ∈ paths p := by
  obtain ⟨entries, hentries, rfl⟩ := exists_inserts_of_render h
  rw [← (map_fst_perm_paths hentries).mem_iff, ← Dict.contains_iff_mem_keys,
    Dict.contains_ofList]

theorem owns_of_render (h : p.render = .ok files) (hrelative : relative ∈ files.keys) :
    Owns relative :=
  (isPackagePath_of_mem_paths ((mem_keys_of_render h).mp hrelative)).owns

end AgentAssembly.Package
