import AgentAssembly.Proofs.Disk.Succession
import AgentAssembly.Proofs.Generation

/-!
Where generations write, whatever the names of a project are. Main statement: each path of a
rendering is one that the package owns, so it stays below the output directory and a later
generation without it removes its file; and the output directory itself is one identifier below
the base when nothing else is asked for.
-/

namespace AgentAssembly

open AgentAssembly.Path Commit Identifier

variable {p : Project} {files : FileSet} {t : Tree} {output relative : String}

section paths

/-- A path that stays where it starts and leads through one directory at most. -/
structure IsConfined (path : String) : Prop where
  not_absolute : isAbsolute path = false
  never_up : ¬ ['.', '.'] <:+: path.toList
  separators : path.toList.count '/' ≤ 1

/-- The only dot of a module is that of its ending, and its only separator stands behind its
directory. -/
theorem count_modulePath {directory stem : String} (h : directory ∈ Package.directories)
    (hstem : stem = "__init__" ∨ IsIdentifier stem) :
    (directory ++ "/" ++ stem ++ ".py").toList.count '.' = 1 ∧
      (directory ++ "/" ++ stem ++ ".py").toList.count '/' = 1 := by
  have hdirectory : ∀ d ∈ Package.directories,
      d.toList.count '.' = 0 ∧ d.toList.count '/' = 0 := by decide
  have hslash : "/".toList = ['/'] := by decide
  obtain ⟨hdot, hseparator⟩ := hdirectory _ h
  have hstem' : ∀ c, isPart c = false → stem.toList.count c = 0 := fun c hc =>
    List.count_eq_zero.mpr (Package.not_mem_of_isStem hstem hc)
  simp only [String.toList_append, Package.toList_ending, hslash, List.count_append, hdot,
    hseparator, hstem' '.' (by decide), hstem' '/' (by decide)]
  decide

theorem Package.IsPackagePath.isConfined (h : Package.IsPackagePath relative) :
    IsConfined relative := by
  have hrelative := h.owns.isPlain.isAbsolute_eq
  obtain h | ⟨directory, hdirectory, stem, hstem, rfl⟩ := h
  · have htop : ∀ name ∈ Package.topFiles,
        ¬ ['.', '.'] <:+: name.toList ∧ name.toList.count '/' ≤ 1 := by decide
    exact ⟨hrelative, (htop _ h).1, (htop _ h).2⟩
  · obtain ⟨hdot, hseparator⟩ := count_modulePath hdirectory hstem
    refine ⟨hrelative, fun hup => ?_, hseparator.le⟩
    have htwice := hup.sublist.count_le '.'
    rw [hdot] at htwice
    exact absurd htwice (by decide)

/-- Without a directory that is asked for, the package goes into one named for the project. -/
theorem Project.outputDirectory_eq_join (h : p.buildContext.outputDirectory = none)
    (base : String) : p.outputDirectory base none = join base (moduleName p.name) := by
  rw [outputDirectory, h, Option.getD_none, Option.getD_none]

theorem segments_moduleName (label : String) : segments (moduleName label) = [moduleName label] :=
  segments_of_no_separator ((isIdentifier_moduleName label).not_mem (by decide))

end paths

section removal

/-- A file on the disk that generations into its output directory take for their own. Each search
for stale files finds it unless its package has it or a call fails, and each package without it
that is written there removes it. -/
structure IsReplaceable (t : Tree) (output relative : String) : Prop where
  found : ∀ (staging : Staging) fails (files : FileSet), relative ∉ files.keys →
    (∃ stale, runOn ⟨t, staging⟩ (staleFiles fails output files) = (.ok stale, ⟨t, staging⟩) ∧
        relative ∈ stale) ∨
      (∃ n, fails n = true) ∧ ∃ fault,
        runOn ⟨t, staging⟩ (staleFiles fails output files) = (.error fault, ⟨t, staging⟩)
  removed : ∀ (p : Project) (files : FileSet) temp fails stale t', p.render = .ok files →
    relative ∉ files.keys → files.write temp fails output t = (.ok stale, t') →
    relative ∈ stale ∧ t'.isPresent (join output relative) = false

theorem runOn_staleFiles (staging : Staging) (fails : Nat → Bool) (output : String)
    (files : FileSet) (t : Tree) :
    (∃ stale, runOn ⟨t, staging⟩ (staleFiles fails output files) = (.ok stale, ⟨t, staging⟩) ∧
        ∀ relative, relative ∈ stale ↔ IsStale t output files relative) ∨
      (∃ n, fails n = true) ∧ ∃ fault,
        runOn ⟨t, staging⟩ (staleFiles fails output files) = (.error fault, ⟨t, staging⟩) := by
  obtain ⟨stale, q, ⟨hidle, -, hstale⟩, hrun⟩ | ⟨fault, q, ⟨hidle, hfails⟩, hrun⟩ :=
    runOn_of_meets (meets_staleFiles (p := { toSite := ⟨t, staging⟩ }))
  · exact .inl ⟨stale, by rw [hrun, hidle.site], hstale⟩
  · refine .inr ⟨hfails, fault, ?_⟩
    rw [hrun, hidle.site, hidle.journal]
    rfl

theorem isReplaceable_of_isFile (ht : t.WellFormed) (howns : Package.Owns relative)
    (hfile : t.isFile (join output relative) = true) : IsReplaceable t output relative := by
  have hstale : ∀ files : FileSet, relative ∉ files.keys → IsStale t output files relative := by
    intro files hkey
    refine .of_isFile howns ?_ hfile
    rwa [← Bool.not_eq_true, Dict.contains_iff_mem_keys]
  refine ⟨fun staging fails files hkey => ?_,
    fun p files temp fails stale t' hrender hkey hwrite => ?_⟩
  · refine (runOn_staleFiles staging fails output files t).imp_left ?_
    rintro ⟨stale, hrun, hmem⟩
    exact ⟨stale, hrun, (hmem relative).mpr (hstale files hkey)⟩
  · have hfiles : ∀ r ∈ files.keys, Package.Owns r := fun r hr => Package.owns_of_render hrender hr
    exact (FileSet.write_eq_ok ht hfiles hwrite).2.2 relative (hstale files hkey)

end removal

namespace Project

/-- A rendering has only paths of a package, whatever names it was made from. A file that was
written stands below the output directory, and as long as it stands there it is replaceable. Where
no directory is asked for, the package goes into one below the base whose name is an identifier. -/
theorem generation_confined (p : Project) :
    (∀ files, p.render = .ok files → ∀ relative ∈ files.keys,
      Package.IsPackagePath relative ∧ IsConfined relative ∧
      ∀ temp fails output t stale t', t.WellFormed →
        files.write temp fails output t = (.ok stale, t') →
        t'.WellFormed ∧ t'.isFile (join output relative) = true ∧
        ∀ t'', t''.WellFormed → t''.isFile (join output relative) = true →
          IsReplaceable t'' output relative) ∧
    (p.buildContext.outputDirectory = none → ∃ name, IsIdentifier name ∧ segments name = [name] ∧
      ∀ base, p.outputDirectory base none = join base name) := by
  refine ⟨fun files hrender relative hkey => ?_, fun hnone => ?_⟩
  · have hpath := Package.isPackagePath_of_mem_paths ((Package.mem_keys_of_render hrender).mp hkey)
    refine ⟨hpath, hpath.isConfined, fun temp fails output t stale t' ht hwrite => ?_⟩
    obtain ⟨hwell, hstands, -⟩ :=
      FileSet.write_eq_ok ht (fun r hr => Package.owns_of_render hrender hr) hwrite
    exact ⟨hwell, hstands relative hkey,
      fun t'' ht'' hfile => isReplaceable_of_isFile ht'' hpath.owns hfile⟩
  · exact ⟨moduleName p.name, isIdentifier_moduleName p.name, segments_moduleName p.name,
      outputDirectory_eq_join hnone⟩

end Project

def strayProject : Project where
  id := ⟨0⟩
  name := "../../etc"
  agents := [{ name := "class", model := "m" }]
  createdAt := ⟨0⟩
  updatedAt := ⟨0⟩

theorem taken_stray (h : relative ∈ Package.paths strayProject ∨
      relative ∈ Package.paths soloProject ∨ IsSearched t "o" relative)
    (hfound : ∀ other, Package.Owns other → ∀ content,
      t.entry? (target "o" other) = some (.file content) → other ∈ Package.paths strayProject) :
    IsTaken (join "o" relative) := by
  have hknown : ∀ known ∈ Package.paths strayProject ++ Package.paths soloProject ++
      Package.topFiles ++ Package.directories, IsTaken (join "o" known) := by decide
  obtain hpath | hpath | htop | hdirectory | ⟨howns, hcontent⟩ := h
  · exact hknown relative (by simp [hpath])
  · exact hknown relative (by simp [hpath])
  · exact hknown relative (by simp [htop])
  · exact hknown relative (by simp [hdirectory])
  · exact hknown relative (by simp [hfound relative howns _ hcontent])

namespace Project

/-- The agent's module avoids the keyword, and the next project in the same directory removes it. -/
theorem generation_confined_strayProject :
    ∃ files files' stale stale' t t', strayProject.render = .ok files ∧
      soloProject.render = .ok files' ∧ files.write .longest quiet "o" {} = (.ok stale, t) ∧
      files'.write .longest quiet "o" t = (.ok stale', t') ∧
      Package.IsPackagePath "agents/class_.py" ∧ IsConfined "agents/class_.py" ∧
      t.isFile (join "o" "agents/class_.py") = true ∧ "agents/class_.py" ∈ stale' ∧
      t'.isPresent (join "o" "agents/class_.py") = false ∧
      ∃ name, IsIdentifier name ∧ segments name = [name] ∧
        strayProject.outputDirectory "out" none = join "out" name := by
  have hnames : names "o" = ["o"] := by decide
  have hup : ".." ∉ names "o" := by simp [hnames]
  have hclear : ∀ t : Tree, t.WellFormed → t.Clear (names "o").dropLast := fun t ht =>
    ht.clear_of_directory (by rw [hnames]; exact Tree.entry?_nil)
  obtain ⟨entries, hentries⟩ := Package.exists_inserts (p := strayProject) (by decide)
  obtain ⟨entries', hentries'⟩ := Package.exists_inserts (p := soloProject) (by decide)
  have hrender := hentries.render_eq
  have hrender' := hentries'.render_eq
  have hwell : Tree.WellFormed {} := by decide
  have hnone : ∀ other, Package.Owns other → ∀ content,
      Tree.entry? {} (target "o" other) = some (.file content) →
      other ∈ Package.paths strayProject := by
    rintro other - content hcontent
    rw [target, hnames, Tree.entry?_of_ne_nil (by simp)] at hcontent
    cases hcontent
  obtain ⟨-, -, ⟨stale, t, hwrite, -, -, hrealizes⟩ | ⟨-, -, hblocked⟩⟩ :=
    write_rendered hrender hwell (by decide) hup (hclear _ hwell)
      (fun _ h => taken_stray (h.imp_right .inr) hnone) .longest
  case inr => exact absurd unobstructed_empty hblocked
  obtain ⟨hconfined, hdirectory⟩ := generation_confined strayProject
  obtain ⟨howned, hstays, hwritten⟩ := hconfined _ hrender "agents/class_.py"
    ((Package.mem_keys_of_render hrender).mpr (by decide))
  obtain ⟨hwell', hfile, hreplaceable⟩ := hwritten .longest quiet "o" {} stale t hwell hwrite
  have hfound : ∀ other, Package.Owns other → ∀ content,
      t.entry? (target "o" other) = some (.file content) →
      other ∈ Package.paths strayProject := by
    intro other howns content hcontent
    have hget := (hrealizes.owned other howns content).mp hcontent
    exact (Package.mem_keys_of_render hrender).mp (Dict.mem_keys.mpr ⟨_, hget⟩)
  obtain ⟨-, -, ⟨stale', t', hwrite', -⟩ | ⟨-, -, hblocked⟩⟩ :=
    write_rendered hrender' hwell' (by decide) hup (hclear _ hwell')
      (fun _ h => taken_stray (.inr h) hfound) .longest
  case inr => exact absurd (unobstructed_empty.of_realizes hrealizes) hblocked
  have hgone : "agents/class_.py" ∉ Package.paths soloProject := by decide
  obtain ⟨hmem, habsent⟩ := (hreplaceable t hwell' hfile).removed soloProject _ .longest quiet
    stale' t' hrender' (mt (Package.mem_keys_of_render hrender').mp hgone) hwrite'
  obtain ⟨name, hname, hsegments, hjoin⟩ := hdirectory rfl
  exact ⟨_, _, stale, stale', t, t', hrender, hrender', hwrite, hwrite', howned, hstays, hfile,
    hmem, habsent, name, hname, hsegments, hjoin "out"⟩

end Project

end AgentAssembly
