import AgentAssembly.Generation
import AgentAssembly.Proofs.Disk.Effect
import AgentAssembly.Proofs.Disk.Rollback

/-!
Generation to disk, without failures of the system. Main statement: a valid project is generated
exactly when nothing is in the way of its package, the tree is then known entry by entry, and
otherwise only directories above the output directory have been made.
-/

namespace AgentAssembly

open AgentAssembly.Path Commit

variable {t t' : Tree} {p : Project} {files : FileSet} {output relative content : String}

section writing

theorem fitsLimit_of_layout (hlayout : Layout output files.keys) :
    ∀ relative ∈ files.keys, (names relative).all Tree.fitsLimit = true := by
  intro relative hrelative
  have hfits := (hlayout.down relative hrelative).fits
  rw [names_join (hlayout.plain relative hrelative).isAbsolute_eq] at hfits
  exact List.all_eq_true.mpr fun name hname => hfits name (List.mem_append_right _ hname)

theorem write_quiet (ht : t.WellFormed) (hclear : t.Clear (names output).dropLast)
    (houtput : LeadsDown output) (hlayout : Layout output files.keys)
    (howns : ∀ relative ∈ files.keys, Package.Owns relative)
    (hdown : ∀ relative, IsSearched t output relative → LeadsDown (join output relative))
    (temp : TempDir) :
    ∃ t₀, t₀.WellFormed ∧ t.Opens (names output).dropLast t₀ ∧
      ((∃ stale t', files.write temp quiet output t = (.ok stale, t') ∧
        (∀ relative ∈ files.keys, t.Ready (target output relative)) ∧
        AreStale t files output stale ∧ Lands output files stale t₀ t') ∨
      ∃ fault, files.write temp quiet output t = (.error fault, t₀) ∧
        ¬ ∀ relative ∈ files.keys, t.Ready (target output relative)) := by
  obtain ⟨t₀, hcreate, hwell, hopen⟩ := ht.createDirectories houtput.directoryOf
    (names_directoryOf output ▸ hclear)
  rw [names_directoryOf] at hopen
  have hfile : Tree.SameFiles t t₀ := hopen.sameFiles hclear
  have hready : (∀ relative ∈ files.keys, t₀.Ready (target output relative)) ↔
      ∀ relative ∈ files.keys, t.Ready (target output relative) := by
    refine forall₂_congr fun relative hrelative => Tree.ready_iff_of_opens hclear hopen ?_
    intro hbefore
    have hlength := hbefore.length_le
    have hpos := List.length_pos_iff.mpr (hlayout.plain relative hrelative).names_ne_nil
    rw [target, List.length_append, List.length_dropLast] at hlength
    omega
  have hdown₀ : ∀ relative, IsSearched t₀ output relative → LeadsDown (join output relative) :=
    fun relative hsearched => hdown relative (hsearched.of_sameFiles hfile)
  have habove : t₀.isDirectory (directoryOf output) = true := by
    rw [hwell.isDirectory_iff houtput.directoryOf, names_directoryOf]
    exact (hopen _).1 List.prefix_rfl
  have hwrite : files.write temp quiet output t = shelved quiet output files t₀ := by
    rw [FileSet.write, hcreate]
    exact FileSet.install_eq_shelved hwell howns (fitsLimit_of_layout hlayout) habove
  refine ⟨t₀, hwell, hopen, ?_⟩
  obtain ⟨stale, q, ⟨hall, hstale, hlands⟩, hrun⟩ | ⟨fault, q, hnot, hrun⟩ :=
    runOn_of_meets (meets_apply_quiet hwell hlayout hdown₀)
  · refine .inl ⟨stale, q.tree, ?_, hready.mp hall, hstale.of_sameFiles hfile, hlands⟩
    rw [hwrite, shelved, hrun]
  · have hshelved : shelved quiet output files t₀ =
        (.error fault, (q.toSite.rollback q.journal).tree) := by rw [shelved, hrun]
    have hkept := tree_of_shelved hwell hlayout.plain hshelved
    exact .inr ⟨fault, by rw [hwrite, hshelved, hkept], fun hall => hnot (hready.mpr hall)⟩

end writing

section package

/-- Nothing is in the way of a package: no file where it needs a directory, and no directory where
it has a file. -/
structure Unobstructed (p : Project) (t : Tree) (output : String) : Prop where
  base : ∀ content, t.entry? (names output) ≠ some (.file content)
  agents : ∀ content, t.entry? (names output ++ ["agents"]) ≠ some (.file content)
  tools : p.generatedTools ≠ [] →
    ∀ content, t.entry? (names output ++ ["tools"]) ≠ some (.file content)
  rendered : ∀ relative ∈ Package.paths p, t.entry? (target output relative) ≠ some .directory

theorem dropLast_target (h : IsPlain relative) :
    (target output relative).dropLast = names output ++ (names relative).dropLast :=
  List.dropLast_append_of_ne_nil h.names_ne_nil

theorem leadsDown_join (houtput : output ≠ "") (hup : ".." ∉ names output)
    (hplain : IsPlain relative) (htaken : IsTaken (join output relative)) :
    LeadsDown (join output relative) where
  toIsTaken := htaken
  ne_empty := by
    rw [join_eq hplain.isAbsolute_eq]
    split <;> simp [houtput]
  not_up := by
    rw [names_join hplain.isAbsolute_eq, List.mem_append, not_or]
    exact ⟨hup, fun hmem => (hplain.isName_of_mem hmem).ne_up rfl⟩

theorem layout_of_render (hfiles : p.render = .ok files) (houtput : output ≠ "")
    (hup : ".." ∉ names output)
    (htaken : ∀ relative ∈ Package.paths p, IsTaken (join output relative)) :
    Layout output files.keys where
  not_empty := houtput
  plain relative h := (Package.owns_of_render hfiles h).isPlain
  down relative h := leadsDown_join houtput hup (Package.owns_of_render hfiles h).isPlain
    (htaken relative ((Package.mem_keys_of_render hfiles).mp h))
  apart relative h other hother hbefore := by
    have howns := Package.owns_of_render hfiles hother
    rw [dropLast_target howns.isPlain, target, List.prefix_append_right_inj] at hbefore
    exact (Package.owns_of_render hfiles h).not_before howns hbefore

theorem isPlain_of_isSearched (h : IsSearched t output relative) : IsPlain relative := by
  obtain htop | hdirectory | ⟨howns, -⟩ := h
  · exact isPlain_of_isName (Package.isName_of_mem_topFiles _ htop)
  · exact isPlain_of_isName (Package.isName_of_mem_directories _ hdirectory)
  · exact howns.isPlain

theorem exists_way_iff (hfiles : p.render = .ok files) {place : Place} :
    (∃ relative ∈ files.keys, place <+: (target output relative).dropLast) ↔
      place <+: names output ∨ place = names output ++ ["agents"] ∨
        p.generatedTools ≠ [] ∧ place = names output ++ ["tools"] := by
  have hway : (∃ relative ∈ files.keys, place <+: (target output relative).dropLast) ↔
      ∃ above, (∃ relative ∈ Package.paths p, (names relative).dropLast = above) ∧
        place <+: names output ++ above := by
    constructor
    · rintro ⟨relative, hrelative, hplace⟩
      have hplain := (Package.owns_of_render hfiles hrelative).isPlain
      rw [dropLast_target hplain] at hplace
      exact ⟨_, ⟨relative, (Package.mem_keys_of_render hfiles).mp hrelative, rfl⟩, hplace⟩
    · rintro ⟨-, ⟨relative, hrelative, rfl⟩, hplace⟩
      have hkey := (Package.mem_keys_of_render hfiles).mpr hrelative
      refine ⟨relative, hkey, ?_⟩
      rwa [dropLast_target (Package.owns_of_render hfiles hkey).isPlain]
  simp only [hway, Package.exists_dropLast_names_iff]
  constructor
  · rintro ⟨above, rfl | rfl | ⟨htools, rfl⟩, hplace⟩
    · exact .inl (by simpa using hplace)
    · exact (List.prefix_concat_iff.mp hplace).elim (fun h => .inr (.inl h)) .inl
    · exact (List.prefix_concat_iff.mp hplace).elim (fun h => .inr (.inr ⟨htools, h⟩)) .inl
  · rintro (hplace | rfl | ⟨htools, rfl⟩)
    · exact ⟨[], .inl rfl, by simpa using hplace⟩
    · exact ⟨["agents"], .inr (.inl rfl), List.prefix_rfl⟩
    · exact ⟨["tools"], .inr (.inr ⟨htools, rfl⟩), List.prefix_rfl⟩

theorem ready_iff_unobstructed (hfiles : p.render = .ok files)
    (hclear : t.Clear (names output).dropLast) :
    (∀ relative ∈ files.keys, t.Ready (target output relative)) ↔ Unobstructed p t output := by
  constructor
  · intro hready
    have hway : ∀ place, (∃ relative ∈ files.keys, place <+: (target output relative).dropLast) →
        ∀ content, t.entry? place ≠ some (.file content) := by
      rintro place ⟨relative, hrelative, hbefore⟩
      exact (hready relative hrelative).clear place hbefore
    simp only [exists_way_iff hfiles] at hway
    exact
      { base := hway _ (.inl List.prefix_rfl)
        agents := hway _ (.inr (.inl rfl))
        tools := fun htools => hway _ (.inr (.inr ⟨htools, rfl⟩))
        rendered := fun relative h =>
          (hready relative ((Package.mem_keys_of_render hfiles).mpr h)).not_directory }
  · intro h relative hrelative
    refine ⟨fun place hplace => ?_, h.rendered _ ((Package.mem_keys_of_render hfiles).mp hrelative)⟩
    obtain hplace | rfl | ⟨htools, rfl⟩ :=
      (exists_way_iff hfiles).mp ⟨relative, hrelative, hplace⟩
    · exact (hclear.of_dropLast h.base) place hplace
    · exact h.agents
    · exact h.tools htools

/-- The tree that a generation leads to. The files that the package owns are those it has, all
other files are as before, and no directory is gone or new but for those of the package and those
above it. -/
structure Realizes (p : Project) (files : FileSet) (output : String) (t t' : Tree) : Prop where
  rendered : ∀ relative ∈ files.keys, Package.Owns relative
  owned : ∀ relative, Package.Owns relative → ∀ content,
    t'.entry? (target output relative) = some (.file content) ↔ files.get? relative = some content
  others : ∀ place, (∀ relative, Package.Owns relative → place ≠ target output relative) →
    ∀ content, t'.entry? place = some (.file content) ↔ t.entry? place = some (.file content)
  directories : ∀ place, t'.entry? place = some .directory ↔
    t.entry? place = some .directory ∨ place <+: names output ∨
      place = names output ++ ["agents"] ∨
      p.generatedTools ≠ [] ∧ place = names output ++ ["tools"]

theorem realizes_of_lands {t₀ : Tree} {stale : List String} (hfiles : p.render = .ok files)
    (hlayout : Layout output files.keys) (hclear : t.Clear (names output).dropLast)
    (hopen : t.Opens (names output).dropLast t₀)
    (hready : ∀ relative ∈ files.keys, t.Ready (target output relative))
    (hstale : AreStale t files output stale) (hlands : Lands output files stale t₀ t') :
    Realizes p files output t t' where
  rendered _ h := Package.owns_of_render hfiles h
  owned relative howns content := by
    refine ⟨fun h => ?_, hlands.placed relative content⟩
    obtain ⟨other, content', hget, hsame, hplaced⟩ | ⟨-, hmade⟩ | ⟨-, hgone⟩ |
      ⟨-, hother, hfresh, hkept⟩ := hlands.entry?_cases (target output relative)
    · have hplain := hlayout.plain other (Dict.mem_keys.mpr ⟨_, hget⟩)
      obtain rfl := eq_of_target howns.isPlain hplain hsame
      obtain rfl : content = content' := by simpa [h] using hplaced
      exact hget
    · simp [h] at hmade
    · simp [h] at hgone
    · -- A file that the package owned and does not have would be stale.
      rw [hkept, hopen.sameFiles hclear] at h
      cases hget : files.get? relative with
      | some content' => exact absurd rfl (hother relative (Dict.mem_keys.mpr ⟨_, hget⟩))
      | none =>
        have habsent : files.contains relative = false := by simp [Dict.contains, hget]
        have hmem := (hstale.mem_iff relative).mpr ⟨habsent, howns, content, h⟩
        exact absurd rfl (hfresh relative hmem)
  others place hplace content := by
    obtain ⟨relative, content', hget, hsame, -⟩ | ⟨⟨relative, hrelative, hbefore⟩, hmade⟩ |
      ⟨⟨relative, hrelative, hsame⟩, -⟩ | ⟨-, -, -, hkept⟩ := hlands.entry?_cases place
    · have howns := Package.owns_of_render hfiles (Dict.mem_keys.mpr ⟨_, hget⟩)
      exact absurd hsame (hplace relative howns)
    · simp [hmade, (hready relative hrelative).clear place hbefore content]
    · exact absurd hsame (hplace relative ((hstale.mem_iff relative).mp hrelative).2.1)
    · rw [hkept, hopen.sameFiles hclear]
  directories place := by
    rw [← exists_way_iff hfiles]
    obtain ⟨relative, content, hget, rfl, hplaced⟩ | ⟨hway, hmade⟩ |
      ⟨⟨relative, hrelative, rfl⟩, hgone⟩ | ⟨hway, -, -, hkept⟩ := hlands.entry?_cases place
    · have hkey : relative ∈ files.keys := Dict.mem_keys.mpr ⟨_, hget⟩
      have hnot : ¬ ∃ other ∈ files.keys,
          target output relative <+: (target output other).dropLast := by
        rintro ⟨other, hother, hbefore⟩
        exact hlayout.apart relative hkey other hother hbefore
      simp [hplaced, (hready relative hkey).not_directory, hnot]
    · simp [hmade, hway]
    · obtain ⟨-, -, content, hcontent⟩ := (hstale.mem_iff relative).mp hrelative
      have hnot : ¬ ∃ other ∈ files.keys,
          target output relative <+: (target output other).dropLast := by
        rintro ⟨other, hother, hbefore⟩
        exact (hready other hother).clear _ hbefore content hcontent
      simp [hgone, hcontent, hnot]
    · have hnot : ¬ place <+: (names output).dropLast := fun hbefore =>
        hway ((exists_way_iff hfiles).mpr (.inl (hbefore.trans (List.dropLast_prefix _))))
      rw [hkept, or_iff_left hway, (hopen place).2 hnot]

/-- What a rendering leads to on the disk, when its paths are within the limits. -/
theorem write_rendered (hfiles : p.render = .ok files) (ht : t.WellFormed) (houtput : output ≠ "")
    (hup : ".." ∉ names output) (hclear : t.Clear (names output).dropLast)
    (htaken : ∀ relative, relative ∈ Package.paths p ∨ IsSearched t output relative →
      IsTaken (join output relative)) (temp : TempDir) :
    ∃ t₀, t.Opens (names output).dropLast t₀ ∧
      ((∃ stale t', files.write temp quiet output t = (.ok stale, t') ∧
        Unobstructed p t output ∧ AreStale t files output stale ∧ Realizes p files output t t') ∨
      ∃ fault, files.write temp quiet output t = (.error fault, t₀) ∧
        ¬ Unobstructed p t output) := by
  have hlayout := layout_of_render hfiles houtput hup fun relative hrelative =>
    htaken relative (.inl hrelative)
  have hdown : ∀ relative, IsSearched t output relative → LeadsDown (join output relative) :=
    fun relative hrelative => leadsDown_join houtput hup (isPlain_of_isSearched hrelative)
      (htaken relative (.inr hrelative))
  have hagents : IsSearched t output "agents" := .directory (by decide)
  have hbase : LeadsDown output := (hdown _ hagents).of_isUpward
    (isUpward_join houtput (isPlain_of_isSearched hagents).isAbsolute_eq)
  obtain ⟨t₀, -, hopen, hwritten⟩ := write_quiet ht hclear hbase hlayout
    (fun _ h => Package.owns_of_render hfiles h) hdown temp
  refine ⟨t₀, hopen, ?_⟩
  obtain ⟨stale, t', hwrite, hready, hstale, hlands⟩ | ⟨fault, hwrite, hnot⟩ := hwritten
  · exact .inl ⟨stale, t', hwrite, (ready_iff_unobstructed hfiles hclear).mp hready, hstale,
      realizes_of_lands hfiles hlayout hclear hopen hready hstale hlands⟩
  · exact .inr ⟨fault, hwrite, mt (ready_iff_unobstructed hfiles hclear).mpr hnot⟩

theorem unobstructed_empty : Unobstructed p {} output := by
  have hnone : ∀ place ≠ [], Tree.entry? {} place = none := by
    intro place hplace
    rw [Tree.entry?_of_ne_nil hplace]
    rfl
  refine ⟨fun content hbase => ?_, fun content => ?_, fun _ content => ?_, fun relative h => ?_⟩
  · by_cases hroot : names output = []
    · rw [hroot, Tree.entry?_nil] at hbase
      simp at hbase
    · simp [hnone _ hroot] at hbase
  · simp [hnone]
  · simp [hnone]
  · have hne := (Package.isPackagePath_of_mem_paths h).owns.isPlain.names_ne_nil
    rw [target, hnone _ (List.append_ne_nil_of_right_ne_nil _ hne)]
    simp

theorem Unobstructed.of_realizes {p' : Project} (h : Unobstructed p' t output)
    (hrealizes : Realizes p files output t t') : Unobstructed p' t' output := by
  have hbase : ∀ relative, Package.Owns relative → names output ≠ target output relative := by
    intro relative howns hsame
    exact howns.isPlain.names_ne_nil (List.append_right_eq_self.mp hsame.symm)
  have hdirectory : ∀ directory ∈ Package.directories, ∀ relative, Package.Owns relative →
      names output ++ [directory] ≠ target output relative := by
    have htop : ∀ directory ∈ Package.directories, directory ∉ Package.topFiles := by decide
    intro directory hmem relative howns hsame
    have hnames : [directory] = names relative := List.append_cancel_left hsame
    obtain ⟨name, hname, htarget⟩ | ⟨directory', -, name, htarget⟩ := howns.names_cases
    · obtain rfl : directory = name := by simpa [htarget] using hnames
      exact htop directory hmem hname
    · simp [htarget] at hnames
  refine ⟨fun content hfile => ?_, fun content hfile => ?_, fun htools content hfile => ?_,
    fun relative hrelative hmade => ?_⟩
  · exact h.base content ((hrealizes.others _ hbase content).mp hfile)
  · exact h.agents content
      ((hrealizes.others _ (hdirectory "agents" (by decide)) content).mp hfile)
  · exact h.tools htools content
      ((hrealizes.others _ (hdirectory "tools" (by decide)) content).mp hfile)
  · have howns := (Package.isPackagePath_of_mem_paths hrelative).owns
    obtain hbefore | hprefix | hsame | ⟨-, hsame⟩ := (hrealizes.directories _).mp hmade
    · exact h.rendered relative hrelative hbefore
    · have hlength := hprefix.length_le
      have hpos := List.length_pos_iff.mpr howns.isPlain.names_ne_nil
      rw [target, List.length_append] at hlength
      omega
    · exact hdirectory "agents" (by decide) relative howns hsame.symm
    · exact hdirectory "tools" (by decide) relative howns hsame.symm

end package

namespace Project

theorem exists_preview_of_findings (h : p.validate.findings = []) :
    ∃ files, p.render = .ok files ∧ p.preview = .ok files := by
  obtain ⟨entries, hentries⟩ := Package.exists_inserts h
  exact ⟨_, hentries.render_eq, hentries.preview_eq h⟩

/-- Below an output directory that is not empty, never leads up and has no file above it, a valid
project is generated exactly when its package is unobstructed, and the tree is then the one before
with the files of the preview for those that the package owned. A generation that fails makes no
more than the directories above the output directory. -/
theorem generate_exact (h : p.validate.findings = []) (ht : t.WellFormed)
    (houtput : output ≠ "") (hup : ".." ∉ names output)
    (hclear : t.Clear (names output).dropLast)
    (htaken : ∀ relative, relative ∈ Package.paths p ∨ IsSearched t output relative →
      IsTaken (join output relative)) (temp : TempDir) :
    ∃ files, p.preview = .ok files ∧
      ((p.generate temp quiet output t).1.isOk = true ↔ Unobstructed p t output) ∧
      (Unobstructed p t output → ∃ stale t', p.generate temp quiet output t =
          (.ok ⟨output, files.keys, stale⟩, t') ∧
        AreStale t files output stale ∧ Realizes p files output t t') ∧
      (¬ Unobstructed p t output → ∃ fault t', p.generate temp quiet output t =
          (.error (.writing fault), t') ∧ t.Opens (names output).dropLast t') := by
  obtain ⟨files, hrender, hpreview⟩ := exists_preview_of_findings h
  obtain ⟨t₀, hopen, hwritten⟩ := write_rendered hrender ht houtput hup hclear htaken temp
  refine ⟨files, hpreview, ?_⟩
  obtain ⟨stale, t', hwrite, hfree, hstale, hrealizes⟩ | ⟨fault, hwrite, hblocked⟩ := hwritten
  · have hgenerate : p.generate temp quiet output t = (.ok ⟨output, files.keys, stale⟩, t') := by
      simp [generate, hpreview, hwrite]
    exact ⟨by simp [hgenerate, hfree, Except.isOk, Except.toBool],
      fun _ => ⟨stale, t', hgenerate, hstale, hrealizes⟩, fun hnot => absurd hfree hnot⟩
  · have hgenerate : p.generate temp quiet output t = (.error (.writing fault), t₀) := by
      simp [generate, hpreview, hwrite]
    exact ⟨by simp [hgenerate, hblocked, Except.isOk, Except.toBool],
      fun hfree => absurd hfree hblocked, fun _ => ⟨fault, t₀, hgenerate, hopen⟩⟩

theorem target_solo : target "solo" relative = "solo" :: names relative := by
  have hnames : names "solo" = ["solo"] := by decide
  rw [target, hnames, List.singleton_append]

theorem taken_solo
    (h : relative ∈ Package.paths soloProject ∨ IsSearched soloTree "solo" relative) :
    IsTaken (join "solo" relative) := by
  have hknown : ∀ known ∈ Package.paths soloProject ++ Package.topFiles ++ Package.directories ++
      ["notes", "tools/search.py"], IsTaken (join "solo" known) := by decide
  obtain hpath | htop | hdirectory | ⟨howns, hcontent⟩ := h
  · exact hknown relative (by simp [hpath])
  · exact hknown relative (by simp [htop])
  · exact hknown relative (by simp [hdirectory])
  · have hentries : ∀ e ∈ soloTree.entries.entries, e.2 = .directory ∨
        ∃ known ∈ ["agent.py", "notes", "tools/search.py"],
          IsPlain known ∧ e.1 = "solo" :: names known := by decide
    rw [target_solo, Tree.entry?_of_ne_nil (by simp), Dict.get?_eq_some_iff] at hcontent
    obtain hdirectory | ⟨known, hmem, hplain, hnames⟩ := hentries _ hcontent
    · simp at hdirectory
    · obtain rfl := howns.isPlain.eq_of_names hplain (List.cons.inj hnames).2
      refine hknown relative ?_
      obtain rfl | rfl | rfl : relative = "agent.py" ∨ relative = "notes" ∨
          relative = "tools/search.py" := by simpa using hmem
      all_goals simp [Package.topFiles]

/-- The agent takes the place of an earlier package. Its file is written over, the tool it no longer
has is removed, and the file of another hand stays. -/
theorem generate_exact_soloProject :
    ∃ files stale t', soloProject.preview = .ok files ∧
      soloProject.generate .longest quiet "solo" soloTree = (.ok ⟨"solo", files.keys, stale⟩, t') ∧
      "tools/search.py" ∈ stale ∧ t'.entry? ["solo", "notes"] = some (.file "kept") := by
  have hfindings : soloProject.validate.findings = [] := by decide
  have hwell : soloTree.WellFormed := by decide
  have hnames : names "solo" = ["solo"] := by decide
  have hbase : soloTree.entry? ["solo"] = some .directory := by decide
  have hagents : soloTree.entry? ["solo", "agents"] = none := by decide
  have htools : soloTree.entry? ["solo", "tools"] = some .directory := by decide
  have hsearch : soloTree.entry? ["solo", "tools", "search.py"] = some (.file "old") := by
    decide
  have hnotes : soloTree.entry? ["solo", "notes"] = some (.file "kept") := by decide
  have hclear : soloTree.Clear (names "solo").dropLast :=
    hwell.clear_of_directory (by rw [hnames]; exact Tree.entry?_nil)
  have hfree : Unobstructed soloProject soloTree "solo" :=
    { base := by simp [hnames, hbase]
      agents := by simp [hnames, hagents]
      tools := by simp [hnames, htools]
      rendered := by decide }
  obtain ⟨files, hpreview, -, hdone, -⟩ :=
    generate_exact hfindings hwell (by decide) (by decide) hclear (fun _ => taken_solo) .longest
  obtain ⟨stale, t', hgenerate, hstale, hrealizes⟩ := hdone hfree
  refine ⟨files, stale, t', hpreview, hgenerate, ?_, ?_⟩
  · obtain ⟨files', hrender, hpreview'⟩ := exists_preview_of_findings hfindings
    obtain rfl : files = files' := Except.ok.inj (hpreview.symm.trans hpreview')
    have hsplit : names "tools/search.py" = ["tools", "search.py"] := by decide
    have hpaths : "tools/search.py" ∉ Package.paths soloProject := by decide
    refine (hstale.mem_iff _).mpr ⟨?_, ?_, "old", by rw [target_solo, hsplit, hsearch]⟩
    · rw [← Bool.not_eq_true, Dict.contains_iff_mem_keys, Package.mem_keys_of_render hrender]
      exact hpaths
    · exact .inr ⟨"tools", by decide, "search.py", by decide, by decide, rfl⟩
  · refine (hrealizes.others _ (fun relative howns hsame => ?_) _).mpr hnotes
    rw [target_solo] at hsame
    obtain ⟨-, hsame⟩ := List.cons.inj hsame
    obtain ⟨name, hname, hrelative⟩ | ⟨directory, -, name, hrelative⟩ := howns.names_cases
    · obtain rfl : "notes" = name := by simpa [hrelative] using hsame
      exact absurd hname (by decide)
    · simp [hrelative] at hsame

end Project

end AgentAssembly
