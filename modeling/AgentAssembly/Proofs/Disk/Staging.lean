import AgentAssembly.Proofs.Disk.Mirror

/-!
Installing a package out of a temporary directory. Main statement: whatever its name, the directory
leaves no trace, and the package is installed as with a shelf beside the tree.
-/

namespace AgentAssembly

open AgentAssembly.Path Package Commit

section naming

variable (temp : TempDir) (used : List String)

theorem TempDir.toList_name :
    (temp.name used).toList = ".agent-smith-".toList ++ (temp.token used).toList := by
  rw [name, String.toList_append]

theorem TempDir.name_not_mem {known : List String}
    (hknown : ∀ name ∈ known, ¬ ".agent-smith-".toList <+: name.toList) :
    temp.name used ∉ known := fun hmem =>
  hknown _ hmem (temp.toList_name used ▸ List.prefix_append _ _)

theorem TempDir.count_name : (temp.name used).toList.count '.' = 1 := by
  have hfixed : ".agent-smith-".toList.count '.' = 1 := by decide
  have htoken : (temp.token used).toList.count '.' = 0 := by
    rw [List.count_eq_zero]
    intro hmem
    have halnum := temp.isToken used '.' hmem
    simp at halnum
  rw [temp.toList_name, List.count_append, hfixed, htoken]

/-- The only dot stands in front, where it starts no ending. -/
theorem TempDir.hasExtension_name : hasExtension "py" (temp.name used) = false := by
  rw [← Bool.not_eq_true, hasExtension]
  intro h
  obtain ⟨hsuffix, hlength⟩ : ('.' :: "py".toList) <:+ (temp.name used).toList ∧
      ('.' :: "py".toList).length < (temp.name used).length := by simpa using h
  obtain ⟨front, hfront⟩ := hsuffix
  have hending : ('.' :: "py".toList).count '.' = 1 := by decide
  have hcount := congrArg (List.count '.') hfront
  rw [temp.count_name, List.count_append, hending] at hcount
  cases front with
  | nil =>
    have hshort := congrArg List.length hfront
    rw [List.nil_append, String.length_toList] at hshort
    omega
  | cons c rest =>
    obtain ⟨more, hfixed⟩ : ∃ more, ".agent-smith-".toList = '.' :: more := ⟨_, rfl⟩
    rw [temp.toList_name, hfixed] at hfront
    obtain rfl : c = '.' := (List.cons.inj hfront).1
    simp at hcount

theorem TempDir.hidden {output : String} (havoided : ∀ name ∈ names output, name ∈ used) :
    Hidden (temp.name used) output where
  output hmem := temp.fresh used (havoided _ hmem)
  top := temp.name_not_mem used (by decide)
  directories := temp.name_not_mem used (by decide)
  extension := temp.hasExtension_name used

end naming

section staging

variable {d : Staging} {relative other output content : String} {t u : Tree} {place q : Place}
  {entries : List (String × String)} {files : FileSet}

theorem Package.Owns.eq_of_prefix (h : Owns relative) (hother : Owns other)
    (hbefore : names relative <+: names other) : relative = other := by
  obtain hproper | hsame := (Tree.prefix_iff_of_ne_nil hother.isPlain.names_ne_nil).mp hbefore
  · exact absurd hproper (h.not_before hother)
  · exact h.isPlain.eq_of_names hother.isPlain hsame

theorem Staging.prune_stage : (d.stage output t entries).2.prune d.place = t.prune d.place := by
  induction entries generalizing t with
  | nil => rfl
  | cons e rest ih =>
    obtain ⟨relative, content⟩ := e
    rw [Staging.stage]
    split
    · rw [ih, Tree.prune_insert_below Staging.below_package, Tree.prune_openBelow List.prefix_rfl]
    · rfl

theorem Staging.prune_stage_new (d : Staging) (output : String) (entries : List (String × String))
    (ht : t.WellFormed) (hnew : t.entry? d.place = none) :
    (d.stage output (t.insert d.place .directory) entries).2.prune d.place = t := by
  rw [Staging.prune_stage, Tree.prune_insert_below List.prefix_rfl, ht.prune_eq_self hnew]

theorem Staging.stage_fits (d : Staging) (output : String) (t : Tree)
    (entries : List (String × String)) (h : ∀ e ∈ entries, (names e.1).all Tree.fitsLimit = true) :
    ∃ u, d.stage output t entries = (.ok (), u) := by
  induction entries generalizing t with
  | nil => exact ⟨t, rfl⟩
  | cons e rest ih =>
    obtain ⟨hfirst, hrest⟩ := List.forall_mem_cons.mp h
    obtain ⟨relative, content⟩ := e
    rw [Staging.stage, if_pos hfirst]
    exact ih _ hrest

/-- A file that is staged touches what leads to it, and nothing else. -/
theorem Staging.entry?_stage_first (h : ¬ q <+: d.package relative) :
    Tree.entry? ((t.openBelow d.place ("package" :: names relative).dropLast).insert
      (d.package relative) (.file content)) q = t.entry? q := by
  have hne : q ≠ d.package relative := fun hsame => h (hsame ▸ List.prefix_rfl)
  rw [Tree.entry?_insert_of_ne hne, Tree.entry?_openBelow]
  refine fun hway => h (hway.trans ?_)
  rw [Staging.package, List.prefix_append_right_inj]
  exact List.dropLast_prefix _

theorem Staging.entry?_stage (hstage : d.stage output t entries = (.ok (), u))
    (h : ∀ e ∈ entries, ¬ q <+: d.package e.1) : u.entry? q = t.entry? q := by
  induction entries generalizing t with
  | nil =>
    obtain rfl := (Prod.mk.inj hstage).2
    rfl
  | cons e rest ih =>
    obtain ⟨hfirst, hrest⟩ := List.forall_mem_cons.mp h
    obtain ⟨relative, content⟩ := e
    rw [Staging.stage] at hstage
    split at hstage
    · rw [ih hstage hrest, Staging.entry?_stage_first hfirst]
    · simp at hstage

theorem Staging.entry?_package (hstage : d.stage output t entries = (.ok (), u))
    (howns : ∀ e ∈ entries, Owns e.1) (hdistinct : (entries.map (·.1)).Nodup) :
    ∀ e ∈ entries, u.entry? (d.package e.1) = some (.file e.2) := by
  induction entries generalizing t with
  | nil => simp
  | cons e rest ih =>
    obtain ⟨hfirst, hrest⟩ := List.forall_mem_cons.mp howns
    rw [List.map_cons, List.nodup_cons] at hdistinct
    obtain ⟨relative, content⟩ := e
    rw [Staging.stage] at hstage
    split at hstage
    · refine List.forall_mem_cons.mpr ⟨?_, ih hstage hrest hdistinct.2⟩
      have hne : d.package relative ≠ [] := by simp [Staging.package]
      rw [Staging.entry?_stage hstage, Tree.entry?_insert hne, if_pos rfl]
      intro e he hbefore
      rw [Staging.package, Staging.package, List.prefix_append_right_inj, List.prefix_cons_inj]
        at hbefore
      exact hdistinct.1 (hfirst.eq_of_prefix (hrest e he) hbefore ▸ List.mem_map_of_mem he)
    · simp at hstage

/-- With the package staged in it, a new directory is ready for the commit. -/
theorem followsOpening_of_stage {temp : String} (ht : t.WellFormed)
    (hplace : t.entry? place = some .directory) (hnew : t.entry? (place ++ [temp]) = none)
    (hfiles : ∀ r ∈ files.keys, Owns r)
    (hstage : Staging.stage ⟨place ++ [temp]⟩ output (t.insert (place ++ [temp]) .directory)
      files.entries = (.ok (), u)) :
    FollowsOpening place temp files.keys { toSite := ⟨u, ⟨place ++ [temp]⟩⟩ }
      { toSite := ⟨t, ({} : Shelf files)⟩ } := by
  have hprune : u.prune (place ++ [temp]) = t := by
    have hsame := Staging.prune_stage_new ⟨place ++ [temp]⟩ output files.entries ht hnew
    rwa [hstage] at hsame
  have hpackages := Staging.entry?_package hstage
    (fun e he => hfiles e.1 (List.mem_map_of_mem he)) (Dict.nodup_of_sorted files.sorted_keys)
  refine ⟨⟨⟨rfl, hprune.symm, fun r hr => ?_, fun r hr => ?_⟩, rfl, rfl, by simp⟩, ?_, ht⟩
  · have hnot : ∀ e ∈ files.entries, ¬ Staging.previous ⟨place ++ [temp]⟩ r <+:
        Staging.package ⟨place ++ [temp]⟩ e.1 := by
      simp [Staging.previous, Staging.package]
    have hne : Staging.previous ⟨place ++ [temp]⟩ r ≠ place ++ [temp] := by simp [Staging.previous]
    dsimp only
    rw [Staging.entry?_stage hstage hnot, Tree.entry?_insert_of_ne hne]
    -- Nothing stands below a directory that was not there.
    refine (Option.eq_none_iff_forall_not_mem.mpr fun e he => ?_).symm
    simp [ht.isDirectory_of_prefix he Staging.below_previous hne.symm] at hnew
  · obtain ⟨content, hcontent⟩ := Dict.mem_keys.mp hr
    rw [hcontent]
    exact hpackages (r, content) (Dict.get?_eq_some_iff.mp hcontent)
  · have hown : place ++ [temp] ≠ [] := by simp
    have habove : ¬ place ++ [temp] <+: place := fun hbefore => by simpa using hbefore.length_le
    rw [← hplace, ← hprune, Tree.entry?_prune hown, if_neg habove]

end staging

section installing

variable {temp : TempDir} {fails : Nat → Bool} {above output : String} {files : FileSet} {t : Tree}

/-- Where there is a place for a temporary directory, a package is installed as with a shelf, unless
the name of one of its files is too long. -/
theorem FileSet.install_of_directory {place : Place} (ht : t.WellFormed)
    (hfiles : ∀ r ∈ files.keys, Owns r) (hlocate : t.locate above = .ok place)
    (hplace : t.entry? place = some .directory) :
    files.install temp fails above output t = shelved fails output files t ∨
      (¬ ∀ r ∈ files.keys, (names r).all Tree.fitsLimit = true) ∧
        ∃ fault, files.install temp fails above output t = (.error fault, t) := by
  rw [FileSet.install, TempDir.within, hlocate]
  dsimp only
  rw [if_pos hplace]
  generalize hused : t.children place ++ names output = used
  have hnew : t.entry? (place ++ [temp.name used]) = none := by
    refine Option.eq_none_iff_forall_not_mem.mpr fun e he => ?_
    have hchild := List.mem_append_left (names output) (Tree.mem_children.mpr ⟨e, he⟩)
    exact temp.fresh used (hused ▸ hchild)
  have hidden : Hidden (temp.name used) output :=
    temp.hidden used fun _ hname => hused ▸ List.mem_append_right _ hname
  have hown : place ++ [temp.name used] ≠ [] := by simp
  cases hstage : Staging.stage ⟨place ++ [temp.name used]⟩ output
      (t.insert (place ++ [temp.name used]) .directory) files.entries with
  | mk result u =>
    cases result with
    | error fault =>
      refine .inr ⟨fun hfits => ?_, fault, ?_⟩
      · obtain ⟨v, hok⟩ := Staging.stage_fits ⟨place ++ [temp.name used]⟩ output
          (t.insert (place ++ [temp.name used]) .directory) files.entries
          fun e he => hfits e.1 (List.mem_map_of_mem he)
        simp [hok] at hstage
      · have hsame := Staging.prune_stage_new ⟨place ++ [temp.name used]⟩ output files.entries
          ht hnew
        rw [hstage] at hsame
        exact congrArg (Prod.mk _) hsame
    | ok =>
      have hcommit : Lockstep (apply fails output files) (apply fails output files) _ _ _ _ :=
        lockstep_apply hidden hfiles (followsOpening_of_stage ht hplace hnew hfiles hstage)
      obtain ⟨hresult, hsite⟩ := runOn_of_lockstep (R := Mirrors (place ++ [temp.name used]) [])
        (hcommit.imp (fun _ _ _ _ hq => ⟨hq.1, hq.2.site⟩) fun _ _ hq => hq)
        fun _ _ hq => hq.rollback hown
      exact .inl (Prod.ext hresult hsite.tree.symm)

theorem FileSet.install_cases (temp : TempDir) (fails : Nat → Bool) (above output : String)
    (ht : t.WellFormed) (hfiles : ∀ r ∈ files.keys, Owns r) :
    files.install temp fails above output t = shelved fails output files t ∨
      ∃ fault, files.install temp fails above output t = (.error fault, t) := by
  cases hlocate : t.locate above with
  | error fault => exact .inr ⟨_, by rw [FileSet.install, TempDir.within, hlocate]⟩
  | ok place =>
    by_cases hplace : t.entry? place = some .directory
    · exact (FileSet.install_of_directory ht hfiles hlocate hplace).imp_right And.right
    · refine .inr ⟨⟨above, .system⟩, ?_⟩
      rw [FileSet.install, TempDir.within, hlocate]
      exact if_neg hplace

theorem FileSet.install_eq_shelved (ht : t.WellFormed) (hfiles : ∀ r ∈ files.keys, Owns r)
    (hfits : ∀ r ∈ files.keys, (names r).all Tree.fitsLimit = true)
    (habove : t.isDirectory above = true) :
    files.install temp fails above output t = shelved fails output files t := by
  obtain ⟨place, hlocate, hplace⟩ := Tree.isDirectory_iff_locate.mp habove
  exact (FileSet.install_of_directory ht hfiles hlocate hplace).resolve_right
    fun hlong => hlong.1 hfits

end installing

end AgentAssembly
