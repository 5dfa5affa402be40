import AgentAssembly.Proofs.Disk.Growth
import AgentAssembly.Proofs.Disk.Shelf
import AgentAssembly.Proofs.Package.Ownership

/-!
What the steps of a commit do, whichever calls fail. Main statement: the search for stale files
changes nothing, finds them all unless a call fails, and gives them in order.
-/

namespace AgentAssembly.Commit

open AgentAssembly.Path

variable {κ : Type} {p q r : Progress κ} {fails : Nat → Bool} {output relative : String}
  {files : FileSet}

structure Idle (p q : Progress κ) : Prop where
  site : q.toSite = p.toSite
  journal : q.journal = p.journal

theorem Idle.called (p : Progress κ) (calls : Nat) : Idle p { p with calls } := ⟨rfl, rfl⟩

theorem Idle.trans (h : Idle p q) (h' : Idle q r) : Idle p r :=
  ⟨h'.site.trans h.site, h'.journal.trans h.journal⟩

/-- Parking takes an entry out of the tree. It fails on a call or for want of an entry. -/
theorem meets_park {p : Progress (Shelf files)} {change : Place → String → Change} :
    Meets (park fails output relative change) p
      (fun _ q => ∃ place e calls, p.tree.locate (join output relative) = .ok place ∧
        p.tree.entry? place = some e ∧
        q = { toSite := Shelf.put p.toSite place relative e,
              journal := change place relative :: p.journal, calls })
      (fun _ q => Idle p q ∧ ((∃ n, fails n = true) ∨ ∀ place,
        p.tree.locate (join output relative) = .ok place → p.tree.entry? place = none)) := by
  simp only [park, meets_bind, meets_call, meets_locate, meets_get, Shelf.park_eq]
  split
  · exact ⟨.called p _, .inl ⟨_, ‹_›⟩⟩
  · split
    · exact ⟨.called p _, .inl ⟨_, ‹_›⟩⟩
    · refine ⟨fun place hlocate => ?_, fun fault hlocate => ⟨.called p _, .inr ?_⟩⟩
      · cases he : p.tree.entry? place with
        | some previous => exact meets_note.mpr ⟨place, previous, _, hlocate, he, rfl⟩
        | none =>
          refine meets_refuse.mpr ⟨.called p _, .inr fun place' hlocate' => ?_⟩
          rw [hlocate] at hlocate'
          exact Except.ok.inj hlocate' ▸ he
      · intro place hlocate'
        rw [hlocate] at hlocate'
        simp at hlocate'

/-- A new file is put where its path leads. -/
theorem meets_deliver {p : Progress (Shelf files)} {content : String}
    (hnew : files.get? relative = some content) :
    Meets (deliver fails output relative) p
      (fun place q => p.tree.locate (join output relative) = .ok place ∧ ∃ calls,
        q = { p with tree := p.tree.insert place (.file content), calls })
      (fun _ q => Idle p q ∧ ((∃ n, fails n = true) ∨ ∃ fault,
        p.tree.locate (join output relative) = .error fault)) := by
  simp only [deliver, meets_bind, meets_call, meets_locate, meets_get, Shelf.deliver_eq, hnew,
    Option.map_some, meets_modify, meets_pure]
  split
  · exact ⟨.called p _, .inl ⟨_, ‹_›⟩⟩
  · exact ⟨fun place hlocate => ⟨hlocate, _, rfl⟩, fun fault hlocate =>
      ⟨.called p _, .inr ⟨fault, hlocate⟩⟩⟩

section opening

variable {I : Progress κ → Prop} {E : WriteFault → Progress κ → Prop}

/-- What calls and new directories keep is kept where directories are made, and in the end the
first of the paths leads to a directory. -/
theorem meets_ensureDirectory {paths : List String} (hcalled : ∀ q n, I q → I { q with calls := n })
    (hcreated : ∀ q path place t n, I q → path ∈ paths →
      q.tree.createDirectory path = .ok (place, t) →
      I { q with tree := t, journal := .created place :: q.journal, calls := n })
    (hfailed : ∀ fault q, I q → E fault q) (h : I p) :
    Meets (ensureDirectory fails paths) p
      (fun _ q => I q ∧ ∀ path ∈ paths.head?, q.tree.isDirectory path = true) E := by
  induction paths generalizing p with
  | nil => exact meets_pure.mpr ⟨h, by simp⟩
  | cons path above ih =>
    have hfirst := hcalled p (p.calls + 1) h
    simp only [ensureDirectory, meets_bind, meets_call, meets_get]
    split
    · exact hfailed _ _ hfirst
    · split
      · rename_i hlook
        exact meets_pure.mpr ⟨hfirst, by simp [Tree.isDirectory, hlook]⟩
      · exact meets_refuse.mpr (hfailed _ _ hfirst)
      · rw [meets_bind]
        have habove := ih (fun q path place t n hq hpath =>
          hcreated q path place t n hq (List.mem_cons_of_mem _ hpath)) hfirst
        refine habove.imp (fun _ q hq => ?_) fun _ _ hq => hq
        have hagain := hcalled q (q.calls + 1) hq.1
        simp only [meets_bind, meets_call, meets_get]
        split
        · exact hfailed _ _ hagain
        · split
          · rename_i hcreate
            refine meets_note.mpr ⟨hcreated { q with calls := q.calls + 1 } path _ _ _ hagain
              List.mem_cons_self hcreate, ?_⟩
            simpa using Tree.isDirectory_of_createDirectory hcreate
          · exact meets_refuse.mpr (hfailed _ _ hagain)
      · exact meets_refuse.mpr (hfailed _ _ hfirst)

/-- A file has room once the directory that holds it is there and it is no directory itself. -/
theorem meets_prepare (hcalled : ∀ q n, I q → I { q with calls := n })
    (hcreated : ∀ q directory path place t n, I q →
      parent? (join output relative) = some directory → path ∈ withAncestors directory →
      q.tree.createDirectory path = .ok (place, t) →
      I { q with tree := t, journal := .created place :: q.journal, calls := n })
    (hfailed : ∀ fault q, I q → E fault q) (h : I p) :
    Meets (prepare fails output relative) p
      (fun _ q => I q ∧ q.tree.isDirectory (join output relative) = false ∧
        ∀ directory, parent? (join output relative) = some directory →
          q.tree.isDirectory directory = true) E := by
  have hchecked : ∀ q, (I q ∧ ∀ directory, parent? (join output relative) = some directory →
      q.tree.isDirectory directory = true) → Meets
      (if q.tree.isDirectory (join output relative) then
        refuse (join output relative) .directory else pure ()) q
      (fun _ q => I q ∧ q.tree.isDirectory (join output relative) = false ∧
        ∀ directory, parent? (join output relative) = some directory →
          q.tree.isDirectory directory = true) E := by
    intro q hq
    split
    · exact meets_refuse.mpr (hfailed _ _ hq.1)
    · rename_i hfree
      exact meets_pure.mpr ⟨hq.1, by simpa using hfree, hq.2⟩
  unfold prepare
  dsimp only
  split
  · rename_i hnone
    simp only [meets_bind, meets_get]
    exact hchecked p ⟨h, by simp [hnone]⟩
  · rename_i directory hparent
    obtain ⟨rest, hrest, -⟩ := climbs_withAncestors directory
    simp only [meets_bind, meets_get]
    refine (meets_ensureDirectory hcalled
      (fun q path place t n hq => hcreated q directory path place t n hq hparent) hfailed h).imp
      (fun _ q hq => hchecked q ⟨hq.1, fun other hother => ?_⟩) fun _ _ hq => hq
    obtain rfl : directory = other := Option.some.inj (hparent.symm.trans hother)
    exact hq.2 directory (by simp [hrest])

end opening

section stale

def IsModule (t : Tree) (output directory relative : String) : Prop :=
  ∃ place name, t.isDirectory (join output directory) = true ∧
    t.locate (join output directory) = .ok place ∧ name ∈ t.children place ∧
    t.isFile (join (join output directory) name) = true ∧ hasExtension "py" name = true ∧
    relative = directory ++ "/" ++ name

def IsStale (t : Tree) (output : String) (files : FileSet) (relative : String) : Prop :=
  files.contains relative = false ∧
    (relative ∈ Package.topFiles ∧ t.isFile (join output relative) = true ∨
      ∃ directory ∈ Package.directories, IsModule t output directory relative)

theorem IsStale.owns {t : Tree} (h : t.WellFormed) (hstale : IsStale t output files relative) :
    Package.Owns relative := by
  obtain ⟨-, ⟨htop, -⟩ | ⟨directory, hdirectory, place, name, -, -, hchild, -, hending, rfl⟩⟩ :=
    hstale
  · exact .inl htop
  · obtain ⟨e, he⟩ := Tree.mem_children.mp hchild
    have hname := ((h.admits _ _ he).names name (by simp)).1
    exact .inr ⟨directory, hdirectory, name, hname, hending, rfl⟩

theorem IsStale.isFile {t : Tree} (h : t.WellFormed) (hstale : IsStale t output files relative) :
    t.isFile (join output relative) = true := by
  obtain ⟨-, ⟨-, hfile⟩ | ⟨directory, hdirectory, place, name, -, -, hchild, hfile, -, rfl⟩⟩ :=
    hstale
  · exact hfile
  · obtain ⟨e, he⟩ := Tree.mem_children.mp hchild
    have hname : IsName name := ((h.admits _ _ he).names name (by simp)).1
    rwa [join_join (Package.isName_of_mem_directories _ hdirectory)
      (isPlain_of_isName hname).isAbsolute_eq] at hfile

/-- A file that is there is reached through a directory that the search looks into. -/
theorem isModule_of_isFile {t : Tree} {directory name : String}
    (hdirectory : directory ∈ Package.directories) (hname : IsName name)
    (hending : hasExtension "py" name = true)
    (hfile : t.isFile (join output (directory ++ "/" ++ name)) = true) :
    IsModule t output directory (directory ++ "/" ++ name) := by
  have hisName := Package.isName_of_mem_directories _ hdirectory
  have habsolute := (isPlain_of_isName hname).isAbsolute_eq
  rw [← join_join hisName habsolute] at hfile
  obtain ⟨place, content, hlocate, he⟩ :=
    (Tree.isFile_iff_locate (isPlain_of_isName hname).endsSilently_join).mp hfile
  obtain ⟨hnul, -, hsize, hfollow⟩ := Tree.locate_eq_ok_iff.mp hlocate
  have hplace := Tree.eq_resolve_of_locate hlocate
  rw [names_join habsolute, names_of_isName hname] at hfollow hplace
  rw [Tree.resolve_concat _ hname.ne_up] at hplace
  have hempty : join output directory ≠ "" := by
    rw [join_eq (isPlain_of_isName hisName).isAbsolute_eq]
    simp [hisName.ne_empty]
  have hupward := isUpward_join hempty habsolute
  have hreaches : t.Reaches (names (join output directory)) :=
    Tree.reaches_of_follow hfollow (by simp)
  have hlocate' := Tree.locate_eq_ok_iff.mpr ⟨fun hmem => hnul (hupward.isPrefix.subset hmem),
    hempty, Nat.le_trans hupward.utf8ByteSize_le hsize, hreaches.follow_eq⟩
  exact ⟨_, name, Tree.isDirectory_iff_locate.mpr ⟨_, hlocate', hreaches.entry?_eq⟩, hlocate',
    Tree.mem_children.mpr ⟨_, hplace ▸ he⟩, hfile, hending, rfl⟩

theorem IsStale.of_isFile {t : Tree} (howns : Package.Owns relative)
    (hfree : files.contains relative = false) (hfile : t.isFile (join output relative) = true) :
    IsStale t output files relative := by
  obtain htop | ⟨directory, hdirectory, name, hname, hending, rfl⟩ := howns
  · exact ⟨hfree, .inl ⟨htop, hfile⟩⟩
  · exact ⟨hfree, .inr ⟨directory, hdirectory, isModule_of_isFile hdirectory hname hending hfile⟩⟩

theorem mem_stale_iff {t : Tree} {directory : String} {place : Place}
    (hdirectory : t.isDirectory (join output directory) = true)
    (hlocate : t.locate (join output directory) = .ok place) :
    relative ∈ (((t.children place).filter fun name =>
        t.isFile (join (join output directory) name) && hasExtension "py" name).map
          (directory ++ "/" ++ ·)).filter (!files.contains ·) ↔
      files.contains relative = false ∧ IsModule t output directory relative := by
  simp only [List.mem_filter, List.mem_map, Bool.and_eq_true, Bool.not_eq_true', IsModule]
  constructor
  · rintro ⟨⟨name, ⟨hchild, hfile, hending⟩, rfl⟩, hfree⟩
    exact ⟨hfree, place, name, hdirectory, hlocate, hchild, hfile, hending, rfl⟩
  · rintro ⟨hfree, place', name, -, hlocate', hchild, hfile, hending, rfl⟩
    obtain rfl : place = place' := Except.ok.inj (hlocate.symm.trans hlocate')
    exact ⟨⟨name, ⟨hchild, hfile, hending⟩, rfl⟩, hfree⟩

theorem meets_staleModules (directories : List String) :
    Meets (staleModules fails output files directories) p
      (fun stale q => Idle p q ∧ ∀ relative, relative ∈ stale ↔
        files.contains relative = false ∧
          ∃ directory ∈ directories, IsModule p.tree output directory relative)
      (fun _ q => Idle p q ∧ ∃ n, fails n = true) := by
  induction directories generalizing p with
  | nil => exact meets_pure.mpr ⟨.called p _, by simp⟩
  | cons directory rest ih =>
    simp only [staleModules, meets_bind, meets_get, List.exists_mem_cons_iff, and_or_left]
    split
    · rename_i hdirectory
      simp only [meets_bind, meets_call, meets_locate]
      split
      · exact ⟨.called p _, _, ‹_›⟩
      · refine ⟨fun place hlocate => ?_, fun fault hlocate => ?_⟩
        · refine (ih (p := { p with calls := p.calls + 1 })).imp ?_
            fun _ q hq => ⟨(Idle.called p _).trans hq.1, hq.2⟩
          rintro stale q ⟨hidle, hstale⟩
          refine meets_pure.mpr ⟨(Idle.called p _).trans hidle, fun relative => ?_⟩
          rw [List.mem_append, hstale, mem_stale_iff hdirectory hlocate]
        · -- What is a directory has a place.
          simp [Tree.isDirectory, Tree.lookUp, hlocate] at hdirectory
    · rename_i hdirectory
      refine ih.imp ?_ fun _ _ h => h
      rintro stale q ⟨hidle, hstale⟩
      refine ⟨hidle, fun relative => ?_⟩
      have hnone : ¬ IsModule p.tree output directory relative := by
        rintro ⟨place, name, hmodule, -⟩
        exact hdirectory hmodule
      rw [hstale]
      simp [hnone]

theorem meets_staleFiles :
    Meets (staleFiles fails output files) p
      (fun stale q => Idle p q ∧ stale.Pairwise (compare · · = .lt) ∧
        ∀ relative, relative ∈ stale ↔ IsStale p.tree output files relative)
      (fun _ q => Idle p q ∧ ∃ n, fails n = true) := by
  simp only [staleFiles, meets_bind, meets_get]
  refine (meets_staleModules _).imp ?_ fun _ _ h => h
  rintro modules q ⟨hidle, hmodules⟩
  refine meets_pure.mpr ⟨hidle, Dict.sorted_keys _, fun relative => ?_⟩
  rw [← Dict.contains_iff_mem_keys, Dict.contains_ofList]
  simp [hmodules, IsStale, and_or_left, and_left_comm, and_comm]

end stale
end AgentAssembly.Commit
