import AgentAssembly.Disk.Staging
import AgentAssembly.Proofs.Disk.Lockstep
import AgentAssembly.Proofs.Disk.Pruning
import AgentAssembly.Proofs.Disk.Steps

/-!
Commits out of a directory of the tree. Main statement: seen without its staging directory, the
tree goes through what it goes through with a shelf beside it.
-/

namespace AgentAssembly

open AgentAssembly.Path Package

variable {own above place q : Place} {temp output relative other path : String}
  {files : FileSet} {rest : List String} {e : Entry} {t t' : Tree}

section staging

variable {d : Staging}

theorem Staging.below_package : d.place <+: d.package relative := List.prefix_append _ _

theorem Staging.below_previous : d.place <+: d.previous relative := List.prefix_append _ _

theorem Staging.package_ne_previous : d.package relative ≠ d.previous other := by
  simp [Staging.package, Staging.previous]

theorem Staging.package_ne (h : IsPlain relative) (hother : IsPlain other)
    (hne : relative ≠ other) : d.package relative ≠ d.package other := fun hsame =>
  hne (h.eq_of_names hother (List.cons.inj (List.append_cancel_left hsame)).2)

theorem Staging.previous_ne (h : IsPlain relative) (hother : IsPlain other)
    (hne : relative ≠ other) : d.previous relative ≠ d.previous other := fun hsame =>
  hne (h.eq_of_names hother (List.cons.inj (List.append_cancel_left hsame)).2)

/-- Making room for what is parked leaves other parked files alone. -/
theorem Staging.not_before_previous (h : Owns relative) (hother : Owns other) :
    ¬ d.previous other <+: d.place ++ ("previous" :: names relative).dropLast := by
  rw [Staging.previous, List.prefix_append_right_inj,
    List.dropLast_cons_of_ne_nil h.isPlain.names_ne_nil, List.prefix_cons_inj]
  exact hother.not_before h

theorem Staging.not_before_of_package (h : Owns relative) :
    ¬ d.package other <+: d.place ++ ("previous" :: names relative).dropLast := by
  rw [Staging.package, List.prefix_append_right_inj,
    List.dropLast_cons_of_ne_nil h.isPlain.names_ne_nil]
  simp

variable {s : Site Staging}

theorem Staging.deliver_eq : Depot.deliver s relative place =
    (s.tree.move (s.kept.package relative) place).map ({ s with tree := · }) := rfl

theorem Staging.park_eq : Depot.park s place relative =
    ((s.tree.openBelow s.kept.place ("previous" :: names relative).dropLast).move place
      (s.kept.previous relative)).map ({ s with tree := · }) := rfl

theorem Staging.restore_eq : Depot.restore s relative place =
    (s.tree.move (s.kept.previous relative) place).map ({ s with tree := · }) := rfl

end staging

section sites

variable {s : Site Staging} {s' : Site (Shelf files)}

/-- Without its staging directory, the tree is one with a shelf beside it. The directory holds what
is on the shelf, and the new files of `rest`. -/
structure Mirrors (own : Place) (rest : List String) (s : Site Staging)
    (s' : Site (Shelf files)) : Prop where
  place : s.kept.place = own
  tree : s'.tree = s.tree.prune own
  parked : ∀ relative, Owns relative →
    s'.kept.parked.get? relative = s.tree.entry? (s.kept.previous relative)
  staged : ∀ relative ∈ rest,
    s.tree.entry? (s.kept.package relative) = (files.get? relative).map .file

theorem Mirrors.below_package (h : Mirrors own rest s s') (relative : String) :
    own <+: s.kept.package relative := h.place ▸ Staging.below_package

theorem Mirrors.below_previous (h : Mirrors own rest s s') (relative : String) :
    own <+: s.kept.previous relative := h.place ▸ Staging.below_previous

theorem Mirrors.outside (h : Mirrors own rest s s') (htree : t' = t.prune own)
    (hsame : ∀ q, own <+: q → t.entry? q = s.tree.entry? q) :
    Mirrors own rest { s with tree := t } { s' with tree := t' } where
  place := h.place
  tree := htree
  parked r hr := by
    rw [h.parked r hr, hsame _ (h.below_previous r)]
  staged r hr := by
    rw [hsame _ (h.below_package r), h.staged r hr]

theorem Mirrors.insert (h : Mirrors own rest s s') (hplace : ¬ own <+: place) :
    Mirrors own rest { s with tree := s.tree.insert place e }
      { s' with tree := s'.tree.insert place e } := by
  refine h.outside (by rw [h.tree, Tree.prune_insert hplace]) fun q hq => ?_
  exact Tree.entry?_insert_of_ne (Tree.ne_of_below hplace hq)

theorem Mirrors.deliver (h : Mirrors own (relative :: rest) s s') (hplace : ¬ own <+: place)
    (hplain : ∀ r ∈ relative :: rest, IsPlain r) (hnew : relative ∉ rest) :
    Option.Rel (Mirrors own rest) (Depot.deliver s relative place)
      (Depot.deliver s' relative place) := by
  have hstaged := h.staged relative List.mem_cons_self
  rw [Staging.deliver_eq, Shelf.deliver_eq, Tree.move, hstaged]
  cases files.get? relative with
  | none => exact .none
  | some content =>
    refine .some ⟨h.place, ?_, fun r hr => ?_, fun r hr => ?_⟩
    · rw [Tree.prune_insert hplace, Tree.prune_erase_below (h.below_package relative), h.tree]
    · rw [Tree.entry?_insert_of_ne (Tree.ne_of_below hplace (h.below_previous r)),
        Tree.entry?_erase_of_ne Staging.package_ne_previous.symm]
      exact h.parked r hr
    · have hother : s.kept.package r ≠ s.kept.package relative :=
        Staging.package_ne (hplain r (List.mem_cons_of_mem _ hr)) (hplain _ List.mem_cons_self)
          fun hsame => hnew (hsame ▸ hr)
      rw [Tree.entry?_insert_of_ne (Tree.ne_of_below hplace (h.below_package r)),
        Tree.entry?_erase_of_ne hother]
      exact h.staged r (List.mem_cons_of_mem _ hr)

theorem Mirrors.park (h : Mirrors own rest s s') (hown : own ≠ []) (hplace : ¬ own <+: place)
    (howns : Owns relative) :
    Option.Rel (Mirrors own rest) (Depot.park s place relative) (Depot.park s' place relative) := by
  have hprune : (s.tree.openBelow s.kept.place ("previous" :: names relative).dropLast).prune own =
      s.tree.prune own := Tree.prune_openBelow (h.place ▸ List.prefix_rfl) _
  have hentry : Tree.entry? (s.tree.openBelow s.kept.place
      ("previous" :: names relative).dropLast) place = s'.tree.entry? place := by
    rw [h.tree, ← hprune, Tree.entry?_prune hown, if_neg hplace]
  rw [Staging.park_eq, Shelf.park_eq, Tree.move, hentry]
  cases s'.tree.entry? place with
  | none => exact .none
  | some e =>
    refine .some ⟨h.place, ?_, fun r hr => ?_, fun r hr => ?_⟩
    · rw [Tree.prune_insert_below (h.below_previous relative), Tree.prune_erase, hprune, Shelf.put,
        h.tree]
    · by_cases hsame : r = relative
      · have hne : s.kept.previous relative ≠ [] := by simp [Staging.previous]
        rw [hsame, Tree.entry?_insert hne, if_pos rfl, Shelf.put, Dict.get?_insert]
        simp
      · have hother : s.kept.previous r ≠ s.kept.previous relative :=
          Staging.previous_ne hr.isPlain howns.isPlain hsame
        rw [Tree.entry?_insert_of_ne hother,
          Tree.entry?_erase_of_ne (Tree.ne_of_below hplace (h.below_previous r)),
          Tree.entry?_openBelow _ (Staging.not_before_previous howns hr), ← h.parked r hr]
        simp [Shelf.put, Dict.get?_insert, hsame]
    · rw [Tree.entry?_insert_of_ne Staging.package_ne_previous,
        Tree.entry?_erase_of_ne (Tree.ne_of_below hplace (h.below_package r)),
        Tree.entry?_openBelow _ (Staging.not_before_of_package howns)]
      exact h.staged r hr

theorem Mirrors.restore (h : Mirrors own rest s s') (hplace : ¬ own <+: place)
    (howns : Owns relative) :
    Option.Rel (Mirrors own rest) (Depot.restore s relative place)
      (Depot.restore s' relative place) := by
  rw [Staging.restore_eq, Shelf.restore_eq, Tree.move, h.parked relative howns]
  cases s.tree.entry? (s.kept.previous relative) with
  | none => exact .none
  | some e =>
    refine .some ⟨h.place, ?_, fun r hr => ?_, fun r hr => ?_⟩
    · rw [Tree.prune_insert hplace, Tree.prune_erase_below (h.below_previous relative),
        Shelf.takeBack, h.tree]
    · rw [Tree.entry?_insert_of_ne (Tree.ne_of_below hplace (h.below_previous r))]
      by_cases hsame : r = relative
      · have hne : s.kept.previous relative ≠ [] := by simp [Staging.previous]
        rw [hsame, Tree.entry?_erase hne, if_pos rfl, Shelf.takeBack, Dict.get?_erase]
        simp
      · have hother : s.kept.previous r ≠ s.kept.previous relative :=
          Staging.previous_ne hr.isPlain howns.isPlain hsame
        rw [Tree.entry?_erase_of_ne hother, ← h.parked r hr]
        simp [Shelf.takeBack, Dict.get?_erase, Ne.symm hsame]
    · rw [Tree.entry?_insert_of_ne (Tree.ne_of_below hplace (h.below_package r)),
        Tree.entry?_erase_of_ne Staging.package_ne_previous]
      exact h.staged r hr

/-- A change has nothing to do with a directory, and is not the making of the one that holds it. -/
def IsOutside (own : Place) : Change → Prop
  | .created directory => ¬ own <+: directory ∧ directory ≠ own.dropLast
  | .placed file => ¬ own <+: file
  | .replaced file backup => ¬ own <+: file ∧ Owns backup
  | .removed file backup => ¬ own <+: file ∧ Owns backup

theorem Mirrors.removeFile (h : Mirrors own rest s s') (hown : own ≠ [])
    (hplace : ¬ own <+: place) :
    Mirrors own rest { s with tree := s.tree.removeFile place }
      { s' with tree := s'.tree.removeFile place } := by
  refine h.outside (by rw [h.tree, Tree.removeFile_prune hplace hown]) fun q hq => ?_
  have hne := Tree.ne_of_below hplace hq
  rw [Tree.removeFile]
  split
  · exact Tree.entry?_erase_of_ne hne
  · rfl

theorem Mirrors.removeEmpty (h : Mirrors own rest s s') (hown : own ≠ [])
    (hplace : ¬ own <+: place) (habove : place ≠ own.dropLast) :
    Mirrors own rest { s with tree := s.tree.removeEmpty place }
      { s' with tree := s'.tree.removeEmpty place } := by
  refine h.outside (by rw [h.tree, Tree.removeEmpty_prune hown hplace habove]) fun q hq => ?_
  have hne := Tree.ne_of_below hplace hq
  rw [Tree.removeEmpty]
  split
  · exact Tree.entry?_erase_of_ne hne
  · rfl

theorem Mirrors.restored (h : Mirrors own rest s s') (hplace : ¬ own <+: place)
    (howns : Owns relative) :
    Mirrors own rest ((Depot.restore s relative place).getD s)
      ((Depot.restore s' relative place).getD s') := by
  have hrel := h.restore hplace howns
  generalize Depot.restore s relative place = r, Depot.restore s' relative place = r' at hrel
  cases hrel with
  | none => exact h
  | some hrel => exact hrel

theorem Mirrors.undo (h : Mirrors own rest s s') (hown : own ≠ []) {change : Change}
    (hchange : IsOutside own change) :
    Mirrors own rest (s.undo change) (s'.undo change) := by
  cases change with
  | created directory => exact h.removeEmpty hown hchange.1 hchange.2
  | placed file => exact h.removeFile hown hchange
  | replaced file backup => exact (h.removeFile hown hchange.1).restored hchange.1 hchange.2
  | removed file backup => exact h.restored hchange.1 hchange.2

theorem Mirrors.rollback (h : Mirrors own rest s s') (hown : own ≠ []) {journal : List Change}
    (hjournal : ∀ change ∈ journal, IsOutside own change) :
    Mirrors own rest (s.rollback journal) (s'.rollback journal) := by
  induction journal generalizing s s' with
  | nil => exact h
  | cons change earlier ih =>
    obtain ⟨hchange, hearlier⟩ := List.forall_mem_cons.mp hjournal
    exact ih (h.undo hown hchange) hearlier

end sites

namespace Commit

variable {fails : Nat → Bool} {p : Progress Staging} {p' : Progress (Shelf files)}

/-- No path below the output directory names the staging directory. -/
structure Hidden (temp output : String) : Prop where
  output : temp ∉ names output
  top : temp ∉ topFiles
  directories : temp ∉ Package.directories
  extension : hasExtension "py" temp = false

theorem Hidden.owned (h : Hidden temp output) (howns : Owns relative) : temp ∉ names relative := by
  obtain htop | ⟨directory, hdirectory, name, hname, hending, rfl⟩ := howns
  · rw [names_of_isName (isName_of_mem_topFiles _ htop), List.mem_singleton]
    rintro rfl
    exact h.top htop
  · rw [names_append_name hdirectory hname]
    intro hmem
    obtain rfl | hmem := List.mem_cons.mp hmem
    · exact h.directories hdirectory
    · obtain rfl := List.mem_singleton.mp hmem
      simp [h.extension] at hending

theorem Hidden.join (h : Hidden temp output) (howns : Owns relative) :
    temp ∉ names (join output relative) := by
  rw [names_join howns.isPlain.isAbsolute_eq, List.mem_append, not_or]
  exact ⟨h.output, h.owned howns⟩

/-- A commit out of a staging directory has come as far as one with a shelf. -/
structure Follows (own : Place) (rest : List String) (p : Progress Staging)
    (p' : Progress (Shelf files)) : Prop where
  site : Mirrors own rest p.toSite p'.toSite
  journal : p'.journal = p.journal
  calls : p'.calls = p.calls
  outside : ∀ change ∈ p.journal, IsOutside own change

theorem Follows.called (h : Follows own rest p p') :
    Follows own rest { p with calls := p.calls + 1 } { p' with calls := p'.calls + 1 } :=
  ⟨h.site, h.journal, congrArg (· + 1) h.calls, h.outside⟩

theorem Follows.fewer {fewer : List String} (h : Follows own rest p p') (hfewer : fewer ⊆ rest) :
    Follows own fewer p p' :=
  ⟨⟨h.site.place, h.site.tree, h.site.parked, fun r hr => h.site.staged r (hfewer hr)⟩, h.journal,
    h.calls, h.outside⟩

theorem Follows.noted (h : Follows own rest p p') {s : Site Staging} {s' : Site (Shelf files)}
    {change : Change} (hsite : Mirrors own rest s s') (hchange : IsOutside own change) :
    Follows own rest { p with toSite := s, journal := change :: p.journal }
      { p' with toSite := s', journal := change :: p'.journal } where
  site := hsite
  journal := congrArg (change :: ·) h.journal
  calls := h.calls
  outside := List.forall_mem_cons.mpr ⟨hchange, h.outside⟩

theorem Follows.rollback (h : Follows own rest p p') (hown : own ≠ []) :
    Mirrors own rest (p.toSite.rollback p.journal) (p'.toSite.rollback p'.journal) := by
  rw [h.journal]
  exact h.site.rollback hown h.outside

section reading

variable (h : Follows (above ++ [temp]) rest p p') (hpath : temp ∉ names path)
include h hpath

theorem Follows.locate_eq : p'.tree.locate path = p.tree.locate path := by
  rw [h.site.tree, Tree.locate_prune hpath]

theorem Follows.lookUp_eq : p'.tree.lookUp path = p.tree.lookUp path := by
  rw [h.site.tree, Tree.lookUp_prune hpath]

theorem Follows.isDirectory_eq : p'.tree.isDirectory path = p.tree.isDirectory path := by
  rw [h.site.tree, Tree.isDirectory_prune hpath]

theorem Follows.isFile_eq : p'.tree.isFile path = p.tree.isFile path := by
  rw [h.site.tree, Tree.isFile_prune hpath]

theorem Follows.isPresent_eq : p'.tree.isPresent path = p.tree.isPresent path := by
  rw [h.site.tree, Tree.isPresent_prune hpath]

end reading

section opening

/-- While room is made for the files, the directory that holds the staging directory stays. -/
structure FollowsOpening (above : Place) (temp : String) (rest : List String)
    (p : Progress Staging) (p' : Progress (Shelf files)) : Prop
    extends Follows (above ++ [temp]) rest p p' where
  base : p.tree.entry? above = some .directory
  wellFormed : p'.tree.WellFormed

theorem FollowsOpening.called (h : FollowsOpening above temp rest p p') :
    FollowsOpening above temp rest { p with calls := p.calls + 1 }
      { p' with calls := p'.calls + 1 } :=
  ⟨h.toFollows.called, h.base, h.wellFormed⟩

theorem FollowsOpening.created (h : FollowsOpening above temp rest p p') (hpath : temp ∉ names path)
    (hcreate : p.tree.createDirectory path = .ok (place, t)) :
    FollowsOpening above temp rest { p with tree := t, journal := .created place :: p.journal }
      { p' with tree := t.prune (above ++ [temp]), journal := .created place :: p'.journal } := by
  have hcreate' : p'.tree.createDirectory path = .ok (place, t.prune (above ++ [temp])) := by
    rw [h.site.tree, Tree.createDirectory_prune hpath, hcreate]
    rfl
  have hwell := h.wellFormed.of_createDirectory hcreate'
  obtain ⟨hlocate, hnone, rfl⟩ := Tree.createDirectory_eq_ok hcreate
  have hbelow : ¬ above ++ [temp] <+: place := Tree.not_below_of_locate hpath hlocate
  have hplace : place ≠ above := by
    rintro rfl
    simp [h.base] at hnone
  have hsite := h.site.insert (e := .directory) hbelow
  rw [h.site.tree, ← Tree.prune_insert hbelow] at hsite
  refine ⟨h.toFollows.noted hsite ⟨hbelow, by simpa using hplace⟩, ?_, hwell⟩
  exact (Tree.entry?_insert_of_ne hplace.symm).trans h.base

theorem lockstep_ensureDirectory {paths : List String} (hpaths : ∀ path ∈ paths, temp ∉ names path)
    (h : FollowsOpening above temp rest p p') :
    Lockstep (ensureDirectory fails paths) (ensureDirectory fails paths) p p'
      (fun _ _ q q' => FollowsOpening above temp rest q q') (Follows (above ++ [temp]) rest) := by
  induction paths generalizing p p' with
  | nil => exact .of_pure h
  | cons path upper ih =>
    obtain ⟨hpath, hupper⟩ := List.forall_mem_cons.mp hpaths
    have hfirst := h.called
    refine .bind (.of_call h.calls (.bind (.of_get ?_)) hfirst.toFollows)
    rw [hfirst.lookUp_eq hpath]
    split
    · exact .of_pure hfirst
    · exact .of_refuse hfirst.toFollows
    · refine .bind ((ih hupper hfirst).imp (fun _ _ q q' hq => ?_) fun _ _ hq => hq)
      refine .bind (.of_call hq.calls (.bind (.of_get ?_)) hq.called.toFollows)
      dsimp only
      rw [hq.site.tree, Tree.createDirectory_prune hpath]
      cases hcreate : q.tree.createDirectory path with
      | error fault => exact .of_refuse hq.called.toFollows
      | ok made => exact .of_modify (hq.called.created hpath hcreate)
    · exact .of_refuse hfirst.toFollows

theorem lockstep_prepare (hidden : Hidden temp output) (howns : Owns relative)
    (h : FollowsOpening above temp rest p p') :
    Lockstep (prepare fails output relative) (prepare fails output relative) p p'
      (fun _ _ q q' => FollowsOpening above temp rest q q') (Follows (above ++ [temp]) rest) := by
  have hpath := hidden.join howns
  have hne : names (join output relative) ≠ [] := by
    rw [names_join howns.isPlain.isAbsolute_eq]
    simp [howns.isPlain.names_ne_nil]
  obtain ⟨directory, hparent, hnames⟩ := exists_parent? hne
  have hpaths : ∀ path ∈ withAncestors directory, temp ∉ names path := by
    intro path hmem hname
    have hbefore := names_prefix_of_mem_withAncestors hmem
    rw [hnames] at hbefore
    exact hpath (List.dropLast_subset _ (hbefore.subset hname))
  unfold prepare
  simp only [hparent]
  refine .bind ((lockstep_ensureDirectory hpaths h).imp (fun _ _ q q' hq => ?_) fun _ _ hq => hq)
  refine .bind (.of_get ?_)
  rw [hq.isDirectory_eq hpath]
  split
  · exact .of_refuse hq.toFollows
  · exact .of_pure hq

end opening

section moving

variable (hidden : Hidden temp output)
include hidden

theorem lockstep_park {change : Place → String → Change} (howns : Owns relative)
    (hchange : ∀ place, ¬ above ++ [temp] <+: place →
      IsOutside (above ++ [temp]) (change place relative))
    (h : Follows (above ++ [temp]) rest p p') :
    Lockstep (park fails output relative change) (park fails output relative change) p p'
      (fun _ _ q q' => Follows (above ++ [temp]) rest q q')
      (Follows (above ++ [temp]) rest) := by
  have hpath := hidden.join howns
  have hcalled := h.called.called
  refine .bind (.of_call h.calls (.bind (.of_call h.called.calls ?_ hcalled)) h.called)
  refine .bind (.of_locate (hcalled.locate_eq hpath) (fun place hlocate => ?_) hcalled)
  refine .bind (.of_get ?_)
  have hbelow : ¬ above ++ [temp] <+: place := Tree.not_below_of_locate hpath hlocate
  have hrel := hcalled.site.park (by simp) hbelow howns
  dsimp only at hrel ⊢
  generalize Depot.park (κ := Staging) _ place relative = r at hrel ⊢
  generalize Depot.park (κ := Shelf files) _ place relative = r' at hrel ⊢
  cases hrel with
  | none => exact .of_refuse hcalled
  | some hsite => exact .of_modify (hcalled.noted hsite (hchange place hbelow))

theorem lockstep_remove (howns : Owns relative) (h : Follows (above ++ [temp]) rest p p') :
    Lockstep (remove fails output relative) (remove fails output relative) p p'
      (fun _ _ q q' => Follows (above ++ [temp]) rest q q')
      (Follows (above ++ [temp]) rest) :=
  lockstep_park hidden howns (fun _ hbelow => ⟨hbelow, howns⟩) h

theorem lockstep_deliver (howns : ∀ r ∈ relative :: rest, Owns r) (hnew : relative ∉ rest)
    (h : Follows (above ++ [temp]) (relative :: rest) p p') :
    Lockstep (deliver fails output relative) (deliver fails output relative) p p'
      (fun place place' q q' => place = place' ∧ ¬ above ++ [temp] <+: place ∧
        Follows (above ++ [temp]) rest q q')
      (Follows (above ++ [temp]) rest) := by
  have hpath := hidden.join (howns _ List.mem_cons_self)
  have hcalled := h.called
  have hfewer : Follows (above ++ [temp]) rest _ _ := hcalled.fewer (List.subset_cons_self _ _)
  refine .bind (.of_call h.calls ?_ hfewer)
  refine .bind (.of_locate (hcalled.locate_eq hpath) (fun place hlocate => ?_) hfewer)
  refine .bind (.of_get ?_)
  have hbelow : ¬ above ++ [temp] <+: place := Tree.not_below_of_locate hpath hlocate
  have hrel := hcalled.site.deliver hbelow (fun r hr => (howns r hr).isPlain) hnew
  dsimp only at hrel ⊢
  generalize Depot.deliver (κ := Staging) _ relative place = r at hrel ⊢
  generalize Depot.deliver (κ := Shelf files) _ relative place = r' at hrel ⊢
  cases hrel with
  | none => exact .of_refuse hfewer
  | some hsite =>
    refine .bind (.of_modify (.of_pure ⟨rfl, hbelow, ?_⟩))
    exact ⟨hsite, hcalled.journal, hcalled.calls, hcalled.outside⟩

theorem lockstep_place (howns : ∀ r ∈ relative :: rest, Owns r) (hnew : relative ∉ rest)
    (h : Follows (above ++ [temp]) (relative :: rest) p p') :
    Lockstep (Commit.place fails output relative) (Commit.place fails output relative) p p'
      (fun _ _ q q' => Follows (above ++ [temp]) rest q q')
      (Follows (above ++ [temp]) rest) := by
  have hfirst := howns _ List.mem_cons_self
  refine .bind (.of_get ?_)
  rw [h.isPresent_eq (hidden.join hfirst)]
  split
  · have hchange : ∀ place, ¬ above ++ [temp] <+: place →
        IsOutside (above ++ [temp]) (.replaced place relative) := fun _ hbelow => ⟨hbelow, hfirst⟩
    refine .bind ((lockstep_park hidden hfirst hchange h).imp
      (fun _ _ q q' hq => ?_) fun _ _ hq => hq.fewer (List.subset_cons_self _ _))
    refine .bind ((lockstep_deliver hidden howns hnew hq).imp ?_ fun _ _ hr => hr)
    rintro place place' r r' ⟨-, -, hr⟩
    exact .of_pure hr
  · refine .bind ((lockstep_deliver hidden howns hnew h).imp ?_ fun _ _ hq => hq)
    rintro place place' q q' ⟨rfl, hbelow, hq⟩
    exact .bind (.of_get (.of_modify (hq.noted hq.site hbelow)))

end moving

section stale

theorem Hidden.join_directory (hidden : Hidden temp output) {directory : String}
    (hdirectory : directory ∈ Package.directories) : temp ∉ names (Path.join output directory) := by
  have hname := isName_of_mem_directories _ hdirectory
  rw [names_join (isPlain_of_isName hname).isAbsolute_eq, names_of_isName hname, List.mem_append,
    not_or, List.mem_singleton]
  exact ⟨hidden.output, fun hsame => hidden.directories (hsame ▸ hdirectory)⟩

/-- The staging directory is no module, so the search finds the same files without it. -/
theorem FollowsOpening.modules_eq (hidden : Hidden temp output)
    (h : FollowsOpening above temp rest p p') (hpath : temp ∉ names path)
    (hlocate : p.tree.locate path = .ok place) :
    ((p'.tree.children place).filter fun name =>
        p'.tree.isFile (Path.join path name) && hasExtension "py" name) =
      (p.tree.children place).filter fun name =>
        p.tree.isFile (Path.join path name) && hasExtension "py" name := by
  have hbelow : ¬ above ++ [temp] <+: place := Tree.not_below_of_locate hpath hlocate
  rw [h.site.tree, Tree.children_prune, List.filter_filter]
  refine List.filter_congr fun name hchild => ?_
  by_cases htemp : name = temp
  · simp [htemp, hidden.extension]
  · have hname : ¬ above ++ [temp] <+: place ++ [name] := by
      rw [Tree.below_concat_iff]
      exact fun hor => hor.elim (fun hsame => htemp hsame.2.symm) hbelow
    have hthere : name ∈ p'.tree.children place := by
      rw [h.site.tree, Tree.children_prune, List.mem_filter]
      exact ⟨hchild, by simpa using hname⟩
    obtain ⟨e, he⟩ := Tree.mem_children.mp hthere
    have hisName : IsName name := ((h.wellFormed.admits _ _ he).names name (by simp)).1
    have hjoin : temp ∉ names (Path.join path name) := by
      rw [names_join (isPlain_of_isName hisName).isAbsolute_eq, names_of_isName hisName,
        List.mem_append, not_or, List.mem_singleton]
      exact ⟨hpath, Ne.symm htemp⟩
    simp [Tree.isFile_prune hjoin, hname]

theorem lockstep_staleModules (hidden : Hidden temp output) {directories : List String}
    (hdirectories : ∀ directory ∈ directories, directory ∈ Package.directories)
    (h : FollowsOpening above temp rest p p') :
    Lockstep (staleModules fails output files directories)
      (staleModules fails output files directories) p p'
      (fun stale stale' q q' => stale = stale' ∧ FollowsOpening above temp rest q q')
      (Follows (above ++ [temp]) rest) := by
  induction directories generalizing p p' with
  | nil => exact .of_pure ⟨rfl, h⟩
  | cons directory others ih =>
    obtain ⟨hdirectory, hothers⟩ := List.forall_mem_cons.mp hdirectories
    have hpath := hidden.join_directory hdirectory
    refine .bind (.of_get ?_)
    dsimp only
    rw [h.isDirectory_eq hpath]
    split
    · have hcalled := h.called
      refine .bind (.of_call h.calls ?_ hcalled.toFollows)
      refine .bind (.of_locate (hcalled.locate_eq hpath) (fun place hlocate => ?_)
        hcalled.toFollows)
      refine .bind ((ih hothers hcalled).imp ?_ fun _ _ hq => hq)
      rintro stale stale' q q' ⟨rfl, hq⟩
      exact .of_pure ⟨by rw [h.modules_eq hidden hpath hlocate], hq⟩
    · exact ih hothers h

theorem lockstep_staleFiles (hidden : Hidden temp output)
    (h : FollowsOpening above temp rest p p') :
    Lockstep (staleFiles fails output files) (staleFiles fails output files) p p'
      (fun stale stale' q q' => stale = stale' ∧ FollowsOpening above temp rest q q')
      (Follows (above ++ [temp]) rest) := by
  refine .bind (.of_get (.bind ?_))
  refine (lockstep_staleModules hidden (fun _ hmem => hmem) h).imp ?_ fun _ _ hq => hq
  rintro modules modules' q q' ⟨rfl, hq⟩
  refine .of_pure ⟨?_, hq⟩
  have htop : (topFiles.filter fun name =>
        !files.contains name && p.tree.isFile (Path.join output name)) =
      topFiles.filter fun name =>
        !files.contains name && p'.tree.isFile (Path.join output name) := by
    refine List.filter_congr fun name hname => ?_
    rw [h.isFile_eq (hidden.join (.inl hname))]
  rw [htop]

end stale

section whole

/-- What every step keeps for a file that the package owns is kept for all of them. -/
theorem lockstep_owned {I : Progress Staging → Progress (Shelf files) → Prop}
    {E : Progress Staging → Progress (Shelf files) → Prop} {f : String → Commit Staging Unit}
    {f' : String → Commit (Shelf files) Unit} {paths : List String}
    (hstep : ∀ relative, Owns relative → ∀ p p', I p p' →
      Lockstep (f relative) (f' relative) p p' (fun _ _ q q' => I q q') E)
    (hpaths : ∀ relative ∈ paths, Owns relative) (h : I p p') :
    Lockstep (paths.forM f) (paths.forM f') p p' (fun _ _ q q' => I q q') E := by
  refine (Lockstep.of_forM (I := fun rest q q' => (∀ relative ∈ rest, Owns relative) ∧ I q q')
    (fun relative rest q q' hq => ?_) ⟨hpaths, h⟩).imp (fun _ _ _ _ hq => hq.2) fun _ _ hq => hq
  obtain ⟨hfirst, hrest⟩ := List.forall_mem_cons.mp hq.1
  exact (hstep relative hfirst q q' hq.2).imp (fun _ _ _ _ hr => ⟨hrest, hr⟩) fun _ _ hr => hr

theorem lockstep_places (hidden : Hidden temp output) (howns : ∀ relative ∈ rest, Owns relative)
    (hdistinct : rest.Nodup) (h : Follows (above ++ [temp]) rest p p') :
    Lockstep (rest.forM (Commit.place fails output)) (rest.forM (Commit.place fails output)) p p'
      (fun _ _ q q' => Follows (above ++ [temp]) [] q q') (Follows (above ++ [temp]) []) := by
  refine (Lockstep.of_forM (I := fun rest q q' => (∀ relative ∈ rest, Owns relative) ∧ rest.Nodup ∧
      Follows (above ++ [temp]) rest q q') (fun relative rest q q' hq => ?_)
    ⟨howns, hdistinct, h⟩).imp (fun _ _ _ _ hq => hq.2.2) fun _ _ hq => hq
  obtain ⟨howns, hdistinct, hfollows⟩ := hq
  obtain ⟨hnew, hdistinct⟩ := List.nodup_cons.mp hdistinct
  exact (lockstep_place hidden howns hnew hfollows).imp
    (fun _ _ _ _ hr => ⟨(List.forall_mem_cons.mp howns).2, hdistinct, hr⟩)
    fun _ _ hr => hr.fewer (List.nil_subset _)

/-- Out of a staging directory, a commit of a package does what it does with a shelf. -/
theorem lockstep_apply (hidden : Hidden temp output) (hfiles : ∀ r ∈ files.keys, Owns r)
    (h : FollowsOpening above temp files.keys p p') :
    Lockstep (apply fails output files) (apply fails output files) p p'
      (fun stale stale' q q' => stale = stale' ∧ Follows (above ++ [temp]) [] q q')
      (Follows (above ++ [temp]) []) := by
  have hnone : ∀ (q : Progress Staging) (q' : Progress (Shelf files)),
      Follows (above ++ [temp]) files.keys q q' → Follows (above ++ [temp]) [] q q' :=
    fun _ _ hq => hq.fewer (List.nil_subset _)
  refine .bind ((lockstep_owned (fun _ howns _ _ => lockstep_prepare hidden howns) hfiles h).imp
    (fun _ _ q q' hq => ?_) hnone)
  refine .bind (((lockstep_staleFiles hidden hq).and_meets meets_staleFiles).imp ?_ hnone)
  rintro stale stale' r r' ⟨⟨rfl, hr⟩, -, -, hstale⟩
  have howns : ∀ relative ∈ stale, Owns relative := fun relative hrelative =>
    ((hstale relative).mp hrelative).owns hq.wellFormed
  refine .bind ((lockstep_owned (fun _ howns _ _ => lockstep_remove hidden howns) howns
    hr.toFollows).imp (fun _ _ u u' hu => ?_) hnone)
  refine .bind ((lockstep_places hidden hfiles (Dict.nodup_of_sorted files.sorted_keys) hu).imp
    (fun _ _ v v' hv => ?_) fun _ _ hv => hv)
  exact .of_pure ⟨rfl, hv⟩

theorem runOn_of_lockstep {κ κ' α : Type} [Depot κ] [Depot κ'] {s : Site κ} {s' : Site κ'}
    {c : Commit κ α} {c' : Commit κ' α} {R : Site κ → Site κ' → Prop}
    {E : Progress κ → Progress κ' → Prop}
    (h : Lockstep c c' { toSite := s } { toSite := s' }
      (fun a a' q q' => a = a' ∧ R q.toSite q'.toSite) E)
    (hE : ∀ q q', E q q' → R (q.toSite.rollback q.journal) (q'.toSite.rollback q'.journal)) :
    (runOn s c).1 = (runOn s' c').1 ∧ R (runOn s c).2 (runOn s' c').2 := by
  rw [Lockstep] at h
  rw [runOn, runOn]
  cases hc : c.run.run { toSite := s } with
  | mk result q =>
    cases hc' : c'.run.run { toSite := s' } with
    | mk result' q' =>
      rw [hc, hc'] at h
      cases result <;> cases result'
      case ok.ok => exact ⟨congrArg Except.ok h.1, h.2⟩
      case error.error => exact ⟨congrArg Except.error h.1, hE _ _ h.2⟩
      all_goals exact h.elim

end whole

end Commit

end AgentAssembly
