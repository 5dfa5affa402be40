import AgentAssembly.Proofs.Disk.Staging

/-!
Commits that fail. Main statement: whichever calls fail, a failed commit of a rendered package
leaves the tree as it was.
-/

namespace AgentAssembly

open AgentAssembly.Path

namespace Shelf

variable {files : FileSet} {s : Site (Shelf files)} {place : Place} {relative content : String}
  {e : Entry}

theorem takeBack_put (hplace : place ≠ []) (he : s.tree.entry? place = some e)
    (hfree : s.kept.parked.get? relative = none) :
    takeBack (put s place relative e) relative place e = s := by
  simp [put, takeBack, Tree.insert_erase hplace he, Dict.erase_insert hfree]

theorem restore_put (hplace : place ≠ []) (he : s.tree.entry? place = some e)
    (hfree : s.kept.parked.get? relative = none) :
    Depot.restore (put s place relative e) relative place = some s := by
  have hparked : (put s place relative e).kept.parked.get? relative = some e := by
    simp [put, Dict.get?_insert]
  rw [restore_eq, hparked, Option.map_some, takeBack_put hplace he hfree]

theorem undo_removed (hplace : place ≠ []) (he : s.tree.entry? place = some e)
    (hfree : s.kept.parked.get? relative = none) :
    (put s place relative e).undo (.removed place relative) = s := by
  rw [Site.undo, restore_put hplace he hfree, Option.getD_some]

theorem undo_replaced (hplace : place ≠ []) (he : s.tree.entry? place = some e)
    (hfree : s.kept.parked.get? relative = none) :
    (put s place relative e).undo (.replaced place relative) = s := by
  have hnone : (put s place relative e).tree.entry? place = none := by
    rw [put, Tree.entry?_erase hplace, if_pos rfl]
  rw [Site.undo, Tree.removeFile_of_none hnone, restore_put hplace he hfree, Option.getD_some]

theorem undo_placed (hnone : s.tree.entry? place = none) :
    Site.undo { s with tree := s.tree.insert place (.file content) } (.placed place) = s := by
  simp [Site.undo, Tree.removeFile_insert hnone]

/-- Undoing a replacement starts with the file that was put in place, if there is one. -/
theorem undo_replaced_insert (hnone : s.tree.entry? place = none) :
    Site.undo { s with tree := s.tree.insert place (.file content) } (.replaced place relative) =
      s.undo (.replaced place relative) := by
  simp [Site.undo, Tree.removeFile_insert hnone, Tree.removeFile_of_none hnone]

theorem undo_created (h : s.tree.WellFormed) (hnone : s.tree.entry? place = none) :
    Site.undo { s with tree := s.tree.insert place .directory } (.created place) = s := by
  simp [Site.undo, h.removeEmpty_insert hnone]

end Shelf

namespace Commit

variable {t : Tree} {files : FileSet} {p q : Progress (Shelf files)} {fails : Nat → Bool}
  {output relative : String} {rest : List String}

/-- Undoing the journal gives the tree that the commit began with, and nothing stays parked. -/
def Kept (t : Tree) (p : Progress (Shelf files)) : Prop := p.toSite.rollback p.journal = ⟨t, {}⟩

theorem Kept.note (h : Kept t p) {s : Site (Shelf files)} {change : Change}
    (hundo : s.undo change = p.toSite) (calls : Nat) :
    Kept t { toSite := s, journal := change :: p.journal, calls } := by
  rw [Kept, Site.rollback, List.foldl_cons, hundo]
  exact h

theorem Kept.of_idle (h : Kept t p) (hq : Idle p q) : Kept t q := by
  rw [Kept, hq.site, hq.journal]
  exact h

section opening

structure Opening (t : Tree) (p : Progress (Shelf files)) : Prop where
  kept : Kept t p
  wellFormed : p.tree.WellFormed
  unparked : p.kept.parked = ∅

theorem Opening.of_idle (h : Opening t p) (hq : Idle p q) : Opening t q :=
  ⟨h.kept.of_idle hq, hq.site ▸ h.wellFormed, hq.site ▸ h.unparked⟩

theorem Opening.created (h : Opening t p) {path : String} {place : Place} {t' : Tree}
    (hcreate : p.tree.createDirectory path = .ok (place, t')) (calls : Nat) :
    Opening t { p with tree := t', journal := .created place :: p.journal, calls } := by
  have hwell := h.wellFormed.of_createDirectory hcreate
  obtain ⟨-, hnone, rfl⟩ := Tree.createDirectory_eq_ok hcreate
  exact ⟨h.kept.note (Shelf.undo_created h.wellFormed hnone) _, hwell, h.unparked⟩

theorem Opening.meets_prepare (h : Opening t p) :
    Meets (prepare fails output relative) p (fun _ q => Opening t q) fun _ q => Kept t q :=
  (Commit.meets_prepare (fun q n hq => hq.of_idle (.called q n))
    (fun _ _ _ _ _ n hq _ _ hcreate => hq.created hcreate n) (fun _ _ hq => hq.kept) h).imp
    (fun _ _ hq => hq.1) fun _ _ hq => hq

end opening

section moving

/-- The files that are still to be parked or put in place. Nothing is parked under their paths. -/
structure Pending (t : Tree) (rest : List String) (p : Progress (Shelf files)) : Prop where
  kept : Kept t p
  plain : ∀ relative ∈ rest, IsPlain relative
  distinct : rest.Nodup
  free : ∀ relative ∈ rest, p.kept.parked.get? relative = none

theorem Pending.next (h : Pending t (relative :: rest) p) (hkept : Kept t q)
    (hparked : ∀ other, other ≠ relative → q.kept.parked.get? other = p.kept.parked.get? other) :
    Pending t rest q := by
  obtain ⟨hnew, hdistinct⟩ := List.nodup_cons.mp h.distinct
  refine ⟨hkept, fun r hr => h.plain r (List.mem_cons_of_mem _ hr), hdistinct, fun r hr => ?_⟩
  rw [hparked r fun heq => hnew (heq ▸ hr)]
  exact h.free r (List.mem_cons_of_mem _ hr)

theorem Pending.meets_remove (h : Pending t (relative :: rest) p) :
    Meets (remove fails output relative) p (fun _ q => Pending t rest q) fun _ q => Kept t q := by
  refine meets_park.imp ?_ fun _ q hq => h.kept.of_idle hq.1
  rintro - q ⟨place, e, calls, hlocate, he, rfl⟩
  obtain ⟨hplace, -⟩ := Tree.eq_of_locate_join (h.plain _ List.mem_cons_self) hlocate
  have hfree := h.free _ List.mem_cons_self
  refine h.next (h.kept.note (Shelf.undo_removed hplace he hfree) _) fun other hother => ?_
  simp [Shelf.put, Dict.get?_insert, hother]

theorem Pending.meets_place (h : Pending t (relative :: rest) p) (hnew : relative ∈ files.keys) :
    Meets (place fails output relative) p (fun _ q => Pending t rest q) fun _ q => Kept t q := by
  have hplain := h.plain _ List.mem_cons_self
  have hfree := h.free _ List.mem_cons_self
  obtain ⟨content, hcontent⟩ := Dict.mem_keys.mp hnew
  simp only [place, meets_bind, meets_get]
  split
  · rw [meets_bind]
    refine meets_park.imp ?_ fun _ q hq => h.kept.of_idle hq.1
    rintro - q ⟨place, e, calls, hlocate, he, rfl⟩
    obtain ⟨hplace, hsame⟩ := Tree.eq_of_locate_join hplain hlocate
    have hundo := Shelf.undo_replaced hplace he hfree
    rw [meets_bind]
    refine (meets_deliver hcontent).imp ?_ fun _ q hq => (h.kept.note hundo _).of_idle hq.1
    rintro place' q ⟨hlocate', calls', rfl⟩
    obtain rfl := hsame _ _ hlocate'
    have hnone : (Shelf.put p.toSite place' relative e).tree.entry? place' = none := by
      rw [Shelf.put, Tree.entry?_erase hplace, if_pos rfl]
    refine meets_pure.mpr
      (h.next (h.kept.note ((Shelf.undo_replaced_insert hnone).trans hundo) _) ?_)
    intro other hother
    simp [Shelf.put, Dict.get?_insert, hother]
  · rename_i habsent
    simp only [meets_bind, meets_get, meets_note]
    refine (meets_deliver hcontent).imp ?_ fun _ q hq => h.kept.of_idle hq.1
    rintro place q ⟨hlocate, calls, rfl⟩
    have hnone := Tree.entry?_eq_none_of_locate hplain.endsSilently_join
      (Bool.not_eq_true _ ▸ habsent) hlocate
    exact h.next (h.kept.note (Shelf.undo_placed hnone) _) fun _ _ => rfl

end moving

theorem Opening.pending (h : Opening t p) {stale : List String}
    (hfiles : ∀ relative ∈ files.keys, IsPlain relative)
    (hsorted : stale.Pairwise (compare · · = .lt))
    (hstale : ∀ relative, relative ∈ stale ↔ IsStale p.tree output files relative) :
    Pending t (stale ++ files.keys) p where
  kept := h.kept
  plain := by
    intro relative hrelative
    obtain hrelative | hrelative := List.mem_append.mp hrelative
    · exact (((hstale relative).mp hrelative).owns h.wellFormed).isPlain
    · exact hfiles relative hrelative
  distinct := by
    refine List.nodup_append.mpr ⟨Dict.nodup_of_sorted hsorted,
      Dict.nodup_of_sorted files.sorted_keys, fun relative hrelative other hother heq => ?_⟩
    have hfree := ((hstale relative).mp hrelative).1
    simp [heq, Dict.contains_iff_mem_keys.mpr hother] at hfree
  free := by
    intro relative _
    rw [h.unparked]
    rfl

theorem kept_of_apply (h : t.WellFormed) (hfiles : ∀ relative ∈ files.keys, IsPlain relative) :
    Meets (apply fails output files) { toSite := ⟨t, ({} : Shelf files)⟩ } (fun _ _ => True)
      fun _ q => Kept t q := by
  simp only [apply, meets_bind]
  have hopening : Opening t { toSite := ⟨t, ({} : Shelf files)⟩ } := ⟨rfl, h, rfl⟩
  refine (meets_forM (I := fun _ q => Opening t q) (fun _ _ _ hq => hq.meets_prepare) hopening).imp
    (fun _ q hq => ?_) fun _ _ hq => hq
  refine meets_staleFiles.imp ?_ fun _ r hr => hq.kept.of_idle hr.1
  rintro stale r ⟨hidle, hsorted, hstale⟩
  have hpending := (hq.of_idle hidle).pending hfiles hsorted (hidle.site ▸ hstale)
  refine (meets_forM (I := fun rest q => Pending t (rest ++ files.keys) q)
    (fun _ _ _ hq => hq.meets_remove) hpending).imp (fun _ q hq => ?_) fun _ _ hq => hq
  have hplacing : ∀ relative ∈ files.keys, relative ∈ files.keys := fun _ h => h
  refine (meets_forM
    (I := fun rest q => Pending t rest q ∧ ∀ relative ∈ rest, relative ∈ files.keys)
    (fun relative rest p hp => ?_) ⟨hq, hplacing⟩).imp (fun _ _ _ => meets_pure.mpr trivial)
    fun _ _ hq => hq
  obtain ⟨hnew, hrest⟩ := List.forall_mem_cons.mp hp.2
  exact (hp.1.meets_place hnew).imp (fun _ _ hq => ⟨hq, hrest⟩) fun _ _ hq => hq

/-- Whichever of its calls fail, a commit with a shelf beside the tree that fails leaves the tree as
it was. -/
theorem tree_of_shelved {t' : Tree} {fault : WriteFault} (h : t.WellFormed)
    (hfiles : ∀ relative ∈ files.keys, IsPlain relative)
    (hrun : shelved fails output files t = (.error fault, t')) : t' = t := by
  have hmeets : Meets (apply fails output files) { toSite := ⟨t, ({} : Shelf files)⟩ } _ _ :=
    kept_of_apply h hfiles
  obtain ⟨a, q, -, hok⟩ | ⟨fault', q, hkept, herror⟩ := runOn_of_meets hmeets
  · simp [shelved, hok] at hrun
  · rw [Kept] at hkept
    simp only [shelved, herror, hkept] at hrun
    exact (Prod.mk.inj hrun).2.symm

end Commit

/-- Whichever of its calls fail, a commit of a rendered package that fails leaves every entry of
the tree as it was. -/
theorem Project.tree_of_failed_commit {p : Project} {files : FileSet} {t t' : Tree}
    {fault : WriteFault} (ht : t.WellFormed) (hfiles : p.render = .ok files) (temp : TempDir)
    (fails : Nat → Bool) (above output : String)
    (h : files.install temp fails above output t = (.error fault, t')) : t' = t := by
  have howns : ∀ r ∈ files.keys, Package.Owns r := fun r hr => Package.owns_of_render hfiles hr
  obtain hshelved | ⟨fault', hfault⟩ := FileSet.install_cases temp fails above output ht howns
  · exact Commit.tree_of_shelved ht (fun r hr => (howns r hr).isPlain) (hshelved.symm.trans h)
  · rw [hfault] at h
    exact (Prod.mk.inj h).2.symm

def soloProject : Project where
  id := ⟨0⟩
  name := "Solo"
  agents := [{ name := "Guide", model := "m" }]
  createdAt := ⟨0⟩
  updatedAt := ⟨0⟩

/-- A package as an earlier generation left it, with a tool and a file of another hand. -/
def soloTree : Tree where
  entries := .ofList
    [(["solo"], .directory), (["solo", "agent.py"], .file "old"), (["solo", "notes"], .file "kept"),
     (["solo", "tools"], .directory), (["solo", "tools", "search.py"], .file "old")]

/-- The call that moves the new `agent.py` into place fails when the old one has been parked, and
`agents` was created, `search.py` removed and two files placed before. -/
theorem Project.tree_of_failed_commit_soloProject :
    soloTree.WellFormed ∧ ∃ files t', soloProject.render = .ok files ∧
      files.install .longest (· == 17) "." "solo" soloTree =
        (.error ⟨"solo/agent.py", .system⟩, t') ∧ t' = soloTree := by
  have hwell : soloTree.WellFormed := by decide
  have hfault : (match soloProject.render with
      | .error _ => none
      | .ok files =>
        match (files.install .longest (· == 17) "." "solo" soloTree).1 with
        | .ok _ => none
        | .error fault => some fault) = some ⟨"solo/agent.py", .system⟩ := by decide +kernel
  cases hrender : soloProject.render with
  | error fault => simp [hrender] at hfault
  | ok files =>
    cases hrun : files.install .longest (· == 17) "." "solo" soloTree with
    | mk result t' =>
      cases result with
      | ok removed => simp [hrender, hrun] at hfault
      | error fault =>
        obtain rfl : fault = ⟨"solo/agent.py", .system⟩ := by simpa [hrender, hrun] using hfault
        exact ⟨hwell, files, t', rfl, hrun, tree_of_failed_commit hwell hrender _ _ _ _ hrun⟩

end AgentAssembly
