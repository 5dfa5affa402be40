import AgentAssembly.Proofs.Disk.Growth
import AgentAssembly.Proofs.Disk.Staging

/-!
Commits that succeed, whatever else is on the disk and whichever calls might have failed. Main
statement: every file then stands where its path leads, and a file that the package owns and no
longer has is among those removed and stands there no more.
-/

namespace AgentAssembly.Commit

open AgentAssembly.Path Package

variable {κ : Type} {t t' : Tree} {p q : Progress κ} {fails : Nat → Bool} {place : Place}
  {output relative other path content : String} {files : FileSet}

/-- The place of a file below the output directory, in all trees in which its path leads
somewhere. -/
def seat (output relative : String) : Place := Tree.resolve [] (names output) ++ names relative

theorem eq_seat_of_locate (h : IsPlain relative)
    (hlocate : t.locate (join output relative) = .ok place) : place = seat output relative := by
  have hup : ".." ∉ names relative := fun hmem => (h.isName_of_mem hmem).ne_up rfl
  rw [Tree.eq_resolve_of_locate hlocate, names_join h.isAbsolute_eq, Tree.resolve_append,
    Tree.resolve_of_not_mem hup, seat]

theorem seat_ne_nil (h : IsPlain relative) : seat output relative ≠ [] := by
  simp [seat, h.names_ne_nil]

theorem eq_of_seat (h : IsPlain relative) (hother : IsPlain other)
    (hsame : seat output relative = seat output other) : relative = other :=
  h.eq_of_names hother (List.append_cancel_left hsame)

section opening

/-- Directories have been made, and none at a file of a package in an output directory that was
there before. -/
structure Opened (output : String) (t t' : Tree) : Prop where
  wellFormed : t'.WellFormed
  grows : Tree.Grows (fun place => t.Reaches (names output) →
    ∀ other, Owns other → place ≠ seat output other) t t'

/-- A directory made for a file stands above it and so for no file of the package. -/
theorem ne_seat_of_createDirectory (hopen : t.Reaches (names output)) (h : Owns relative)
    (hother : Owns other) (hpath : names path <+: (names (join output relative)).dropLast)
    (hcreate : t.createDirectory path = .ok (place, t')) : place ≠ seat output other := by
  obtain ⟨hlocate, hnone, -⟩ := Tree.createDirectory_eq_ok hcreate
  have hplace := Tree.eq_resolve_of_locate hlocate
  have hsplit : (names (join output relative)).dropLast =
      names output ++ (names relative).dropLast := by
    rw [names_join h.isPlain.isAbsolute_eq, List.dropLast_append_of_ne_nil h.isPlain.names_ne_nil]
  rw [hsplit] at hpath
  obtain hfront | ⟨more, hmore⟩ :=
    List.prefix_or_prefix_of_prefix hpath (List.prefix_append (names output) _)
  · -- What leads to the output directory is there already.
    have hthere := (hopen.of_prefix hfront).entry?_eq
    simp [← hplace, hnone] at hthere
  · have hmore' : more <+: (names relative).dropLast := by
      rwa [← hmore, List.prefix_append_right_inj] at hpath
    intro hseat
    have hsame : names other = more := by
      have hup : ".." ∉ more := fun hmem =>
        (h.isPlain.isName_of_mem (List.dropLast_subset _ (hmore'.subset hmem))).ne_up rfl
      have hresolve : place = Tree.resolve [] (names output) ++ more := by
        rw [hplace, ← hmore, Tree.resolve_append, Tree.resolve_of_not_mem hup]
      exact (List.append_cancel_left (hresolve.symm.trans hseat)).symm
    exact hother.not_before h (hsame ▸ hmore')

theorem Opened.created (h : Opened output t q.tree) (howns : Owns relative)
    (hpath : names path <+: (names (join output relative)).dropLast)
    (hcreate : q.tree.createDirectory path = .ok (place, t')) : Opened output t t' where
  wellFormed := h.wellFormed.of_createDirectory hcreate
  grows := by
    refine h.grows.trans (Tree.grows_of_createDirectory hcreate fun hopen other hother => ?_)
    exact ne_seat_of_createDirectory (hopen.mono h.grows.keepsDirectories) howns hother hpath
      hcreate

theorem meets_prepare_opened (h : p.tree.WellFormed) (howns : Owns relative) :
    Meets (prepare fails output relative) p
      (fun _ q => Opened output p.tree q.tree ∧ q.tree.Reaches (names output) ∧
        q.tree.isDirectory (join output relative) = false)
      (fun _ _ => True) := by
  have hnames : names (join output relative) = names output ++ names relative :=
    names_join howns.isPlain.isAbsolute_eq
  have hne : names (join output relative) ≠ [] := by simp [hnames, howns.isPlain.names_ne_nil]
  obtain ⟨above, hparent, habove⟩ := exists_parent? hne
  refine (meets_prepare (I := fun q => Opened output p.tree q.tree) (fun _ _ hq => hq) ?_
    (fun _ _ _ => trivial) ⟨h, .refl _ _⟩).imp ?_ fun _ _ _ => trivial
  · intro q directory path place t n hq hdirectory hpath hcreate
    obtain rfl : above = directory := Option.some.inj (hparent.symm.trans hdirectory)
    exact hq.created howns (habove ▸ names_prefix_of_mem_withAncestors hpath) hcreate
  · rintro - q ⟨hopened, hfree, hmade⟩
    refine ⟨hopened, ?_, hfree⟩
    have hreaches := Tree.reaches_of_isDirectory (hmade above hparent)
    rw [habove, hnames, List.dropLast_append_of_ne_nil howns.isPlain.names_ne_nil] at hreaches
    exact hreaches.of_prefix (List.prefix_append _ _)

/-- Where a file of the package has room, it keeps it while room is made for others. -/
theorem Opened.isDirectory_eq_false (h : Opened output t t') (ht : t.WellFormed)
    (hopen : t.Reaches (names output)) (howns : Owns relative)
    (hfree : t.isDirectory (join output relative) = false) :
    t'.isDirectory (join output relative) = false := by
  rw [← Bool.not_eq_true] at hfree ⊢
  intro hdirectory
  obtain ⟨place, hlocate, he⟩ := Tree.isDirectory_iff_locate.mp hdirectory
  obtain ⟨hnul, hempty, hsize, -⟩ := Tree.locate_eq_ok_iff.mp hlocate
  obtain rfl := eq_seat_of_locate howns.isPlain hlocate
  have hbefore : t.entry? (seat output relative) = some .directory := by
    obtain hsame | ⟨-, -, hnot⟩ := h.grows (seat output relative)
    · rw [← hsame, he]
    · exact absurd rfl (hnot hopen relative howns)
  have hup : ".." ∉ names relative := fun hmem => (howns.isPlain.isName_of_mem hmem).ne_up rfl
  have hfollow : t.follow [] (names (join output relative)) = .ok (seat output relative) := by
    rw [names_join howns.isPlain.isAbsolute_eq, Tree.follow_append, hopen.follow_eq]
    exact ht.follow_of_entry? hup hbefore
  exact hfree (Tree.isDirectory_iff_locate.mpr
    ⟨_, Tree.locate_eq_ok_iff.mpr ⟨hnul, hempty, hsize, hfollow⟩, hbefore⟩)

structure Preparing (output : String) (files : FileSet) (t : Tree) (rest : List String)
    (t' : Tree) : Prop where
  wellFormed : t'.WellFormed
  grows : Tree.Grows (fun _ => True) t t'
  pending : ∀ relative ∈ rest, Owns relative
  free : ∀ relative ∈ files.keys, relative ∈ rest ∨
    t'.Reaches (names output) ∧ t'.isDirectory (join output relative) = false

theorem Preparing.meets_prepare {rest : List String} (hfiles : ∀ r ∈ files.keys, Owns r)
    (h : Preparing output files t (relative :: rest) p.tree) :
    Meets (prepare fails output relative) p
      (fun _ q => Preparing output files t rest q.tree) (fun _ _ => True) := by
  refine (meets_prepare_opened h.wellFormed (h.pending _ List.mem_cons_self)).imp ?_
    fun _ _ _ => trivial
  rintro - q ⟨hopened, hreaches, hfree⟩
  refine ⟨hopened.wellFormed, h.grows.trans (hopened.grows.mono fun _ _ => trivial),
    fun r hr => h.pending r (List.mem_cons_of_mem _ hr), fun r hr => ?_⟩
  obtain hpending | ⟨hopen, hroom⟩ := h.free r hr
  · obtain rfl | hrest := List.mem_cons.mp hpending
    · exact .inr ⟨hreaches, hfree⟩
    · exact .inl hrest
  · exact .inr ⟨hreaches,
      hopened.isDirectory_eq_false h.wellFormed hopen (hfiles r hr) hroom⟩

end opening

section moving

theorem meets_park_touches {p : Progress (Shelf files)} {change : Place → String → Change}
    (h : p.tree.WellFormed) (hplain : IsPlain relative)
    (hfree : p.tree.isDirectory (join output relative) = false) :
    Meets (park fails output relative change) p
      (fun _ q => Tree.Touches (seat output relative) p.tree q.tree ∧
        q.tree.entry? (seat output relative) = none)
      (fun _ _ => True) := by
  refine meets_park.imp ?_ fun _ _ _ => trivial
  rintro - q ⟨place, e, calls, hlocate, -, rfl⟩
  obtain rfl := eq_seat_of_locate hplain hlocate
  have hne : seat output relative ≠ [] := seat_ne_nil hplain
  have hnot := Tree.not_directory_of_isDirectory hfree hlocate
  refine ⟨h.touches_erase hne hnot, ?_⟩
  rw [Shelf.put, Tree.entry?_erase hne, if_pos rfl]

def Stands (t : Tree) (output relative content : String) : Prop :=
  t.locate (join output relative) = .ok (seat output relative) ∧
    t.entry? (seat output relative) = some (.file content)

theorem Stands.isFile (hplain : IsPlain relative) (h : Stands t output relative content) :
    t.isFile (join output relative) = true :=
  (Tree.isFile_iff_locate hplain.endsSilently_join).mpr ⟨_, content, h.1, h.2⟩

theorem touches_of_insert (content : String) (h : t.WellFormed) (hplain : IsPlain relative)
    (hfree : t.isDirectory (join output relative) = false)
    (hlocate : t.locate (join output relative) = .ok place) :
    Tree.Touches (seat output relative) t (t.insert place (.file content)) ∧
      Stands (t.insert place (.file content)) output relative content := by
  obtain rfl := eq_seat_of_locate hplain hlocate
  have hne : seat output relative ≠ [] := seat_ne_nil hplain
  have htouches : Tree.Touches (seat output relative) t
      (t.insert (seat output relative) (.file content)) :=
    h.touches_insert hne hlocate (Tree.not_directory_of_isDirectory hfree hlocate)
  exact ⟨htouches, htouches.locate hlocate, by rw [Tree.entry?_insert hne, if_pos rfl]⟩

theorem meets_deliver_touches {p : Progress (Shelf files)} (h : p.tree.WellFormed)
    (hplain : IsPlain relative) (hfree : p.tree.isDirectory (join output relative) = false)
    (hnew : files.get? relative = some content) :
    Meets (deliver fails output relative) p
      (fun _ q => Tree.Touches (seat output relative) p.tree q.tree ∧
        Stands q.tree output relative content)
      (fun _ _ => True) := by
  refine (meets_deliver hnew).imp ?_ fun _ _ _ => trivial
  rintro place q ⟨hlocate, calls, rfl⟩
  obtain rfl := eq_seat_of_locate hplain hlocate
  exact touches_of_insert content h hplain hfree hlocate

theorem meets_place_touches {p : Progress (Shelf files)} (h : p.tree.WellFormed)
    (hplain : IsPlain relative) (hfree : p.tree.isDirectory (join output relative) = false)
    (hnew : files.get? relative = some content) :
    Meets (Commit.place fails output relative) p
      (fun _ q => Tree.Touches (seat output relative) p.tree q.tree ∧
        Stands q.tree output relative content)
      (fun _ _ => True) := by
  simp only [Commit.place, meets_bind, meets_get]
  split
  · rw [meets_bind]
    refine (meets_park_touches h hplain hfree).imp ?_ fun _ _ _ => trivial
    rintro - q ⟨htouches, -⟩
    rw [meets_bind]
    refine (meets_deliver_touches htouches.wellFormed hplain (htouches.isDirectory_eq_false hfree)
      hnew).imp ?_ fun _ _ _ => trivial
    rintro - r ⟨htouches', hstands⟩
    exact meets_pure.mpr ⟨htouches.trans htouches', hstands⟩
  · simp only [meets_bind, meets_get, meets_note]
    exact meets_deliver_touches h hplain hfree hnew

structure Removing (output : String) (files : FileSet) (stale rest : List String) (t : Tree) :
    Prop where
  wellFormed : t.WellFormed
  plain : ∀ relative ∈ rest, IsPlain relative
  free : ∀ relative ∈ rest ++ files.keys, t.isDirectory (join output relative) = false
  gone : ∀ relative ∈ stale, relative ∈ rest ∨ t.entry? (seat output relative) = none

theorem Removing.meets_remove {p : Progress (Shelf files)} {stale rest : List String}
    (h : Removing output files stale (relative :: rest) p.tree) :
    Meets (remove fails output relative) p
      (fun _ q => Removing output files stale rest q.tree) (fun _ _ => True) := by
  refine (meets_park_touches h.wellFormed (h.plain _ List.mem_cons_self)
    (h.free _ List.mem_cons_self)).imp ?_ fun _ _ _ => trivial
  rintro - q ⟨htouches, hnone⟩
  refine ⟨htouches.wellFormed, fun r hr => h.plain r (List.mem_cons_of_mem _ hr),
    fun r hr => htouches.isDirectory_eq_false (h.free r (List.mem_cons_of_mem _ hr)),
    fun r hr => ?_⟩
  by_cases hsame : seat output r = seat output relative
  · exact .inr (hsame ▸ hnone)
  · obtain hpending | hgone := h.gone r hr
    · obtain rfl | hrest := List.mem_cons.mp hpending
      · exact absurd rfl hsame
      · exact .inl hrest
    · exact .inr ((htouches.others _ hsame).trans hgone)

/-- The files but those of `rest` stand at their places, and the stale ones stay away. -/
structure Placing (output : String) (files : FileSet) (stale rest : List String) (t : Tree) :
    Prop where
  wellFormed : t.WellFormed
  pending : ∀ relative ∈ rest, relative ∈ files.keys
  free : ∀ relative ∈ files.keys, t.isDirectory (join output relative) = false
  gone : ∀ relative ∈ stale, t.entry? (seat output relative) = none
  stands : ∀ relative content, files.get? relative = some content →
    relative ∈ rest ∨ Stands t output relative content

theorem Placing.meets_place {p : Progress (Shelf files)} {stale rest : List String}
    (hfiles : ∀ r ∈ files.keys, IsPlain r) (hstale : ∀ r ∈ stale, IsPlain r ∧ r ∉ files.keys)
    (h : Placing output files stale (relative :: rest) p.tree) :
    Meets (Commit.place fails output relative) p
      (fun _ q => Placing output files stale rest q.tree) (fun _ _ => True) := by
  have hkey : relative ∈ files.keys := h.pending _ List.mem_cons_self
  obtain ⟨content, hcontent⟩ := Dict.mem_keys.mp hkey
  refine (meets_place_touches h.wellFormed (hfiles _ hkey) (h.free _ hkey) hcontent).imp ?_
    fun _ _ _ => trivial
  rintro - q ⟨htouches, hstands⟩
  refine ⟨htouches.wellFormed, fun r hr => h.pending r (List.mem_cons_of_mem _ hr),
    fun r hr => htouches.isDirectory_eq_false (h.free r hr), fun r hr => ?_,
    fun r content' hcontent' => ?_⟩
  · obtain ⟨hplain, hnot⟩ := hstale r hr
    have hother : seat output r ≠ seat output relative := fun hsame =>
      hnot (eq_of_seat hplain (hfiles _ hkey) hsame ▸ hkey)
    rw [htouches.others _ hother, h.gone r hr]
  · by_cases hsame : r = relative
    · subst hsame
      obtain rfl := Option.some.inj (hcontent.symm.trans hcontent')
      exact .inr hstands
    · obtain hpending | ⟨hlocate, he⟩ := h.stands r content' hcontent'
      · exact .inl ((List.mem_cons.mp hpending).resolve_left hsame)
      · refine .inr ⟨htouches.locate hlocate, ?_⟩
        rw [htouches.others, he]
        exact fun hseat =>
          hsame (eq_of_seat (hfiles _ (Dict.mem_keys.mpr ⟨_, hcontent'⟩)) (hfiles _ hkey) hseat)

end moving

/-- Whichever calls might have failed, a commit that succeeds has put every file in its place and
removed every stale one. -/
theorem meets_apply_stands (ht : t.WellFormed) (hfiles : ∀ r ∈ files.keys, Owns r) :
    Meets (apply fails output files) { toSite := ⟨t, ({} : Shelf files)⟩ }
      (fun stale q => q.tree.WellFormed ∧
        (∀ relative content, files.get? relative = some content →
          Stands q.tree output relative content) ∧
        ∀ relative, IsStale t output files relative →
          relative ∈ stale ∧ q.tree.entry? (seat output relative) = none)
      (fun _ _ => True) := by
  have hplain : ∀ r ∈ files.keys, IsPlain r := fun r hr => (hfiles r hr).isPlain
  simp only [apply, meets_bind]
  have hstart : Preparing output files t files.keys t :=
    ⟨ht, .refl _ t, hfiles, fun r hr => .inl hr⟩
  refine (meets_forM (I := fun rest q => Preparing output files t rest q.tree)
    (fun _ _ _ hq => hq.meets_prepare hfiles) hstart).imp (fun _ q hq => ?_) fun _ _ _ => trivial
  refine meets_staleFiles.imp ?_ fun _ _ _ => trivial
  rintro stale r ⟨hidle, -, hstale⟩
  have htree : r.tree = q.tree := congrArg Site.tree hidle.site
  have howns : ∀ relative ∈ stale, IsPlain relative ∧ relative ∉ files.keys := by
    intro relative hrelative
    have h := (hstale relative).mp hrelative
    refine ⟨(h.owns hq.wellFormed).isPlain, fun hkey => ?_⟩
    have hfree := h.1
    simp [Dict.contains_iff_mem_keys.mpr hkey] at hfree
  have hremoving : Removing output files stale stale r.tree := by
    refine ⟨htree ▸ hq.wellFormed, fun s hs => (howns s hs).1, fun s hs => ?_, fun s hs => .inl hs⟩
    rw [htree]
    obtain hs | hs := List.mem_append.mp hs
    · exact Tree.isDirectory_eq_false_of_isFile (howns s hs).1.endsSilently_join
        (((hstale s).mp hs).isFile hq.wellFormed)
    · exact ((hq.free s hs).resolve_left List.not_mem_nil).2
  refine (meets_forM (I := fun rest q => Removing output files stale rest q.tree)
    (fun _ _ _ hq => hq.meets_remove) hremoving).imp (fun _ u hu => ?_) fun _ _ _ => trivial
  have hplacing : Placing output files stale files.keys u.tree :=
    ⟨hu.wellFormed, fun _ h => h, hu.free,
      fun s hs => (hu.gone s hs).resolve_left List.not_mem_nil,
      fun _ _ hcontent => .inl (Dict.mem_keys.mpr ⟨_, hcontent⟩)⟩
  refine (meets_forM (I := fun rest q => Placing output files stale rest q.tree)
    (fun _ _ _ hq => hq.meets_place hplain howns) hplacing).imp (fun _ v hv => ?_)
    fun _ _ _ => trivial
  refine meets_pure.mpr ⟨hv.wellFormed,
    fun _ _ hcontent => (hv.stands _ _ hcontent).resolve_left List.not_mem_nil,
    fun relative hrelative => ?_⟩
  -- Making room has left the stale file where it was.
  have hplain' := (hrelative.owns ht).isPlain
  have hfile := hq.grows.isFile hplain'.endsSilently_join (hrelative.isFile ht)
  have hmem := (hstale relative).mpr (.of_isFile (hrelative.owns ht) hrelative.1 hfile)
  exact ⟨hmem, hv.gone relative hmem⟩

theorem isPresent_of_none (hplain : IsPlain relative)
    (hnone : t.entry? (seat output relative) = none) :
    t.isPresent (join output relative) = false := by
  rw [Tree.isPresent, Tree.lookUp]
  cases hlocate : t.locate (join output relative) with
  | error fault => rfl
  | ok place =>
    obtain rfl := eq_seat_of_locate hplain hlocate
    simp [hnone]

end AgentAssembly.Commit

namespace AgentAssembly.FileSet

open AgentAssembly.Path Package Commit

/-- A package that is installed stands on the disk, and what it owned there and no longer has is
gone. -/
theorem install_eq_ok {t t' : Tree} {temp : TempDir} {fails : Nat → Bool} {above output : String}
    {files : FileSet} {removed : List String} (ht : t.WellFormed)
    (hfiles : ∀ r ∈ files.keys, Owns r)
    (h : files.install temp fails above output t = (.ok removed, t')) :
    t'.WellFormed ∧ (∀ relative ∈ files.keys, t'.isFile (join output relative) = true) ∧
      ∀ relative, IsStale t output files relative →
        relative ∈ removed ∧ t'.isPresent (join output relative) = false := by
  obtain hshelved | ⟨fault, hfault⟩ := install_cases temp fails above output ht hfiles
  case inr => simp [hfault] at h
  rw [hshelved, shelved] at h
  have hmeets : Meets (apply fails output files) { toSite := ⟨t, ({} : Shelf files)⟩ } _ _ :=
    meets_apply_stands ht hfiles
  obtain ⟨stale, q, ⟨hwell, hstands, hgone⟩, hrun⟩ | ⟨fault, q, -, hrun⟩ := runOn_of_meets hmeets
  · rw [hrun] at h
    obtain ⟨hremoved, rfl⟩ := Prod.mk.inj h
    obtain rfl := Except.ok.inj hremoved
    refine ⟨hwell, fun relative hrelative => ?_, fun relative hrelative => ?_⟩
    · obtain ⟨content, hcontent⟩ := Dict.mem_keys.mp hrelative
      exact (hstands _ _ hcontent).isFile (hfiles relative hrelative).isPlain
    · obtain ⟨hmem, hnone⟩ := hgone relative hrelative
      exact ⟨hmem, isPresent_of_none (hrelative.owns ht).isPlain hnone⟩
  · simp [hrun] at h

/-- A package that was written stands on the disk, and what it owned there and no longer has is
gone. -/
theorem write_eq_ok {t t' : Tree} {temp : TempDir} {fails : Nat → Bool} {output : String}
    {files : FileSet} {removed : List String} (ht : t.WellFormed)
    (hfiles : ∀ r ∈ files.keys, Owns r)
    (h : files.write temp fails output t = (.ok removed, t')) :
    t'.WellFormed ∧ (∀ relative ∈ files.keys, t'.isFile (join output relative) = true) ∧
      ∀ relative, IsStale t output files relative →
        relative ∈ removed ∧ t'.isPresent (join output relative) = false := by
  obtain ⟨hwell, hgrows⟩ := ht.createUpwards_grows (withAncestors (directoryOf output))
  rw [FileSet.write, Tree.createDirectories] at h
  cases hcreate : t.createUpwards (withAncestors (directoryOf output)) with
  | mk result t₀ =>
    rw [hcreate] at h hwell hgrows
    cases result with
    | error fault => simp at h
    | ok =>
      obtain ⟨hwell', hstands, hgone⟩ := install_eq_ok hwell hfiles h
      refine ⟨hwell', hstands, fun relative hrelative => hgone relative ?_⟩
      have howns := hrelative.owns ht
      exact .of_isFile howns hrelative.1
        (hgrows.isFile howns.isPlain.endsSilently_join (hrelative.isFile ht))

end AgentAssembly.FileSet
