import AgentAssembly.Proofs.Disk.Lookup
import AgentAssembly.Proofs.Disk.Steps

/-!
What a commit makes of a tree when no call fails. Main statement: it succeeds exactly when no file
is in the way of a directory and no directory in the way of a file, and then the tree differs from
the one before by what is stale, the files put in place and the directories made for them.
-/

namespace AgentAssembly

open AgentAssembly.Path

/-- A file can be put at a place: no file is on the way to it, and it is no directory. -/
structure Tree.Ready (t : Tree) (place : Place) : Prop where
  clear : t.Clear place.dropLast
  not_directory : t.entry? place ≠ some .directory

/-- Making directories on the way to one place leaves others as ready as they were. -/
theorem Tree.ready_iff_of_opens {t t' : Tree} {above place : Place} (hclear : t.Clear above)
    (hopen : t.Opens above t') (hplace : ¬ place <+: above) : t'.Ready place ↔ t.Ready place := by
  have hway : t'.Clear place.dropLast ↔ t.Clear place.dropLast :=
    (hopen.sameFiles hclear).clear_iff
  have hsame := (hopen place).2 hplace
  constructor
  · rintro ⟨hclear', hnot⟩
    exact ⟨hway.mp hclear', hsame ▸ hnot⟩
  · rintro ⟨hclear', hnot⟩
    exact ⟨hway.mpr hclear', hsame.symm ▸ hnot⟩

namespace Commit

/-- No call fails. -/
def quiet : Nat → Bool := fun _ => false

variable {κ : Type} {t : Tree} {p : Progress κ} {output relative path content : String}
  {files : FileSet}

section opening

theorem meets_ensureDirectory_step (h : p.tree.WellFormed) {rest : List String}
    (hpath : LeadsDown path)
    (hrest : ∀ n, Meets (ensureDirectory quiet rest) { p with calls := n }
      (fun _ q => q.tree.WellFormed ∧ p.tree.Opens (names path).dropLast q.tree)
      (fun _ _ => ¬ p.tree.Clear (names path).dropLast)) :
    Meets (ensureDirectory quiet (path :: rest)) p
      (fun _ q => p.tree.Clear (names path) ∧ q.tree.WellFormed ∧
        p.tree.Opens (names path) q.tree)
      (fun _ _ => ¬ p.tree.Clear (names path)) := by
  simp only [ensureDirectory, meets_bind, meets_call, meets_get]
  rw [if_neg (by simp [quiet])]
  by_cases hclear : p.tree.Clear (names path)
  · cases he : p.tree.entry? (names path) with
    | none =>
      have hne := Tree.ne_nil_of_entry?_eq_none he
      simp only [h.lookUp_of_none hpath he hclear, meets_bind]
      refine (hrest _).imp ?_ fun _ _ hblocked =>
        absurd (hclear.of_prefix (List.dropLast_prefix _)) hblocked
      rintro - q ⟨hwell, hopen⟩
      have hmissing : q.tree.entry? (names path) = none := by
        rw [(hopen _).2 (Tree.not_before_dropLast hne), he]
      obtain ⟨hcreate, hwell'⟩ :=
        hwell.createDirectory_of_none hpath ((hopen _).1 List.prefix_rfl) hmissing
      simp only [meets_call, meets_get]
      rw [if_neg (by simp [quiet])]
      simp only [hcreate, meets_note]
      exact ⟨hclear, hwell', hopen.opens_insert hne⟩
    | some e =>
      cases e with
      | file content => exact absurd he (hclear _ List.prefix_rfl content)
      | directory =>
        simp only [(h.lookUp_eq_ok_iff hpath (.inl rfl)).mpr he, meets_pure]
        exact ⟨hclear, h, h.opens_self he⟩
  · obtain hlook | ⟨content, hlook⟩ := h.lookUp_of_not_clear hpath hclear
    · simpa only [hlook, meets_refuse] using hclear
    · simpa only [hlook, meets_refuse] using hclear

theorem meets_ensureDirectory_quiet (h : p.tree.WellFormed) {rest : List String}
    (hclimbs : Climbs path rest) (hpaths : ∀ other ∈ path :: rest, LeadsDown other) :
    Meets (ensureDirectory quiet (path :: rest)) p
      (fun _ q => p.tree.Clear (names path) ∧ q.tree.WellFormed ∧
        p.tree.Opens (names path) q.tree)
      (fun _ _ => ¬ p.tree.Clear (names path)) := by
  induction hclimbs generalizing p with
  | last htop =>
    refine meets_ensureDirectory_step h (hpaths _ List.mem_cons_self) fun n => ?_
    refine meets_pure.mpr ⟨h, ?_⟩
    rw [htop]
    exact h.opens_self Tree.entry?_nil
  | @step path above rest habove hclimbs ih =>
    refine meets_ensureDirectory_step h (hpaths _ List.mem_cons_self) fun n => ?_
    have hrest := ih (p := { p with calls := n }) h fun other hother =>
      hpaths other (List.mem_cons_of_mem path hother)
    rw [← habove]
    exact hrest.imp (fun _ _ hmade => hmade.2) fun _ _ hblocked => hblocked

def target (output relative : String) : Place := names output ++ names relative

theorem names_join_of_isPlain (h : IsPlain relative) :
    names (join output relative) = target output relative := names_join h.isAbsolute_eq

theorem meets_prepare_quiet (h : p.tree.WellFormed) (houtput : output ≠ "")
    (hplain : IsPlain relative) (hpath : LeadsDown (join output relative)) :
    Meets (prepare quiet output relative) p
      (fun _ q => p.tree.Ready (target output relative) ∧ q.tree.WellFormed ∧
        p.tree.Opens (target output relative).dropLast q.tree)
      (fun _ _ => ¬ p.tree.Ready (target output relative)) := by
  rw [← names_join_of_isPlain hplain]
  obtain ⟨above, hparent, habove⟩ := exists_isAbove_join houtput hplain
  obtain ⟨rest, hrest, hclimbs⟩ := climbs_withAncestors above
  have hupward := (IsUpward.refl habove.ne_empty).of_isAbove habove
  have hdown : LeadsDown above := hpath.of_isUpward hupward
  have hdowns : ∀ other ∈ above :: rest, LeadsDown other := fun other hother =>
    hdown.of_mem_withAncestors (hrest ▸ hother)
  have hne : names (join output relative) ≠ [] := by
    rw [names_join hplain.isAbsolute_eq]
    simp [hplain.names_ne_nil]
  unfold prepare
  simp only [hparent, hrest, meets_bind]
  refine (meets_ensureDirectory_quiet h hclimbs hdowns).imp ?_
    fun _ _ hblocked hready => hblocked (habove.names_eq ▸ hready.clear)
  rintro - q ⟨hclear, hwell, hopen⟩
  rw [habove.names_eq] at hclear hopen
  have hsame := (hopen _).2 (Tree.not_before_dropLast hne)
  simp only [meets_get]
  split
  · rename_i hdirectory
    rw [hwell.isDirectory_iff hpath, hsame] at hdirectory
    exact meets_refuse.mpr fun hready => hready.not_directory hdirectory
  · rename_i hdirectory
    rw [hwell.isDirectory_iff hpath, hsame] at hdirectory
    exact meets_pure.mpr ⟨⟨hclear, hdirectory⟩, hwell, hopen⟩

/-- The files to put in place below an output directory. None stands where another needs a
directory. -/
structure Layout (output : String) (files : List String) : Prop where
  not_empty : output ≠ ""
  plain : ∀ relative ∈ files, IsPlain relative
  down : ∀ relative ∈ files, LeadsDown (join output relative)
  apart : ∀ relative ∈ files, ∀ other ∈ files,
    ¬ target output relative <+: (target output other).dropLast

theorem Layout.tail {rest : List String} (h : Layout output (relative :: rest)) :
    Layout output rest where
  not_empty := h.not_empty
  plain other hother := h.plain other (List.mem_cons_of_mem _ hother)
  down other hother := h.down other (List.mem_cons_of_mem _ hother)
  apart one hone other hother :=
    h.apart one (List.mem_cons_of_mem _ hone) other (List.mem_cons_of_mem _ hother)

theorem Layout.meets_prepare {files : List String} (hfiles : Layout output files)
    (h : p.tree.WellFormed) :
    Meets (files.forM (prepare quiet output)) p
      (fun _ q => (∀ relative ∈ files, p.tree.Ready (target output relative)) ∧
        q.tree.WellFormed ∧ Tree.Sets (some .directory)
          (fun place => ∃ relative ∈ files, place <+: (target output relative).dropLast)
          p.tree q.tree)
      (fun _ _ => ¬ ∀ relative ∈ files, p.tree.Ready (target output relative)) := by
  induction files generalizing p with
  | nil => exact meets_forM_nil.mpr ⟨by simp, h, Tree.sets_self (by simp)⟩
  | cons relative rest ih =>
    rw [meets_forM_cons]
    refine (meets_prepare_quiet h hfiles.not_empty (hfiles.plain _ List.mem_cons_self)
      (hfiles.down _ List.mem_cons_self)).imp ?_
      fun _ _ hnot hall => hnot (hall _ List.mem_cons_self)
    rintro - q ⟨hready, hwell, hopen⟩
    have hkept : (∀ other ∈ rest, q.tree.Ready (target output other)) ↔
        ∀ other ∈ rest, p.tree.Ready (target output other) := by
      refine forall₂_congr fun other hother => Tree.ready_iff_of_opens hready.clear hopen ?_
      exact hfiles.apart other (List.mem_cons_of_mem _ hother) relative List.mem_cons_self
    refine (ih hfiles.tail hwell).imp ?_ fun _ _ hnot hall => hnot (hkept.mpr fun other hother =>
      hall other (List.mem_cons_of_mem _ hother))
    rintro - r ⟨hrest, hwell', hsets⟩
    refine ⟨?_, hwell', ?_⟩
    · exact List.forall_mem_cons.mpr ⟨hready, hkept.mp hrest⟩
    · refine (hopen.trans hsets).congr fun place => ?_
      rw [List.exists_mem_cons_iff]

end opening

section moving

theorem target_ne_nil (h : IsPlain relative) : target output relative ≠ [] := by
  simp [target, h.names_ne_nil]

theorem eq_of_target {other : String} (h : IsPlain relative) (hother : IsPlain other)
    (hsame : target output relative = target output other) : relative = other :=
  h.eq_of_names hother (List.append_cancel_left hsame)

theorem meets_park_quiet {p : Progress (Shelf files)} {change : Place → String → Change} {e : Entry}
    (h : p.tree.WellFormed) (hplain : IsPlain relative) (hpath : LeadsDown (join output relative))
    (he : p.tree.entry? (target output relative) = some e) :
    Meets (park quiet output relative change) p
      (fun _ q => q.tree = p.tree.erase (target output relative)) (fun _ _ => False) := by
  rw [← names_join_of_isPlain hplain] at he ⊢
  have hlocate := h.locate_of_parent hpath (h.admits _ _ he).parent
  refine meets_park.imp ?_ ?_
  · rintro - q ⟨place, -, -, hlocate', -, rfl⟩
    obtain rfl := Except.ok.inj (hlocate.symm.trans hlocate')
    rfl
  · rintro - q ⟨-, ⟨n, hfails⟩ | hnone⟩
    · simp [quiet] at hfails
    · simp [hnone _ hlocate] at he

theorem meets_deliver_quiet {p : Progress (Shelf files)} (h : p.tree.WellFormed)
    (hplain : IsPlain relative) (hpath : LeadsDown (join output relative))
    (hparent : p.tree.entry? (target output relative).dropLast = some .directory)
    (hnew : files.get? relative = some content) :
    Meets (deliver quiet output relative) p
      (fun _ q => q.tree = p.tree.insert (target output relative) (.file content))
      (fun _ _ => False) := by
  rw [← names_join_of_isPlain hplain] at hparent ⊢
  have hlocate := h.locate_of_parent hpath hparent
  refine (meets_deliver hnew).imp ?_ ?_
  · rintro place q ⟨hlocate', -, rfl⟩
    obtain rfl := Except.ok.inj (hlocate.symm.trans hlocate')
    rfl
  · rintro - q ⟨-, ⟨n, hfails⟩ | ⟨fault, hfault⟩⟩
    · simp [quiet] at hfails
    · simp [hlocate] at hfault

theorem meets_place_quiet {p : Progress (Shelf files)} (h : p.tree.WellFormed)
    (hplain : IsPlain relative) (hpath : LeadsDown (join output relative))
    (hparent : p.tree.entry? (target output relative).dropLast = some .directory)
    (hnot : p.tree.entry? (target output relative) ≠ some .directory)
    (hnew : files.get? relative = some content) :
    Meets (place quiet output relative) p
      (fun _ q => q.tree = p.tree.insert (target output relative) (.file content) ∧
        q.tree.WellFormed)
      (fun _ _ => False) := by
  have hne : target output relative ≠ [] := target_ne_nil hplain
  have hnames : names (join output relative) = target output relative :=
    names_join_of_isPlain hplain
  have hadmits := h.admits_of_locate (h.locate_of_parent hpath (hnames ▸ hparent))
  rw [hnames] at hadmits
  have hwell := h.insert (e := .file content) hadmits hne (.inr hnot)
  simp only [place, meets_bind, meets_get]
  split
  · rename_i hpresent
    obtain ⟨e, he⟩ := (h.isPresent_iff hpath hplain.endsSilently_join).mp hpresent
    rw [hnames] at he
    rw [meets_bind]
    refine (meets_park_quiet h hplain hpath he).imp (fun _ q hq => ?_) fun _ _ hfalse => hfalse
    have hq' : q.tree.WellFormed := hq ▸ h.erase hne hnot
    have hparent' : q.tree.entry? (target output relative).dropLast = some .directory := by
      have hother : (target output relative).dropLast ≠ target output relative := fun hsame =>
        Tree.not_before_dropLast hne (by rw [hsame])
      rw [hq, Tree.entry?_erase hne, if_neg hother, hparent]
    rw [meets_bind]
    refine (meets_deliver_quiet hq' hplain hpath hparent' hnew).imp (fun _ r hr => ?_)
      fun _ _ hfalse => hfalse
    rw [hq, Tree.insert_after_erase] at hr
    exact meets_pure.mpr ⟨hr, hr ▸ hwell⟩
  · simp only [meets_bind, meets_get, meets_note]
    refine (meets_deliver_quiet h hplain hpath hparent hnew).imp (fun _ q hq => ?_)
      fun _ _ hfalse => hfalse
    exact ⟨hq, hq ▸ hwell⟩

theorem meets_remove_quiet {p : Progress (Shelf files)} {stale : List String}
    (h : p.tree.WellFormed)
    (hplain : ∀ relative ∈ stale, IsPlain relative)
    (hdown : ∀ relative ∈ stale, LeadsDown (join output relative)) (hdistinct : stale.Nodup)
    (hfile : ∀ relative ∈ stale, ∃ content,
      p.tree.entry? (target output relative) = some (.file content)) :
    Meets (stale.forM (remove quiet output)) p
      (fun _ q => q.tree.WellFormed ∧
        Tree.Sets none (fun place => ∃ relative ∈ stale, place = target output relative)
          p.tree q.tree)
      (fun _ _ => False) := by
  induction stale generalizing p with
  | nil => exact meets_forM_nil.mpr ⟨h, Tree.sets_self (by simp)⟩
  | cons relative rest ih =>
    obtain ⟨hnew, hdistinct⟩ := List.nodup_cons.mp hdistinct
    have hne : target output relative ≠ [] := target_ne_nil (hplain _ List.mem_cons_self)
    obtain ⟨content, hcontent⟩ := hfile _ List.mem_cons_self
    rw [meets_forM_cons]
    refine (meets_park_quiet h (hplain _ List.mem_cons_self) (hdown _ List.mem_cons_self)
      hcontent).imp (fun _ q hq => ?_) fun _ _ hfalse => hfalse
    have hwell : q.tree.WellFormed := hq ▸ h.erase hne (by simp [hcontent])
    refine (ih hwell (fun r hr => hplain r (List.mem_cons_of_mem _ hr))
      (fun r hr => hdown r (List.mem_cons_of_mem _ hr)) hdistinct fun r hr => ?_).imp
      (fun _ r hr => ⟨hr.1, ?_⟩) fun _ _ hfalse => hfalse
    · have hother : target output r ≠ target output relative := fun hsame =>
        hnew (eq_of_target (hplain r (List.mem_cons_of_mem _ hr))
          (hplain _ List.mem_cons_self) hsame ▸ hr)
      rw [hq, Tree.entry?_erase hne, if_neg hother]
      exact hfile r (List.mem_cons_of_mem _ hr)
    · have hsets := hr.2
      rw [hq] at hsets
      refine ((Tree.sets_erase hne).trans hsets).congr fun place => ?_
      rw [List.exists_mem_cons_iff]

theorem Layout.meets_place {p : Progress (Shelf files)} {rest : List String}
    (hlayout : Layout output rest) (hdistinct : rest.Nodup)
    (hnew : ∀ relative ∈ rest, ∃ content, files.get? relative = some content)
    (h : p.tree.WellFormed)
    (hparent : ∀ relative ∈ rest,
      p.tree.entry? (target output relative).dropLast = some .directory)
    (hnot : ∀ relative ∈ rest, p.tree.entry? (target output relative) ≠ some .directory) :
    Meets (rest.forM (place quiet output)) p
      (fun _ q => (∀ relative ∈ rest,
          q.tree.entry? (target output relative) = (files.get? relative).map .file) ∧
        ∀ place, (∀ relative ∈ rest, place ≠ target output relative) →
          q.tree.entry? place = p.tree.entry? place)
      (fun _ _ => False) := by
  induction rest generalizing p with
  | nil => exact meets_forM_nil.mpr ⟨by simp, fun _ _ => rfl⟩
  | cons relative rest ih =>
    obtain ⟨hfresh, hdistinct⟩ := List.nodup_cons.mp hdistinct
    obtain ⟨content, hcontent⟩ := hnew _ List.mem_cons_self
    have hplain := hlayout.plain _ List.mem_cons_self
    have hne : target output relative ≠ [] := target_ne_nil hplain
    have hother : ∀ other ∈ rest, target output other ≠ target output relative :=
      fun other hother hsame =>
        hfresh (eq_of_target (hlayout.plain other (List.mem_cons_of_mem _ hother)) hplain hsame ▸
          hother)
    rw [meets_forM_cons]
    refine (meets_place_quiet h hplain (hlayout.down _ List.mem_cons_self)
      (hparent _ List.mem_cons_self) (hnot _ List.mem_cons_self) hcontent).imp ?_
      fun _ _ hfalse => hfalse
    rintro - q ⟨hq, hwell⟩
    have hentry : ∀ place, place ≠ target output relative →
        q.tree.entry? place = p.tree.entry? place := fun place hplace => by
      rw [hq, Tree.entry?_insert hne, if_neg hplace]
    refine (ih hlayout.tail hdistinct (fun r hr => hnew r (List.mem_cons_of_mem _ hr)) hwell
      (fun r hr => ?_) fun r hr => ?_).imp
      (fun _ u hu => ⟨?_, fun place hplace => ?_⟩) fun _ _ hfalse => hfalse
    · have hapart := hlayout.apart relative List.mem_cons_self r (List.mem_cons_of_mem _ hr)
      rw [hentry _ fun hsame => hapart (hsame ▸ List.prefix_rfl)]
      exact hparent r (List.mem_cons_of_mem _ hr)
    · rw [hentry _ (hother r hr)]
      exact hnot r (List.mem_cons_of_mem _ hr)
    · refine List.forall_mem_cons.mpr ⟨?_, hu.1⟩
      rw [hu.2 _ fun r hr => (hother r hr).symm, hq, Tree.entry?_insert hne, if_pos rfl, hcontent]
      rfl
    · obtain ⟨hfirst, hrest⟩ := List.forall_mem_cons.mp hplace
      rw [hu.2 place hrest, hentry place hfirst]

end moving

section stale

/-- The search for stale files looks at these paths below the output directory. -/
inductive IsSearched (t : Tree) (output : String) : String → Prop
  | top {name : String} : name ∈ Package.topFiles → IsSearched t output name
  | directory {name : String} : name ∈ Package.directories → IsSearched t output name
  | found {relative content : String} : Package.Owns relative →
      t.entry? (target output relative) = some (.file content) → IsSearched t output relative

theorem IsSearched.of_sameFiles {t' : Tree} (h : IsSearched t' output relative)
    (hsame : Tree.SameFiles t t') : IsSearched t output relative := by
  cases h with
  | top htop => exact .top htop
  | directory hdirectory => exact .directory hdirectory
  | found howns hcontent => exact .found howns ((hsame _ _).mp hcontent)

theorem isStale_iff (h : t.WellFormed)
    (hdown : ∀ relative, IsSearched t output relative → LeadsDown (join output relative)) :
    IsStale t output files relative ↔ files.contains relative = false ∧ Package.Owns relative ∧
      ∃ content, t.entry? (target output relative) = some (.file content) := by
  constructor
  · intro hstale
    have howns := hstale.owns h
    have hup : ".." ∉ names output := by
      have htop : "agent.py" ∈ Package.topFiles := by decide
      have hnot := (hdown _ (.top htop)).not_up
      rw [names_join (isPlain_of_isName (Package.isName_of_mem_topFiles _ htop)).isAbsolute_eq]
        at hnot
      exact fun hmem => hnot (List.mem_append_left _ hmem)
    refine ⟨hstale.1, howns, ?_⟩
    rw [← names_join_of_isPlain howns.isPlain]
    refine Tree.entry?_of_isFile ?_ (hstale.isFile h)
    rw [names_join howns.isPlain.isAbsolute_eq, List.mem_append, not_or]
    exact ⟨hup, fun hmem => (howns.isPlain.isName_of_mem hmem).ne_up rfl⟩
  · rintro ⟨hfree, howns, content, hcontent⟩
    have hplain := howns.isPlain
    have hpath := hdown _ (.found howns hcontent)
    refine .of_isFile howns hfree ((h.isFile_iff hpath hplain.endsSilently_join).mpr ⟨content, ?_⟩)
    rw [names_join_of_isPlain hplain, hcontent]

/-- These are the files that the package owns on disk and does not have, in order. -/
structure AreStale (t : Tree) (files : FileSet) (output : String) (stale : List String) : Prop where
  sorted : stale.Pairwise (compare · · = .lt)
  mem_iff : ∀ relative, relative ∈ stale ↔ files.contains relative = false ∧
    Package.Owns relative ∧ ∃ content, t.entry? (target output relative) = some (.file content)

theorem AreStale.of_sameFiles {t' : Tree} {stale : List String} (h : AreStale t' files output stale)
    (hsame : Tree.SameFiles t t') : AreStale t files output stale :=
  ⟨h.sorted, by simpa only [hsame _ _] using h.mem_iff⟩

theorem meets_staleFiles_quiet (h : p.tree.WellFormed)
    (hdown : ∀ relative, IsSearched p.tree output relative → LeadsDown (join output relative)) :
    Meets (staleFiles quiet output files) p
      (fun stale q => q.tree = p.tree ∧ AreStale p.tree files output stale)
      (fun _ _ => False) := by
  refine meets_staleFiles.imp ?_ ?_
  · rintro stale q ⟨hidle, hsorted, hstale⟩
    refine ⟨congrArg Site.tree hidle.site, hsorted, fun relative => ?_⟩
    rw [hstale, isStale_iff h hdown]
  · rintro - - ⟨-, n, hfails⟩
    simp [quiet] at hfails

end stale

section whole

/-- What a commit makes of a tree: the files are in place, what is stale is gone, what is on the
way to a file is a directory, and the rest is as it was. -/
structure Lands (output : String) (files : FileSet) (stale : List String) (t t' : Tree) : Prop where
  placed : ∀ relative content, files.get? relative = some content →
    t'.entry? (target output relative) = some (.file content)
  removed : ∀ relative ∈ stale, t'.entry? (target output relative) = none
  opened : ∀ relative ∈ files.keys, ∀ place, place <+: (target output relative).dropLast →
    t'.entry? place = some .directory
  kept : ∀ place, (∀ relative ∈ files.keys, place ≠ target output relative ∧
      ¬ place <+: (target output relative).dropLast) →
    (∀ relative ∈ stale, place ≠ target output relative) → t'.entry? place = t.entry? place

/-- Each place is that of a file, on the way to one, that of a stale file, or as it was. -/
theorem Lands.entry?_cases {t' : Tree} {stale : List String} (h : Lands output files stale t t')
    (place : Place) :
    (∃ relative content, files.get? relative = some content ∧ place = target output relative ∧
      t'.entry? place = some (.file content)) ∨
    ((∃ relative ∈ files.keys, place <+: (target output relative).dropLast) ∧
      t'.entry? place = some .directory) ∨
    ((∃ relative ∈ stale, place = target output relative) ∧ t'.entry? place = none) ∨
    (¬ ∃ relative ∈ files.keys, place <+: (target output relative).dropLast) ∧
      (∀ relative ∈ files.keys, place ≠ target output relative) ∧
      (∀ relative ∈ stale, place ≠ target output relative) ∧ t'.entry? place = t.entry? place := by
  by_cases hfile : ∃ relative ∈ files.keys, place = target output relative
  · obtain ⟨relative, hrelative, rfl⟩ := hfile
    obtain ⟨content, hcontent⟩ := Dict.mem_keys.mp hrelative
    exact .inl ⟨relative, content, hcontent, rfl, h.placed relative content hcontent⟩
  · by_cases hway : ∃ relative ∈ files.keys, place <+: (target output relative).dropLast
    · obtain ⟨relative, hrelative, hbefore⟩ := hway
      exact .inr (.inl ⟨⟨relative, hrelative, hbefore⟩,
        h.opened relative hrelative place hbefore⟩)
    · by_cases hstale : ∃ relative ∈ stale, place = target output relative
      · obtain ⟨relative, hrelative, rfl⟩ := hstale
        exact .inr (.inr (.inl ⟨⟨relative, hrelative, rfl⟩, h.removed relative hrelative⟩))
      · have hother : ∀ relative ∈ files.keys, place ≠ target output relative :=
          fun relative hrelative hsame => hfile ⟨relative, hrelative, hsame⟩
        have hfresh : ∀ relative ∈ stale, place ≠ target output relative :=
          fun relative hrelative hsame => hstale ⟨relative, hrelative, hsame⟩
        refine .inr (.inr (.inr ⟨hway, hother, hfresh, h.kept place ?_ hfresh⟩))
        exact fun relative hrelative => ⟨hother relative hrelative,
          fun hbefore => hway ⟨relative, hrelative, hbefore⟩⟩

/-- The directories made for the files are still there when what is stale has been removed. -/
theorem made_of_sets {t₁ t₂ : Tree} {stale : List String}
    (hready : ∀ relative ∈ files.keys, t.Ready (target output relative))
    (hopen : Tree.Sets (some .directory)
      (fun place => ∃ relative ∈ files.keys, place <+: (target output relative).dropLast) t t₁)
    (hremove : Tree.Sets none (fun place => ∃ relative ∈ stale, place = target output relative)
      t₁ t₂)
    (hstale : ∀ relative ∈ stale, ∃ content,
      t.entry? (target output relative) = some (.file content))
    (hrelative : relative ∈ files.keys) {place : Place}
    (hplace : place <+: (target output relative).dropLast) :
    t₂.entry? place = some .directory := by
  rw [(hremove place).2 ?_, (hopen place).1 ⟨relative, hrelative, hplace⟩]
  rintro ⟨other, hother, rfl⟩
  obtain ⟨content, hcontent⟩ := hstale other hother
  exact (hready relative hrelative).clear _ hplace content hcontent

theorem not_directory_of_sets {t₁ t₂ : Tree} {S : Place → Prop} (hlayout : Layout output files.keys)
    (hready : ∀ relative ∈ files.keys, t.Ready (target output relative))
    (hopen : Tree.Sets (some .directory)
      (fun place => ∃ relative ∈ files.keys, place <+: (target output relative).dropLast) t t₁)
    (hremove : Tree.Sets none S t₁ t₂) (hrelative : relative ∈ files.keys) :
    t₂.entry? (target output relative) ≠ some .directory := by
  by_cases hgone : S (target output relative)
  · simp [(hremove _).1 hgone]
  · rw [(hremove _).2 hgone, (hopen _).2]
    · exact (hready relative hrelative).not_directory
    · rintro ⟨other, hother, hbefore⟩
      exact hlayout.apart relative hrelative other hother hbefore

theorem Lands.of_sets {t₁ t₂ t₃ : Tree} {stale : List String}
    (hlayout : Layout output files.keys)
    (hready : ∀ relative ∈ files.keys, t.Ready (target output relative))
    (hopen : Tree.Sets (some .directory)
      (fun place => ∃ relative ∈ files.keys, place <+: (target output relative).dropLast) t t₁)
    (hremove : Tree.Sets none (fun place => ∃ relative ∈ stale, place = target output relative)
      t₁ t₂)
    (hstale : AreStale t files output stale)
    (hplaced : ∀ relative ∈ files.keys,
      t₃.entry? (target output relative) = (files.get? relative).map .file)
    (hsame : ∀ place, (∀ relative ∈ files.keys, place ≠ target output relative) →
      t₃.entry? place = t₂.entry? place) :
    Lands output files stale t t₃ where
  placed relative content h := by rw [hplaced relative (Dict.mem_keys.mpr ⟨_, h⟩), h]; rfl
  removed relative h := by
    obtain ⟨hfree, howns, -⟩ := (hstale.mem_iff relative).mp h
    rw [hsame, (hremove _).1 ⟨relative, h, rfl⟩]
    intro other hother hequal
    obtain rfl := eq_of_target howns.isPlain (hlayout.plain other hother) hequal
    simp [Dict.contains_iff_mem_keys.mpr hother] at hfree
  opened relative hrelative place hplace := by
    have hfound := fun r hr => ((hstale.mem_iff r).mp hr).2.2
    rw [hsame, made_of_sets hready hopen hremove hfound hrelative hplace]
    rintro other hother rfl
    exact hlayout.apart other hother relative hrelative hplace
  kept place hfiles hnot := by
    rw [hsame place fun r hr => (hfiles r hr).1, (hremove place).2, (hopen place).2]
    · rintro ⟨r, hr, hbefore⟩
      exact (hfiles r hr).2 hbefore
    · rintro ⟨r, hr, hequal⟩
      exact hnot r hr hequal

theorem meets_apply_quiet (ht : t.WellFormed) (hlayout : Layout output files.keys)
    (hdown : ∀ relative, IsSearched t output relative → LeadsDown (join output relative)) :
    Meets (apply quiet output files) { toSite := ⟨t, ({} : Shelf files)⟩ }
      (fun stale q => (∀ relative ∈ files.keys, t.Ready (target output relative)) ∧
        AreStale t files output stale ∧ Lands output files stale t q.tree)
      (fun _ _ => ¬ ∀ relative ∈ files.keys, t.Ready (target output relative)) := by
  simp only [apply, meets_bind]
  refine (hlayout.meets_prepare (p := { toSite := ⟨t, ({} : Shelf files)⟩ }) ht).imp ?_
    fun _ _ hnot => hnot
  rintro - q ⟨hready, hwell, hopen⟩
  have hfile : Tree.SameFiles t q.tree := by
    refine hopen.sameFiles ?_
    rintro place ⟨relative, hrelative, hbefore⟩
    exact (hready relative hrelative).clear place hbefore
  refine (meets_staleFiles_quiet hwell fun relative hsearched =>
    hdown relative (hsearched.of_sameFiles hfile)).imp ?_ fun _ _ hfalse => hfalse.elim
  rintro stale r ⟨htree, hstale⟩
  have hstale := hstale.of_sameFiles hfile
  have howns : ∀ relative ∈ stale, Package.Owns relative := fun relative hrelative =>
    ((hstale.mem_iff relative).mp hrelative).2.1
  have hfiles : ∀ relative ∈ stale, ∃ content,
      t.entry? (target output relative) = some (.file content) := fun relative hrelative =>
    ((hstale.mem_iff relative).mp hrelative).2.2
  have hfound : ∀ relative ∈ stale, LeadsDown (join output relative) := by
    intro relative hrelative
    obtain ⟨content, hcontent⟩ := hfiles relative hrelative
    exact hdown _ (.found (howns relative hrelative) hcontent)
  refine (meets_remove_quiet (p := r) (htree ▸ hwell)
    (fun relative hrelative => (howns relative hrelative).isPlain) hfound
    (Dict.nodup_of_sorted hstale.sorted) (by simpa only [htree, hfile _ _] using hfiles)).imp ?_
    fun _ _ hfalse => hfalse.elim
  rintro - u ⟨hwell', hremove⟩
  rw [htree] at hremove
  refine (Layout.meets_place (p := u) hlayout (Dict.nodup_of_sorted files.sorted_keys)
    (fun relative => Dict.mem_keys.mp) hwell' (fun relative hrelative => ?_)
    fun relative hrelative => ?_).imp ?_ fun _ _ hfalse => hfalse.elim
  · exact made_of_sets hready hopen hremove hfiles hrelative List.prefix_rfl
  · exact not_directory_of_sets hlayout hready hopen hremove hrelative
  · rintro - v ⟨hplaced, hsame⟩
    exact meets_pure.mpr ⟨hready, hstale, .of_sets hlayout hready hopen hremove
      hstale hplaced hsame⟩

end whole

end Commit
end AgentAssembly
