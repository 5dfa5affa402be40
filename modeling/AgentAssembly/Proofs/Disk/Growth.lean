import AgentAssembly.Proofs.Disk.Lookup

/-!
Trees that keep their directories. Main statements: a path leads where it led as long as no
directory on its way goes, making directories changes nothing else even where it fails half-way,
and a file that comes or goes leaves every other path as it was.
-/

namespace AgentAssembly.Tree

open AgentAssembly.Path

variable {t t' t'' : Tree} {e : Entry} {place q : Place} {path content : String}
  {S S' : Place → Prop}

section looking

theorem isDirectory_iff_locate : t.isDirectory path = true ↔
    ∃ place, t.locate path = .ok place ∧ t.entry? place = some .directory := by
  rw [isDirectory, lookUp]
  cases t.locate path with
  | error fault => simp
  | ok place =>
    cases he : t.entry? place with
    | none => simp [he]
    | some e =>
      cases e with
      | directory => simp [he]
      | file content => cases endsSilently path <;> simp [he]

theorem isFile_iff_locate (hpath : endsSilently path = false) : t.isFile path = true ↔
    ∃ place content, t.locate path = .ok place ∧ t.entry? place = some (.file content) := by
  rw [isFile, lookUp, hpath]
  cases t.locate path with
  | error fault => simp
  | ok place =>
    cases he : t.entry? place with
    | none => simp [he]
    | some e => cases e <;> simp [he]

theorem isDirectory_eq_false_of_isFile (hpath : endsSilently path = false)
    (h : t.isFile path = true) : t.isDirectory path = false := by
  obtain ⟨place, content, hlocate, hcontent⟩ := (isFile_iff_locate hpath).mp h
  rw [← Bool.not_eq_true, isDirectory_iff_locate]
  rintro ⟨other, hother, hdirectory⟩
  obtain rfl := Except.ok.inj (hlocate.symm.trans hother)
  simp [hcontent] at hdirectory

theorem not_directory_of_isDirectory (h : t.isDirectory path = false)
    (hlocate : t.locate path = .ok place) : t.entry? place ≠ some .directory := fun he =>
  absurd (isDirectory_iff_locate.mpr ⟨place, hlocate, he⟩) (by simp [h])

end looking

section directories

def KeepsDirectories (t t' : Tree) : Prop :=
  ∀ q, t.entry? q = some .directory → t'.entry? q = some .directory

theorem KeepsDirectories.follow (h : t.KeepsDirectories t') {names : List String}
    (hfollow : t.follow place names = .ok q) : t'.follow place names = .ok q := by
  fun_induction Tree.follow t place names with
  | case1 place => exact hfollow
  | case2 | case3 | case6 => simp at hfollow
  | case4 place rest hdirectory ih => simpa [Tree.follow, h _ hdirectory] using ih hfollow
  | case5 place name rest hdirectory hname hfits ih =>
    simpa [Tree.follow, h _ hdirectory, hname, hfits] using ih hfollow

theorem KeepsDirectories.locate (h : t.KeepsDirectories t') (hlocate : t.locate path = .ok place) :
    t'.locate path = .ok place := by
  obtain ⟨hnul, hempty, hsize, hfollow⟩ := locate_eq_ok_iff.mp hlocate
  exact locate_eq_ok_iff.mpr ⟨hnul, hempty, hsize, h.follow hfollow⟩

theorem KeepsDirectories.isDirectory (h : t.KeepsDirectories t')
    (hdirectory : t.isDirectory path = true) : t'.isDirectory path = true := by
  obtain ⟨place, hlocate, he⟩ := isDirectory_iff_locate.mp hdirectory
  exact isDirectory_iff_locate.mpr ⟨place, h.locate hlocate, h place he⟩

def Reaches (t : Tree) (names : List String) : Prop :=
  ∃ place, t.follow [] names = .ok place ∧ t.entry? place = some .directory

theorem Reaches.mono {names : List String} (h : t.Reaches names) (hkeeps : t.KeepsDirectories t') :
    t'.Reaches names := by
  obtain ⟨place, hfollow, he⟩ := h
  exact ⟨place, hkeeps.follow hfollow, hkeeps place he⟩

theorem Reaches.follow_eq {names : List String} (h : t.Reaches names) :
    t.follow [] names = .ok (resolve [] names) := by
  obtain ⟨place, hfollow, -⟩ := h
  rwa [← eq_resolve_of_follow hfollow]

theorem Reaches.entry?_eq {names : List String} (h : t.Reaches names) :
    t.entry? (resolve [] names) = some .directory := by
  obtain ⟨place, hfollow, he⟩ := h
  rwa [← eq_resolve_of_follow hfollow]

theorem reaches_of_follow {front back : List String} (h : t.follow [] (front ++ back) = .ok place)
    (he : back = [] → t.entry? place = some .directory) : t.Reaches front := by
  rw [follow_append] at h
  cases hfront : t.follow [] front with
  | error fault => simp [hfront, Except.bind] at h
  | ok above =>
    refine ⟨above, hfront, ?_⟩
    rw [hfront] at h
    cases back with
    | nil => exact Except.ok.inj h ▸ he rfl
    | cons name rest =>
      cases habove : t.entry? above with
      | none => simp [Except.bind, follow, habove] at h
      | some e =>
        cases e with
        | directory => rfl
        | file content => simp [Except.bind, follow, habove] at h

theorem Reaches.of_prefix {names front : List String} (h : t.Reaches names)
    (hfront : front <+: names) : t.Reaches front := by
  obtain ⟨back, rfl⟩ := hfront
  obtain ⟨place, hfollow, he⟩ := h
  exact reaches_of_follow hfollow fun _ => he

theorem reaches_of_isDirectory (h : t.isDirectory path = true) : t.Reaches (names path) := by
  obtain ⟨place, hlocate, he⟩ := isDirectory_iff_locate.mp h
  exact ⟨place, (locate_eq_ok_iff.mp hlocate).2.2.2, he⟩

theorem WellFormed.follow_of_entry? (h : t.WellFormed) {names : List String} (hup : ".." ∉ names)
    (he : t.entry? (place ++ names) = some e) : t.follow place names = .ok (place ++ names) := by
  induction names generalizing place with
  | nil => simp [follow]
  | cons name rest ih =>
    rw [List.mem_cons, not_or] at hup
    have habove : t.entry? place = some .directory :=
      h.isDirectory_of_prefix he (List.prefix_append _ _) (by simp)
    have hfits : fitsLimit name = true := ((h.admits _ _ he).names name (by simp)).2
    rw [List.append_cons] at he ⊢
    rw [follow, habove]
    simpa [Ne.symm hup.1, hfits] using ih hup.2 he

end directories

section growth

/-- The second tree has new directories, all at places of `S`, and is as the first elsewhere. -/
def Grows (S : Place → Prop) (t t' : Tree) : Prop :=
  ∀ q, t'.entry? q = t.entry? q ∨
    t.entry? q = none ∧ t'.entry? q = some .directory ∧ S q

theorem Grows.refl (S : Place → Prop) (t : Tree) : Grows S t t := fun _ => .inl rfl

theorem Grows.mono (h : Grows S t t') (hS : ∀ q, S q → S' q) : Grows S' t t' := fun q =>
  (h q).imp_right fun ⟨hnone, hnew, hq⟩ => ⟨hnone, hnew, hS q hq⟩

theorem Grows.entry?_eq (h : Grows S t t') (he : t.entry? q = some e) : t'.entry? q = some e := by
  obtain hsame | ⟨hnone, -⟩ := h q
  · rw [hsame, he]
  · simp [he] at hnone

theorem Grows.trans (h : Grows S t t') (h' : Grows S t' t'') : Grows S t t'' := by
  intro q
  obtain hsame | ⟨hnone, hnew, hq⟩ := h' q
  · rw [hsame]
    exact h q
  · refine (h q).elim (fun hsame => .inr ⟨hsame ▸ hnone, hnew, hq⟩) fun hmade => ?_
    simp [hnone] at hmade

theorem Grows.keepsDirectories (h : Grows S t t') : t.KeepsDirectories t' := fun _ => h.entry?_eq

theorem Grows.isFile (h : Grows S t t') (hpath : endsSilently path = false)
    (hfile : t.isFile path = true) : t'.isFile path = true := by
  obtain ⟨place, content, hlocate, he⟩ := (isFile_iff_locate hpath).mp hfile
  exact (isFile_iff_locate hpath).mpr
    ⟨place, content, h.keepsDirectories.locate hlocate, h.entry?_eq he⟩

theorem grows_insert (hnone : t.entry? place = none) (hS : S place) :
    Grows S t (t.insert place .directory) := by
  intro q
  rw [entry?_insert (ne_nil_of_entry?_eq_none hnone)]
  by_cases hq : q = place
  · exact .inr ⟨hq ▸ hnone, if_pos hq, hq ▸ hS⟩
  · exact .inl (if_neg hq)

theorem grows_of_createDirectory (hcreate : t.createDirectory path = .ok (place, t'))
    (hS : S place) : Grows S t t' := by
  obtain ⟨-, hnone, rfl⟩ := createDirectory_eq_ok hcreate
  exact grows_insert hnone hS

theorem isDirectory_of_createDirectory (hcreate : t.createDirectory path = .ok (place, t')) :
    t'.isDirectory path = true := by
  have hkeeps := (grows_of_createDirectory (S := fun _ => True) hcreate trivial).keepsDirectories
  obtain ⟨hlocate, hnone, rfl⟩ := createDirectory_eq_ok hcreate
  refine isDirectory_iff_locate.mpr ⟨place, hkeeps.locate hlocate, ?_⟩
  rw [entry?_insert (ne_nil_of_entry?_eq_none hnone), if_pos rfl]

theorem WellFormed.createUpwards_grows (h : t.WellFormed) (paths : List String) :
    (t.createUpwards paths).2.WellFormed ∧
      Grows (fun _ => True) t (t.createUpwards paths).2 := by
  induction paths generalizing t with
  | nil => exact ⟨h, .refl _ t⟩
  | cons path above ih =>
    rw [Tree.createUpwards]
    split
    · rename_i hcreate
      exact ⟨h.of_createDirectory hcreate, grows_of_createDirectory hcreate trivial⟩
    · split
      · rename_i hupwards
        simpa [hupwards] using ih h
      · rename_i t' hupwards
        obtain ⟨hwell, hgrows⟩ : t'.WellFormed ∧ Grows (fun _ => True) t t' := by
          simpa [hupwards] using ih h
        split
        · rename_i hcreate
          exact ⟨hwell.of_createDirectory hcreate,
            hgrows.trans (grows_of_createDirectory hcreate trivial)⟩
        · exact ⟨hwell, hgrows⟩
    · exact ⟨h, .refl _ t⟩

end growth

section touching

/-- The second tree differs from the first at one place at most, and neither has a directory
there. -/
structure Touches (place : Place) (t t' : Tree) : Prop where
  wellFormed : t'.WellFormed
  before : t.entry? place ≠ some .directory
  after : t'.entry? place ≠ some .directory
  others : ∀ q, q ≠ place → t'.entry? q = t.entry? q

theorem Touches.directory_iff (h : Touches place t t') :
    t'.entry? q = some .directory ↔ t.entry? q = some .directory := by
  by_cases hq : q = place
  · rw [hq]
    exact iff_of_false h.after h.before
  · rw [h.others q hq]

theorem Touches.trans (h : Touches place t t') (h' : Touches place t' t'') :
    Touches place t t'' where
  wellFormed := h'.wellFormed
  before := h.before
  after := h'.after
  others q hq := (h'.others q hq).trans (h.others q hq)

theorem Touches.locate (h : Touches place t t') (hlocate : t.locate path = .ok q) :
    t'.locate path = .ok q :=
  KeepsDirectories.locate (fun _ hdirectory => h.directory_iff.mpr hdirectory) hlocate

theorem Touches.isDirectory_eq_false (h : Touches place t t') (hnot : t.isDirectory path = false) :
    t'.isDirectory path = false := by
  rw [← Bool.not_eq_true] at hnot ⊢
  exact fun hdirectory => hnot
    (KeepsDirectories.isDirectory (fun _ hq => h.directory_iff.mp hq) hdirectory)

theorem WellFormed.touches_erase (h : t.WellFormed) (hne : place ≠ [])
    (hnot : t.entry? place ≠ some .directory) : Touches place t (t.erase place) where
  wellFormed := h.erase hne hnot
  before := hnot
  after := by simp [entry?_erase hne]
  others q hq := by rw [entry?_erase hne, if_neg hq]

theorem WellFormed.touches_insert (h : t.WellFormed) (hne : place ≠ [])
    (hlocate : t.locate path = .ok place) (hnot : t.entry? place ≠ some .directory) :
    Touches place t (t.insert place (.file content)) where
  wellFormed := h.insert (h.admits_of_locate hlocate) hne (.inr hnot)
  before := hnot
  after := by simp [entry?_insert hne]
  others q hq := by rw [entry?_insert hne, if_neg hq]

end touching

end AgentAssembly.Tree
