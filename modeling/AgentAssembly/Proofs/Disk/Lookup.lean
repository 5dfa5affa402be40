import AgentAssembly.Proofs.Disk.Tree

/-!
What is found at the end of a path within the limits of the disk. Main statement: a directory and
those above it can be made unless a file is in the way, and nothing else changes.
-/

namespace AgentAssembly

namespace Path

variable {path above : String}

structure IsTaken (path : String) : Prop where
  no_nul : '\x00' ∉ path.toList
  size : path.utf8ByteSize ≤ Tree.pathLimit
  fits : ∀ name ∈ names path, Tree.fitsLimit name = true

instance (path : String) : Decidable (IsTaken path) :=
  decidable_of_iff ('\x00' ∉ path.toList ∧ path.utf8ByteSize ≤ Tree.pathLimit ∧
    ∀ name ∈ names path, Tree.fitsLimit name = true)
    ⟨fun ⟨h, h', h''⟩ => ⟨h, h', h''⟩, fun ⟨h, h', h''⟩ => ⟨h, h', h''⟩⟩

structure LeadsDown (path : String) : Prop extends IsTaken path where
  ne_empty : path ≠ ""
  not_up : ".." ∉ names path

theorem IsUpward.utf8ByteSize_le (h : IsUpward above path) :
    above.utf8ByteSize ≤ path.utf8ByteSize := by
  obtain ⟨rest, hrest⟩ := h.isPrefix
  have hpath : path = above ++ String.ofList rest := by
    apply String.toList_inj.mp
    simpa using hrest.symm
  rw [hpath, String.utf8ByteSize_append]
  omega

theorem IsTaken.of_isUpward (h : IsTaken path) (habove : IsUpward above path) : IsTaken above where
  no_nul hnul := h.no_nul (habove.isPrefix.subset hnul)
  size := Nat.le_trans habove.utf8ByteSize_le h.size
  fits name hname := h.fits name (habove.names_prefix.subset hname)

theorem LeadsDown.of_isUpward (h : LeadsDown path) (habove : IsUpward above path) :
    LeadsDown above where
  toIsTaken := h.toIsTaken.of_isUpward habove
  ne_empty := habove.ne_empty
  not_up hup := h.not_up (habove.names_prefix.subset hup)

theorem LeadsDown.of_mem_withAncestors (h : LeadsDown path) (habove : above ∈ withAncestors path) :
    LeadsDown above := h.of_isUpward (isUpward_of_mem_upwards habove h.ne_empty)

theorem LeadsDown.directoryOf (h : LeadsDown path) : LeadsDown (directoryOf path) := by
  rw [Path.directoryOf]
  obtain ⟨above, hparent, habove⟩ | ⟨hparent, -⟩ := above_cases path
  · rw [hparent]
    exact h.of_isUpward ((IsUpward.refl habove.ne_empty).of_isAbove habove)
  · rw [hparent]
    exact ⟨⟨by decide, by decide, by decide⟩, by decide, by decide⟩

end Path

namespace Tree

open AgentAssembly.Path

variable {t t' t'' : Tree} {e : Entry} {place q : Place} {path above name content : String}

section ways

def Clear (t : Tree) (place : Place) : Prop :=
  ∀ q, q <+: place → ∀ content, t.entry? q ≠ some (.file content)

theorem clear_concat : t.Clear (place ++ [name]) ↔
    t.Clear place ∧ ∀ content, t.entry? (place ++ [name]) ≠ some (.file content) := by
  constructor
  · intro h
    exact ⟨fun q hq => h q (hq.trans (List.prefix_append place [name])), h _ List.prefix_rfl⟩
  · rintro ⟨habove, hplace⟩ q hq
    obtain rfl | hq := List.prefix_concat_iff.mp hq
    · exact hplace
    · exact habove q hq

theorem Clear.of_dropLast (h : t.Clear place.dropLast)
    (hplace : ∀ content, t.entry? place ≠ some (.file content)) : t.Clear place := by
  obtain rfl | ⟨above, name, rfl⟩ := place.eq_nil_or_concat'
  · exact h
  · rw [List.dropLast_concat] at h
    exact clear_concat.mpr ⟨h, hplace⟩

theorem clear_of_none (hnone : t.entry? place = none) (h : t.Clear place.dropLast) :
    t.Clear place := h.of_dropLast (by simp [hnone])

theorem Clear.of_prefix (h : t.Clear place) (hq : q <+: place) : t.Clear q :=
  fun other hother => h other (hother.trans hq)

theorem WellFormed.clear_of_directory (h : t.WellFormed)
    (hplace : t.entry? place = some .directory) : t.Clear place := by
  intro q hq content hcontent
  by_cases hsame : q = place
  · simp [hsame, hplace] at hcontent
  · simp [h.isDirectory_of_prefix hplace hq hsame] at hcontent

theorem follow_append {l m : List String} :
    t.follow place (l ++ m) = (t.follow place l).bind (t.follow · m) := by
  fun_induction follow t place l with
  | case1 place => rfl
  | case2 place name rest hnone => simp [follow, hnone, Except.bind]
  | case3 place name rest content hfile => simp [follow, hfile, Except.bind]
  | case4 place rest hdirectory ih => simp [follow, hdirectory, ih]
  | case5 place name rest hdirectory hname hfits ih => simp [follow, hdirectory, hname, hfits, ih]
  | case6 place name rest hdirectory hname hfits =>
    simp [follow, hdirectory, hname, hfits, Except.bind]

/-- Names that do not lead up are followed to their own place through directories; a place where
nothing stands and a file stop them in different ways. -/
theorem WellFormed.follow_cases (h : t.WellFormed) {names : List String}
    (hnames : ∀ name ∈ names, name ≠ ".." ∧ fitsLimit name = true) :
    t.entry? names.dropLast = some .directory ∧ t.follow [] names = .ok names ∨
    t.entry? names.dropLast = none ∧ t.Clear names.dropLast ∧
      t.follow [] names = .error .notFound ∨
    ¬ t.Clear names.dropLast ∧ t.follow [] names = .error .notDirectory := by
  induction names using List.reverseRecOn with
  | nil => exact .inl ⟨entry?_nil, rfl⟩
  | append_singleton above name ih =>
    obtain ⟨hup, hfits⟩ := hnames name (by simp)
    have ih := ih fun other hother => hnames other (List.mem_append_left _ hother)
    rw [List.dropLast_concat, follow_append]
    obtain ⟨hparent, hfollow⟩ | ⟨hnone, hclear, hfollow⟩ | ⟨hblocked, hfollow⟩ := ih
    · rw [hfollow]
      cases habove : t.entry? above with
      | none =>
        have hclear := clear_of_none habove (h.clear_of_directory hparent)
        exact .inr (.inl ⟨rfl, hclear, by simp [Except.bind, follow, habove]⟩)
      | some e =>
        cases e with
        | directory => exact .inl ⟨rfl, by simp [Except.bind, follow, habove, hup, hfits]⟩
        | file content =>
          refine .inr (.inr ⟨fun hclear => hclear above List.prefix_rfl content habove, ?_⟩)
          simp [Except.bind, follow, habove]
    · have habove := h.entry?_eq_none_of_parent hnone
      exact .inr (.inl ⟨habove, clear_of_none habove hclear, by rw [hfollow]; rfl⟩)
    · refine .inr (.inr ⟨fun hclear => hblocked (hclear.of_prefix (List.dropLast_prefix _)), ?_⟩)
      rw [hfollow]
      rfl

theorem locate_of_leadsDown (hpath : LeadsDown path) :
    t.locate path = t.follow [] (names path) := by
  rw [locate, if_neg (by simpa using hpath.no_nul), if_neg hpath.ne_empty,
    if_neg (Nat.not_lt.mpr hpath.size)]

theorem WellFormed.locate_cases (h : t.WellFormed) (hpath : LeadsDown path) :
    t.entry? (names path).dropLast = some .directory ∧ t.locate path = .ok (names path) ∨
    t.entry? (names path).dropLast = none ∧ t.Clear (names path).dropLast ∧
      t.locate path = .error .notFound ∨
    ¬ t.Clear (names path).dropLast ∧ t.locate path = .error .notDirectory := by
  rw [locate_of_leadsDown hpath]
  exact h.follow_cases fun name hname =>
    ⟨fun hup => hpath.not_up (hup ▸ hname), hpath.fits name hname⟩

theorem WellFormed.locate_of_parent (h : t.WellFormed) (hpath : LeadsDown path)
    (hparent : t.entry? (names path).dropLast = some .directory) :
    t.locate path = .ok (names path) := by
  obtain ⟨-, hlocate⟩ | ⟨hnone, -⟩ | ⟨hblocked, -⟩ := h.locate_cases hpath
  · exact hlocate
  · simp [hparent] at hnone
  · exact absurd (h.clear_of_directory hparent) hblocked

theorem entry?_of_lookUp (hup : ".." ∉ names path) (h : t.lookUp path = .ok e) :
    t.entry? (names path) = some e := by
  rw [lookUp] at h
  split at h
  · simp at h
  · rename_i place hlocate
    obtain rfl : place = names path := by
      rw [eq_resolve_of_locate hlocate, resolve_of_not_mem hup, List.nil_append]
    split at h
    · simp at h
    · split at h <;> simp_all
    · simp_all

/-- Of what stands at the place of the names, a look-up refuses a file behind which the path has
something silent. -/
theorem WellFormed.lookUp_eq_ok_iff (h : t.WellFormed) (hpath : LeadsDown path)
    (hend : e = .directory ∨ endsSilently path = false) :
    t.lookUp path = .ok e ↔ t.entry? (names path) = some e := by
  refine ⟨entry?_of_lookUp hpath.not_up, fun he => ?_⟩
  rw [lookUp, h.locate_of_parent hpath (h.admits _ _ he).parent]
  cases e with
  | directory => simp [he]
  | file content => simp_all

theorem WellFormed.lookUp_of_none (h : t.WellFormed) (hpath : LeadsDown path)
    (hnone : t.entry? (names path) = none) (hclear : t.Clear (names path)) :
    t.lookUp path = .error .notFound := by
  rw [lookUp]
  obtain ⟨-, hlocate⟩ | ⟨-, -, hlocate⟩ | ⟨hblocked, -⟩ := h.locate_cases hpath
  · simp [hlocate, hnone]
  · simp [hlocate]
  · exact absurd (hclear.of_prefix (List.dropLast_prefix _)) hblocked

theorem WellFormed.lookUp_of_not_clear (h : t.WellFormed) (hpath : LeadsDown path)
    (hblocked : ¬ t.Clear (names path)) :
    t.lookUp path = .error .notDirectory ∨ ∃ content, t.lookUp path = .ok (.file content) := by
  rw [lookUp]
  obtain ⟨hparent, hlocate⟩ | ⟨hnone, hclear, -⟩ | ⟨-, hlocate⟩ := h.locate_cases hpath
  · rw [hlocate]
    cases he : t.entry? (names path) with
    | none => exact absurd (clear_of_none he (h.clear_of_directory hparent)) hblocked
    | some e =>
      cases e with
      | directory => exact absurd (h.clear_of_directory he) hblocked
      | file content => cases hend : endsSilently path <;> simp [he]
  · have he := h.entry?_eq_none_of_parent hnone
    exact absurd (clear_of_none he hclear) hblocked
  · simp [hlocate]

theorem WellFormed.isDirectory_iff (h : t.WellFormed) (hpath : LeadsDown path) :
    t.isDirectory path = true ↔ t.entry? (names path) = some .directory := by
  rw [← h.lookUp_eq_ok_iff hpath (.inl rfl), isDirectory]
  split <;> simp_all

theorem entry?_of_isFile (hup : ".." ∉ names path) (h : t.isFile path = true) :
    ∃ content, t.entry? (names path) = some (.file content) := by
  rw [isFile] at h
  split at h
  · exact ⟨_, entry?_of_lookUp hup ‹_›⟩
  · simp at h

theorem WellFormed.isFile_iff (h : t.WellFormed) (hpath : LeadsDown path)
    (hend : endsSilently path = false) :
    t.isFile path = true ↔ ∃ content, t.entry? (names path) = some (.file content) := by
  simp only [← h.lookUp_eq_ok_iff hpath (.inr hend), isFile]
  split <;> simp_all

theorem WellFormed.isPresent_iff (h : t.WellFormed) (hpath : LeadsDown path)
    (hend : endsSilently path = false) :
    t.isPresent path = true ↔ ∃ e, t.entry? (names path) = some e := by
  simp only [← h.lookUp_eq_ok_iff hpath (.inr hend), isPresent]
  split <;> simp_all

end ways

section changes

/-- The second tree has `e` at the places of `S` and is as the first elsewhere. -/
def Sets (e : Option Entry) (S : Place → Prop) (t t' : Tree) : Prop :=
  ∀ q, (S q → t'.entry? q = e) ∧ (¬ S q → t'.entry? q = t.entry? q)

variable {e : Option Entry} {S S' : Place → Prop}

theorem Sets.trans (h : Sets e S t t') (h' : Sets e S' t' t'') :
    Sets e (fun q => S q ∨ S' q) t t'' := by
  intro q
  by_cases hq : S' q
  · exact ⟨fun _ => (h' q).1 hq, fun hnot => absurd (.inr hq) hnot⟩
  · have hsame := (h' q).2 hq
    refine ⟨fun hor => ?_, fun hnot => ?_⟩
    · rw [hsame, (h q).1 (hor.resolve_right hq)]
    · rw [hsame, (h q).2 fun hS => hnot (.inl hS)]

theorem Sets.congr (h : Sets e S t t') (hS : ∀ q, S' q ↔ S q) : Sets e S' t t' :=
  fun q => ⟨fun hq => (h q).1 ((hS q).mp hq), fun hq => (h q).2 fun hnot => hq ((hS q).mpr hnot)⟩

theorem sets_self (h : ∀ q, S q → t.entry? q = e) : Sets e S t t := fun q => ⟨h q, fun _ => rfl⟩

theorem sets_insert {e : Entry} (hne : place ≠ []) :
    Sets (some e) (· = place) t (t.insert place e) := by
  intro q
  rw [entry?_insert hne]
  exact ⟨fun hq => if_pos hq, fun hq => if_neg hq⟩

theorem sets_erase (hne : place ≠ []) : Sets none (· = place) t (t.erase place) := by
  intro q
  rw [entry?_erase hne]
  exact ⟨fun hq => if_pos hq, fun hq => if_neg hq⟩

def SameFiles (t t' : Tree) : Prop :=
  ∀ place content, t'.entry? place = some (.file content) ↔ t.entry? place = some (.file content)

theorem SameFiles.clear_iff (h : SameFiles t t') : t'.Clear place ↔ t.Clear place := by
  simp only [Clear, ne_eq, h _ _]

theorem Sets.sameFiles (h : Sets (some .directory) S t t')
    (hS : ∀ q, S q → ∀ content, t.entry? q ≠ some (.file content)) : SameFiles t t' := by
  intro q content
  by_cases hq : S q
  · simp [(h q).1 hq, hS q hq content]
  · rw [(h q).2 hq]

theorem prefix_iff_of_ne_nil (hne : place ≠ []) :
    q <+: place ↔ q <+: place.dropLast ∨ q = place := by
  obtain ⟨above, name, rfl⟩ := place.eq_nil_or_concat'.resolve_left hne
  rw [List.prefix_concat_iff, List.dropLast_concat, or_comm]

theorem not_before_dropLast (hne : place ≠ []) : ¬ place <+: place.dropLast := by
  intro hbefore
  have hlength := hbefore.length_le
  have hpos := List.length_pos_iff.mpr hne
  rw [List.length_dropLast] at hlength
  omega

abbrev Opens (t : Tree) (place : Place) (t' : Tree) : Prop :=
  Sets (some .directory) (· <+: place) t t'

theorem WellFormed.opens_self (h : t.WellFormed) (he : t.entry? place = some .directory) :
    t.Opens place t := by
  refine sets_self fun q hq => ?_
  by_cases hsame : q = place
  · rw [hsame, he]
  · exact h.isDirectory_of_prefix he hq hsame

theorem Sets.opens_insert (h : t.Opens place.dropLast t') (hne : place ≠ []) :
    t.Opens place (t'.insert place .directory) :=
  (h.trans (sets_insert hne)).congr fun _ => prefix_iff_of_ne_nil hne

theorem WellFormed.createDirectory_of_none (h : t.WellFormed) (hpath : LeadsDown path)
    (hparent : t.entry? (names path).dropLast = some .directory)
    (hnone : t.entry? (names path) = none) :
    t.createDirectory path = .ok (names path, t.insert (names path) .directory) ∧
      (t.insert (names path) .directory).WellFormed := by
  have hlocate := h.locate_of_parent hpath hparent
  have hne := ne_nil_of_entry?_eq_none hnone
  refine ⟨?_, h.insert (h.admits_of_locate hlocate) hne (.inl rfl)⟩
  rw [createDirectory, hlocate]
  simp [hnone]

theorem WellFormed.createUpwards_of_parent (h : t.WellFormed) (hpath : LeadsDown path)
    (hparent : t.entry? (names path).dropLast = some .directory) (hclear : t.Clear (names path))
    (rest : List String) : ∃ t', t.createUpwards (path :: rest) = (.ok (), t') ∧ t'.WellFormed ∧
      t.Opens (names path) t' := by
  cases he : t.entry? (names path) with
  | none =>
    obtain ⟨hcreate, hwell⟩ := h.createDirectory_of_none hpath hparent he
    refine ⟨_, by rw [createUpwards, hcreate], hwell, ?_⟩
    exact (h.opens_self hparent).opens_insert (ne_nil_of_entry?_eq_none he)
  | some e =>
    cases e with
    | file content => exact absurd he (hclear _ List.prefix_rfl content)
    | directory =>
      have hcreate : t.createDirectory path = .error .alreadyExists := by
        simp [createDirectory, h.locate_of_parent hpath hparent, he]
      have hdirectory := (h.isDirectory_iff hpath).mpr he
      exact ⟨t, by simp [createUpwards, hcreate, hdirectory], h, h.opens_self he⟩

theorem WellFormed.createUpwards (h : t.WellFormed) {rest : List String}
    (hclimbs : Climbs path rest) (hpaths : ∀ other ∈ path :: rest, LeadsDown other)
    (hclear : t.Clear (names path)) :
    ∃ t', t.createUpwards (path :: rest) = (.ok (), t') ∧ t'.WellFormed ∧
      t.Opens (names path) t' := by
  induction hclimbs generalizing t with
  | last htop =>
    exact h.createUpwards_of_parent (hpaths _ List.mem_cons_self) (htop ▸ entry?_nil) hclear _
  | @step path above rest habove hclimbs ih =>
    have hpath := hpaths path List.mem_cons_self
    by_cases hparent : t.entry? (names path).dropLast = some .directory
    · exact h.createUpwards_of_parent hpath hparent hclear _
    · obtain ⟨hdirectory, -⟩ | ⟨hnone, habove', hlocate⟩ | ⟨hblocked, -⟩ := h.locate_cases hpath
      · exact absurd hdirectory hparent
      · -- What is missing above is made first, and then there is a directory to make this one in.
        have hcreate : t.createDirectory path = .error .notFound := by
          simp [createDirectory, hlocate]
        obtain ⟨t', hupwards, hwell, hopen⟩ := ih h
          (fun other hother => hpaths other (List.mem_cons_of_mem _ hother)) (habove ▸ habove')
        rw [habove] at hopen
        have hne : names path ≠ [] := fun hnil => by simp [hnil, entry?_nil] at hnone
        have hmissing : t'.entry? (names path) = none := by
          rw [(hopen _).2 (not_before_dropLast hne), h.entry?_eq_none_of_parent hnone]
        obtain ⟨hcreate', hwell'⟩ :=
          hwell.createDirectory_of_none hpath ((hopen _).1 List.prefix_rfl) hmissing
        refine ⟨_, ?_, hwell', hopen.opens_insert hne⟩
        rw [Tree.createUpwards, hcreate]
        dsimp only
        rw [hupwards]
        dsimp only
        rw [hcreate']
      · exact absurd (hclear.of_prefix (List.dropLast_prefix _)) hblocked

theorem WellFormed.createDirectories (h : t.WellFormed) (hpath : LeadsDown path)
    (hclear : t.Clear (names path)) :
    ∃ t', t.createDirectories path = (.ok (), t') ∧ t'.WellFormed ∧ t.Opens (names path) t' := by
  obtain ⟨rest, hrest, hclimbs⟩ := climbs_withAncestors path
  rw [Tree.createDirectories, hrest]
  exact h.createUpwards hclimbs (fun _ hother => hpath.of_mem_withAncestors (hrest ▸ hother)) hclear

end changes

end Tree
end AgentAssembly
