import Mathlib.Data.List.Induction
import AgentAssembly.Disk.Tree
import AgentAssembly.Proofs.Collections
import AgentAssembly.Proofs.Disk.Path

/-!
Trees that a disk can hold. Main statements: a path leads to the place of its names wherever it
leads at all, and making a place and removing it again gives the tree back.
-/

namespace AgentAssembly.Tree

open AgentAssembly.Path

variable {t t' : Tree} {e : Entry} {place above q : Place} {path name : String}

theorem entry?_nil : t.entry? [] = some .directory := if_pos rfl

theorem entry?_of_ne_nil (h : place ≠ []) : t.entry? place = t.entries.get? place := if_neg h

theorem entry?_insert (h : place ≠ []) :
    entry? (t.insert place e) q = if q = place then some e else t.entry? q := by
  by_cases hq : q = []
  · rw [hq, entry?_nil, entry?_nil, if_neg h.symm]
  · simp [entry?_of_ne_nil hq, insert, Dict.get?_insert]

theorem entry?_erase (h : place ≠ []) :
    entry? (t.erase place) q = if q = place then none else t.entry? q := by
  by_cases hq : q = []
  · rw [hq, entry?_nil, entry?_nil, if_neg h.symm]
  · rw [entry?_of_ne_nil hq, entry?_of_ne_nil hq, erase, Dict.get?_erase]
    simp only [Std.LawfulEqCmp.compare_eq_iff_eq, eq_comm (a := place)]

theorem mem_children : name ∈ t.children place ↔ ∃ e, t.entry? (place ++ [name]) = some e := by
  have hne : place ++ [name] ≠ [] := by simp
  rw [entry?_of_ne_nil hne, ← Dict.mem_keys, children, List.mem_filterMap]
  constructor
  · rintro ⟨q, hq, hname⟩
    split at hname
    · rename_i hplace
      rwa [← hplace, List.dropLast_append_getLast? name hname]
    · simp at hname
  · intro hq
    exact ⟨place ++ [name], hq, by simp⟩

/-- An entry can stand at a place: a directory holds it, and its names are names a disk takes. -/
structure Admits (t : Tree) (place : Place) : Prop where
  parent : t.entry? place.dropLast = some .directory
  names : ∀ name ∈ place, IsName name ∧ fitsLimit name = true

/-- Every entry stands where one can. The root, which is always there, is no entry. -/
structure WellFormed (t : Tree) : Prop where
  rootless : t.entries.get? [] = none
  admits : ∀ place e, t.entry? place = some e → t.Admits place

theorem wellFormed_iff : t.WellFormed ↔ ∀ e ∈ t.entries.entries,
    e.1 ≠ [] ∧ t.entry? e.1.dropLast = some .directory ∧
      ∀ name ∈ e.1, IsName name ∧ fitsLimit name = true := by
  constructor
  · rintro h ⟨place, e⟩ hmem
    have hget := Dict.get?_eq_some_iff.mpr hmem
    have hne : place ≠ [] := by
      rintro rfl
      simp [h.rootless] at hget
    have hadmits := h.admits place e (entry?_of_ne_nil hne ▸ hget)
    exact ⟨hne, hadmits.parent, hadmits.names⟩
  · intro h
    constructor
    · refine Option.eq_none_iff_forall_not_mem.mpr fun e he => ?_
      exact (h _ (Dict.get?_eq_some_iff.mp he)).1 rfl
    · intro place e he
      by_cases hne : place = []
      · exact hne ▸ ⟨entry?_nil, by simp⟩
      · rw [entry?_of_ne_nil hne, Dict.get?_eq_some_iff] at he
        exact ⟨(h _ he).2.1, (h _ he).2.2⟩

instance (t : Tree) : Decidable t.WellFormed := decidable_of_iff _ wellFormed_iff.symm

theorem WellFormed.isDirectory_of_prefix (h : t.WellFormed) (hplace : t.entry? place = some e)
    (hq : q <+: place) (hne : q ≠ place) : t.entry? q = some .directory := by
  induction place using List.reverseRecOn generalizing e with
  | nil => exact absurd (List.prefix_nil.mp hq) hne
  | append_singleton above name ih =>
    have hparent : t.entry? above = some .directory := by
      simpa using (h.admits _ _ hplace).parent
    have hq : q <+: above := (List.prefix_concat_iff.mp hq).resolve_left hne
    by_cases hsame : q = above
    · rw [hsame, hparent]
    · exact ih hparent hq hsame

theorem WellFormed.entry?_eq_none_of_parent (h : t.WellFormed)
    (hparent : t.entry? place.dropLast = none) : t.entry? place = none := by
  refine Option.eq_none_iff_forall_not_mem.mpr fun e he => ?_
  simpa [hparent] using (h.admits place e he).parent

theorem WellFormed.insert (h : t.WellFormed) (hplace : t.Admits place) (hne : place ≠ [])
    (he : e = .directory ∨ t.entry? place ≠ some .directory) : (t.insert place e).WellFormed := by
  have hkept : ∀ q, t.entry? q = some .directory →
      entry? (t.insert place e) q = some .directory := by
    intro q hq
    rw [entry?_insert hne]
    split
    · rename_i hsame
      obtain rfl | hnot := he
      · rfl
      · exact absurd (hsame ▸ hq) hnot
    · exact hq
  constructor
  · have hother : ([] : Place) ≠ place := hne.symm
    simp [Tree.insert, Dict.get?_insert, hother, h.rootless]
  · intro q e' hq
    rw [entry?_insert hne] at hq
    split at hq
    · rename_i hsame
      exact ⟨hkept _ (hsame ▸ hplace.parent), hsame ▸ hplace.names⟩
    · have hadmits := h.admits q e' hq
      exact ⟨hkept _ hadmits.parent, hadmits.names⟩

theorem WellFormed.erase (h : t.WellFormed) (hne : place ≠ [])
    (he : t.entry? place ≠ some .directory) : (t.erase place).WellFormed := by
  constructor
  · simp [Tree.erase, Dict.get?_erase, hne, h.rootless]
  · intro q e' hq
    rw [entry?_erase hne] at hq
    split at hq
    · simp at hq
    · have hadmits := h.admits q e' hq
      have hother : q.dropLast ≠ place := fun hsame => he (hsame ▸ hadmits.parent)
      exact ⟨by rw [entry?_erase hne, if_neg hother, hadmits.parent], hadmits.names⟩

section places

def resolve (place : Place) (names : List String) : Place :=
  names.foldl (fun place name => if name = ".." then place.dropLast else place ++ [name]) place

theorem resolve_of_not_mem {names : List String} (h : ".." ∉ names) :
    resolve place names = place ++ names := by
  induction names generalizing place with
  | nil => simp [resolve]
  | cons name rest ih =>
    rw [List.mem_cons, not_or] at h
    rw [resolve, List.foldl_cons, if_neg (Ne.symm h.1), ← resolve, ih h.2, List.append_assoc,
      List.singleton_append]

theorem resolve_append (l m : List String) :
    resolve place (l ++ m) = resolve (resolve place l) m := List.foldl_append

theorem resolve_concat (names : List String) (h : name ≠ "..") :
    resolve place (names ++ [name]) = resolve place names ++ [name] := by
  simp [resolve, h]

theorem eq_resolve_of_follow {names : List String} (h : t.follow place names = .ok q) :
    q = resolve place names := by
  fun_induction follow t place names with
  | case1 place => exact (Except.ok.inj h).symm
  | case2 | case3 | case6 => simp at h
  | case4 place rest _ ih => simpa [resolve] using ih h
  | case5 place name rest _ hname _ ih => simpa [resolve, hname] using ih h

theorem locate_eq_ok_iff : t.locate path = .ok place ↔
    '\x00' ∉ path.toList ∧ path ≠ "" ∧ path.utf8ByteSize ≤ pathLimit ∧
      t.follow [] (names path) = .ok place := by
  rw [locate]
  by_cases hnul : '\x00' ∈ path.toList
  · simp [hnul]
  · by_cases hempty : path = ""
    · simp [hempty]
    · by_cases hlong : pathLimit < path.utf8ByteSize
      · simp [hnul, hempty, hlong, Nat.not_le.mpr hlong]
      · simp [hnul, hempty, hlong, Nat.not_lt.mp hlong]

theorem eq_resolve_of_locate (h : t.locate path = .ok place) : place = resolve [] (names path) :=
  eq_resolve_of_follow (locate_eq_ok_iff.mp h).2.2.2

theorem WellFormed.admits_of_follow (h : t.WellFormed) {names : List String}
    (hnames : ∀ name ∈ names, name ≠ ".." → IsName name) (hplace : t.Admits place)
    (hq : t.follow place names = .ok q) : t.Admits q := by
  fun_induction follow t place names with
  | case1 place => exact Except.ok.inj hq ▸ hplace
  | case2 | case3 | case6 => simp at hq
  | case4 place rest _ ih =>
    refine ih (fun name hname => hnames name (List.mem_cons_of_mem _ hname)) ?_ hq
    exact h.admits _ _ hplace.parent
  | case5 place name rest hdirectory hname hfits ih =>
    refine ih (fun name hname => hnames name (List.mem_cons_of_mem _ hname)) ⟨?_, ?_⟩ hq
    · rwa [List.dropLast_concat]
    · intro other hother
      obtain hother | hother := List.mem_append.mp hother
      · exact hplace.names other hother
      · obtain rfl := List.mem_singleton.mp hother
        exact ⟨hnames other List.mem_cons_self hname, hfits⟩

theorem isName_of_mem_names (hnul : '\x00' ∉ path.toList) (h : name ∈ names path)
    (hup : name ≠ "..") : IsName name := by
  obtain ⟨hsegment, hsilent⟩ := List.mem_filter.mp h
  obtain ⟨hempty, hdot⟩ : name ≠ "" ∧ name ≠ "." := by simpa [isSilent] using hsilent
  exact ⟨hempty, hdot, hup, not_mem_of_mem_segments hsegment,
    fun hmem => hnul (of_mem_segments hsegment hmem).1⟩

theorem WellFormed.admits_of_locate (h : t.WellFormed) (hlocate : t.locate path = .ok place) :
    t.Admits place := by
  obtain ⟨hnul, -, -, hfollow⟩ := locate_eq_ok_iff.mp hlocate
  exact h.admits_of_follow (fun name hname => isName_of_mem_names hnul hname)
    ⟨entry?_nil, by simp⟩ hfollow

/-- A plain path below another one leads to a place that is not the root, the same in all trees. -/
theorem eq_of_locate_join {base : String} (hpath : IsPlain path)
    (h : t.locate (join base path) = .ok place) :
    place ≠ [] ∧ ∀ t' q, locate t' (join base path) = .ok q → q = place := by
  refine ⟨?_, fun t' q hq => (eq_resolve_of_locate hq).trans (eq_resolve_of_locate h).symm⟩
  obtain ⟨front, name, hsplit⟩ : ∃ front name, names path = front ++ [name] :=
    (List.eq_nil_or_concat' _).resolve_left hpath.names_ne_nil
  have hname : IsName name := hpath.isName_of_mem (by simp [hsplit])
  rw [eq_resolve_of_locate h, names_join hpath.isAbsolute_eq, hsplit, ← List.append_assoc,
    resolve_concat _ hname.ne_up]
  simp

end places

/-- Nothing stands where nothing is present. A path that ends silently may hide a file. -/
theorem entry?_eq_none_of_locate (hpath : endsSilently path = false)
    (h : t.isPresent path = false) (hlocate : t.locate path = .ok place) :
    t.entry? place = none := by
  rw [isPresent, lookUp, hlocate, hpath] at h
  cases he : t.entry? place with
  | none => rfl
  | some e => cases e <;> simp [he] at h

theorem createDirectory_eq_ok (h : t.createDirectory path = .ok (place, t')) :
    t.locate path = .ok place ∧ t.entry? place = none ∧ t' = t.insert place .directory := by
  rw [createDirectory] at h
  split at h
  · simp at h
  · split at h
    · simp at h
    · obtain ⟨rfl, rfl⟩ := Prod.mk.inj (Except.ok.inj h)
      exact ⟨‹_›, ‹_›, rfl⟩

section undoing

theorem entries_get?_eq_none (hne : place ≠ []) (h : t.entry? place = none) :
    t.entries.get? place = none := entry?_of_ne_nil hne ▸ h

theorem ne_nil_of_entry?_eq_none (h : t.entry? place = none) : place ≠ [] := by
  rintro rfl
  simp [entry?_nil] at h

theorem erase_insert (h : t.entry? place = none) : (t.insert place e).erase place = t := by
  have hnone := entries_get?_eq_none (ne_nil_of_entry?_eq_none h) h
  simp [Tree.insert, Tree.erase, Dict.erase_insert hnone]

theorem insert_after_erase : (t.erase place).insert place e = t.insert place e := by
  simp [Tree.insert, Tree.erase, Dict.insert_after_erase]

theorem insert_erase (hne : place ≠ []) (h : t.entry? place = some e) :
    (t.erase place).insert place e = t := by
  rw [entry?_of_ne_nil hne] at h
  simp [Tree.insert, Tree.erase, Dict.insert_erase h]

theorem WellFormed.of_createDirectory (h : t.WellFormed)
    (hcreate : t.createDirectory path = .ok (place, t')) : t'.WellFormed := by
  obtain ⟨hlocate, hnone, rfl⟩ := createDirectory_eq_ok hcreate
  exact h.insert (h.admits_of_locate hlocate) (ne_nil_of_entry?_eq_none hnone) (.inl rfl)

theorem removeFile_insert {content : String} (h : t.entry? place = none) :
    (t.insert place (.file content)).removeFile place = t := by
  have hne := ne_nil_of_entry?_eq_none h
  rw [removeFile, entry?_insert hne, if_pos rfl]
  exact erase_insert h

theorem removeFile_of_none (h : t.entry? place = none) : t.removeFile place = t := by
  rw [removeFile, h]

/-- A new directory is empty, since nothing stands below a place without an entry. -/
theorem WellFormed.removeEmpty_insert (h : t.WellFormed) (hnone : t.entry? place = none) :
    (t.insert place .directory).removeEmpty place = t := by
  have hne := ne_nil_of_entry?_eq_none hnone
  have hchildren : (t.insert place .directory).children place = [] := by
    refine List.eq_nil_iff_forall_not_mem.mpr fun name hname => ?_
    obtain ⟨e, he⟩ := mem_children.mp hname
    rw [entry?_insert hne, if_neg (by simp)] at he
    have hparent := (h.admits _ _ he).parent
    simp [hnone] at hparent
  rw [removeEmpty, if_pos ⟨by rw [entry?_insert hne, if_pos rfl], hchildren⟩, erase_insert hnone]

end undoing

end AgentAssembly.Tree
