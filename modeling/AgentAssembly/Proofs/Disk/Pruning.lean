import AgentAssembly.Proofs.Disk.Tree

/-!
Trees seen without one of their directories. Main statement: paths that do not name the directory
lead where they lead without it, and what is done to the tree outside of it can be done without it.
-/

namespace AgentAssembly.Tree

open AgentAssembly.Path

variable {t t' : Tree} {e : Entry} {own above place q : Place} {temp path name : String}

section entries

theorem get?_prune : (t.prune own).entries.get? place =
    if own <+: place then none else t.entries.get? place := by
  rw [prune, Dict.get?_filter_key]
  simp only [Bool.not_eq_true', ← Bool.not_eq_true, List.isPrefixOf_iff_prefix, ite_not]

theorem entry?_prune (hown : own ≠ []) :
    entry? (t.prune own) place = if own <+: place then none else t.entry? place := by
  by_cases hplace : place = []
  · rw [hplace, entry?_nil, entry?_nil, if_neg (mt List.prefix_nil.mp hown)]
  · rw [entry?_of_ne_nil hplace, entry?_of_ne_nil hplace, get?_prune]

theorem entry?_insert_of_ne (h : q ≠ place) : entry? (t.insert place e) q = t.entry? q := by
  by_cases hq : q = []
  · rw [hq, entry?_nil, entry?_nil]
  · simp [entry?_of_ne_nil hq, insert, Dict.get?_insert, h]

theorem entry?_erase_of_ne (h : q ≠ place) : entry? (t.erase place) q = t.entry? q := by
  by_cases hq : q = []
  · rw [hq, entry?_nil, entry?_nil]
  · simp [entry?_of_ne_nil hq, erase, Dict.get?_erase, h.symm]

theorem ext_get? (h : ∀ place, t.entries.get? place = t'.entries.get? place) : t = t' := by
  cases t
  cases t'
  exact congrArg Tree.mk (Dict.ext h)

theorem ne_of_below (hplace : ¬ own <+: place) (hq : own <+: q) : q ≠ place := fun hsame =>
  hplace (hsame ▸ hq)

theorem prune_insert (h : ¬ own <+: place) :
    (t.insert place e).prune own = (t.prune own).insert place e := by
  refine ext_get? fun q => ?_
  simp only [get?_prune, insert, Dict.get?_insert]
  by_cases hq : q = place
  · simp [hq, h]
  · simp [hq]

theorem prune_insert_below (h : own <+: place) : (t.insert place e).prune own = t.prune own := by
  refine ext_get? fun q => ?_
  simp only [get?_prune, insert, Dict.get?_insert]
  by_cases hq : q = place
  · simp [hq, h]
  · simp [hq]

theorem prune_erase : (t.erase place).prune own = (t.prune own).erase place := by
  refine ext_get? fun q => ?_
  simp only [get?_prune, erase, Dict.get?_erase]
  by_cases hq : place = q
  · simp [hq]
  · simp [hq]

theorem prune_erase_below (h : own <+: place) : (t.erase place).prune own = t.prune own := by
  refine ext_get? fun q => ?_
  simp only [get?_prune, erase, Dict.get?_erase]
  by_cases hq : place = q
  · simp [← hq, h]
  · simp [hq]

theorem prune_openBelow (h : own <+: place) (names : List String) :
    (t.openBelow place names).prune own = t.prune own := by
  induction names generalizing t place with
  | nil => rfl
  | cons name rest ih =>
    have hbelow : own <+: place ++ [name] := h.trans (List.prefix_append _ _)
    rw [openBelow, ih hbelow]
    split
    · rfl
    · exact prune_insert_below hbelow

theorem entry?_openBelow (names : List String) (h : ¬ q <+: place ++ names) :
    entry? (t.openBelow place names) q = t.entry? q := by
  induction names generalizing t place with
  | nil => rfl
  | cons name rest ih =>
    rw [List.append_cons] at h
    rw [openBelow, ih h]
    split
    · rfl
    · exact entry?_insert_of_ne fun hq => h (hq ▸ List.prefix_append _ _)

theorem WellFormed.prune_eq_self (h : t.WellFormed) (hnone : t.entry? own = none) :
    t.prune own = t := by
  refine ext_get? fun q => ?_
  rw [get?_prune]
  split
  · rename_i hbelow
    have hown := ne_nil_of_entry?_eq_none hnone
    have hq : q ≠ [] := fun hnil => hown (List.prefix_nil.mp (hnil ▸ hbelow))
    rw [← entry?_of_ne_nil hq]
    refine (Option.eq_none_iff_forall_not_mem.mpr fun e he => ?_).symm
    by_cases hsame : own = q
    · simp [← hsame, hnone] at he
    · simp [h.isDirectory_of_prefix he hbelow hsame] at hnone
  · rfl

end entries

section directories

theorem children_prune : (t.prune own).children place =
    (t.children place).filter fun name => ¬ own <+: place ++ [name] := by
  have hkeys : (t.prune own).entries.keys =
      t.entries.keys.filter fun q => !own.isPrefixOf q := by
    rw [Dict.keys, Dict.keys, prune, Dict.filter, List.filter_map]
    rfl
  rw [children, children, hkeys, List.filterMap_filter, List.filter_filterMap]
  refine List.filterMap_congr fun q _ => ?_
  by_cases hq : q.dropLast = place
  · cases hlast : q.getLast? with
    | none => simp [hq]
    | some name =>
      obtain rfl : q = place ++ [name] := by
        rw [← hq, List.dropLast_append_getLast? name hlast]
      by_cases hbelow : own <+: place ++ [name]
      · have hprefix := List.isPrefixOf_iff_prefix.mpr hbelow
        simp [Option.filter, hbelow, hprefix]
      · have hprefix := mt List.isPrefixOf_iff_prefix.mp hbelow
        simp [Option.filter, hbelow, hprefix]
  · simp [hq]

theorem removeFile_prune (h : ¬ own <+: place) (hown : own ≠ []) :
    (t.removeFile place).prune own = (t.prune own).removeFile place := by
  rw [removeFile, removeFile, entry?_prune hown, if_neg h]
  cases t.entry? place with
  | none => rfl
  | some e =>
    cases e with
    | file content => exact prune_erase
    | directory => rfl

/-- Whether a directory is empty can be seen without another one that it does not hold. -/
theorem removeEmpty_prune (hown : own ≠ []) (h : ¬ own <+: place) (hplace : place ≠ own.dropLast) :
    (t.removeEmpty place).prune own = (t.prune own).removeEmpty place := by
  have hchildren : (t.prune own).children place = t.children place := by
    rw [children_prune, List.filter_eq_self]
    intro name _
    rw [decide_eq_true_eq, List.prefix_concat_iff]
    rintro (rfl | hbelow)
    · exact hplace List.dropLast_concat.symm
    · exact h hbelow
  rw [removeEmpty, removeEmpty, entry?_prune hown, if_neg h, hchildren]
  split
  · exact prune_erase
  · rfl

end directories

section paths

theorem below_concat_iff : above ++ [temp] <+: place ++ [name] ↔
    above = place ∧ temp = name ∨ above ++ [temp] <+: place := by
  rw [List.prefix_concat_iff]
  refine or_congr_left ⟨fun h => ?_, by rintro ⟨rfl, rfl⟩; rfl⟩
  obtain ⟨habove, hname⟩ := List.append_inj' h rfl
  exact ⟨habove, List.singleton_inj.mp hname⟩

/-- A path that does not name the directory passes by it. -/
theorem follow_prune {names : List String} (hplace : ¬ above ++ [temp] <+: place)
    (hnames : temp ∉ names) :
    (t.prune (above ++ [temp])).follow place names = t.follow place names ∧
      ∀ q, t.follow place names = .ok q → ¬ above ++ [temp] <+: q := by
  have hown : above ++ [temp] ≠ [] := by simp
  induction names generalizing place with
  | nil => exact ⟨by rw [follow, follow], fun q hq => by rwa [← Except.ok.inj hq]⟩
  | cons name rest ih =>
    obtain ⟨hname, hrest⟩ := not_or.mp (mt List.mem_cons.mpr hnames)
    rw [follow, follow, entry?_prune hown, if_neg hplace]
    cases t.entry? place with
    | none => simp
    | some e =>
      cases e with
      | file content => simp
      | directory =>
        have hup : ¬ above ++ [temp] <+: place.dropLast := fun h =>
          hplace (h.trans (List.dropLast_prefix _))
        have hdown : ¬ above ++ [temp] <+: place ++ [name] := by
          rw [below_concat_iff]
          exact fun h => h.elim (fun hsame => hname hsame.2) hplace
        dsimp only
        split
        · exact ih hup hrest
        · split
          · exact ih hdown hrest
          · simp

theorem locate_prune (h : temp ∉ names path) :
    (t.prune (above ++ [temp])).locate path = t.locate path := by
  rw [locate, locate, (follow_prune (by simp) h).1]

theorem not_below_of_locate (h : temp ∉ names path) (hlocate : t.locate path = .ok place) :
    ¬ above ++ [temp] <+: place :=
  (follow_prune (by simp) h).2 _ (locate_eq_ok_iff.mp hlocate).2.2.2

theorem lookUp_prune (h : temp ∉ names path) :
    (t.prune (above ++ [temp])).lookUp path = t.lookUp path := by
  rw [lookUp, lookUp, locate_prune h]
  cases hlocate : t.locate path with
  | error fault => rfl
  | ok place =>
    have hown : above ++ [temp] ≠ [] := by simp
    simp only [entry?_prune hown, if_neg (not_below_of_locate h hlocate)]

theorem isDirectory_prune (h : temp ∉ names path) :
    (t.prune (above ++ [temp])).isDirectory path = t.isDirectory path := by
  rw [isDirectory, isDirectory, lookUp_prune h]

theorem isFile_prune (h : temp ∉ names path) :
    (t.prune (above ++ [temp])).isFile path = t.isFile path := by
  rw [isFile, isFile, lookUp_prune h]

theorem isPresent_prune (h : temp ∉ names path) :
    (t.prune (above ++ [temp])).isPresent path = t.isPresent path := by
  rw [isPresent, isPresent, lookUp_prune h]

theorem createDirectory_prune (h : temp ∉ names path) :
    (t.prune (above ++ [temp])).createDirectory path =
      (t.createDirectory path).map fun made => (made.1, made.2.prune (above ++ [temp])) := by
  rw [createDirectory, createDirectory, locate_prune h]
  cases hlocate : t.locate path with
  | error fault => rfl
  | ok place =>
    have hown : above ++ [temp] ≠ [] := by simp
    have hbelow : ¬ above ++ [temp] <+: place := not_below_of_locate h hlocate
    simp only [entry?_prune hown, if_neg hbelow]
    cases t.entry? place with
    | none => simp only [Except.map, prune_insert hbelow]
    | some e => rfl

end paths

end AgentAssembly.Tree
