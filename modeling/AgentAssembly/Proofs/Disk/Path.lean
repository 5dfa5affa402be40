import AgentAssembly.Disk.Path
import AgentAssembly.Proofs.Text.Pieces

/-!
Names in paths. Main statements: the names of a joined path are those of its two parts, and what
is above a path is shorter than it and has its names without the last.
-/

namespace AgentAssembly

namespace Path

structure IsName (s : String) : Prop where
  ne_empty : s ≠ ""
  ne_dot : s ≠ "."
  ne_up : s ≠ ".."
  no_separator : '/' ∉ s.toList
  no_nul : '\x00' ∉ s.toList

instance (s : String) : Decidable (IsName s) :=
  decidable_of_iff (s ≠ "" ∧ s ≠ "." ∧ s ≠ ".." ∧ '/' ∉ s.toList ∧ '\x00' ∉ s.toList)
    ⟨fun ⟨a, b, c, d, e⟩ => ⟨a, b, c, d, e⟩, fun ⟨a, b, c, d, e⟩ => ⟨a, b, c, d, e⟩⟩

theorem IsName.isSilent_eq {s : String} (h : IsName s) : isSilent s = false := by
  simp [isSilent, h.ne_empty, h.ne_dot]

def IsPlain (path : String) : Prop := ∀ s ∈ segments path, IsName s

instance (path : String) : Decidable (IsPlain path) := inferInstanceAs (Decidable (∀ s ∈ _, _))

variable {base path name directory above : String}

theorem segments_ne_nil (path : String) : segments path ≠ [] := by
  simp [segments, Text.pieces_ne_nil]

theorem segments_append (base path : String) :
    segments (base ++ "/" ++ path) = segments base ++ segments path := by
  have hslash : "/".toList = ['/'] := by decide
  simp only [segments, String.toList_append, hslash, List.append_assoc, List.singleton_append]
  rw [Text.pieces_append_cons (by decide), List.map_append]

theorem of_mem_segments {s : String} {c : Char} (h : s ∈ segments path) (hc : c ∈ s.toList) :
    c ∈ path.toList ∧ c ≠ '/' := by
  obtain ⟨piece, hpiece, rfl⟩ := List.mem_map.mp h
  rw [String.toList_ofList] at hc
  obtain ⟨hmem, hsep⟩ := Text.of_mem_pieces hpiece hc
  exact ⟨hmem, by simpa [isSeparator] using hsep⟩

theorem not_mem_of_mem_segments {s : String} (h : s ∈ segments path) : '/' ∉ s.toList :=
  fun hslash => (of_mem_segments h hslash).2 rfl

theorem segments_of_no_separator (h : '/' ∉ name.toList) : segments name = [name] := by
  have hnot : ∀ c ∈ name.toList, isSeparator c = false := by
    intro c hc
    exact beq_eq_false_iff_ne.mpr fun heq => h (heq ▸ hc)
  simp [segments, Text.pieces_of_forall_not hnot]

theorem toList_intercalate (l : List String) :
    ("/".intercalate l).toList = ['/'].intercalate (l.map String.toList) := by
  have hslash : "/".toList = ['/'] := by decide
  rw [String.toList_intercalate, hslash]

theorem intercalate_segments (path : String) :
    path.toList = ['/'].intercalate ((segments path).map String.toList) := by
  have hp : ∀ d, isSeparator d = true → d = '/' := by simp [isSeparator]
  simp [segments, Function.comp_def, Text.intercalate_pieces hp]

theorem segments_intercalate {l : List String} (hl : l ≠ []) (h : ∀ s ∈ l, '/' ∉ s.toList) :
    segments ("/".intercalate l) = l := by
  have hnot : ∀ piece ∈ l.map String.toList, ∀ d ∈ piece, isSeparator d = false := by
    intro piece hpiece d hd
    obtain ⟨s, hs, rfl⟩ := List.mem_map.mp hpiece
    exact beq_eq_false_iff_ne.mpr fun heq => h s hs (heq ▸ hd)
  rw [segments, toList_intercalate, Text.pieces_intercalate (by simpa using hl) (by decide) hnot]
  simp [Function.comp_def]

theorem names_append (base path : String) :
    names (base ++ "/" ++ path) = names base ++ names path := by
  simp [names, segments_append]

theorem endsSilently_append (base path : String) :
    endsSilently (base ++ "/" ++ path) = endsSilently path := by
  rw [endsSilently, segments_append, List.getLast?_append_of_ne_nil _ (segments_ne_nil path),
    endsSilently]

theorem join_cases (base : String) (h : isAbsolute path = false) :
    base = "" ∧ join base path = path ∨
      ∃ above, names above = names base ∧ join base path = above ++ "/" ++ path := by
  rw [join, h, if_neg (by simp)]
  by_cases hsep : base.toList.getLast?.all isSeparator
  · rw [if_pos hsep]
    obtain hnil | ⟨front, c, hfront⟩ := base.toList.eq_nil_or_concat'
    · obtain rfl : base = "" := String.toList_inj.mp hnil
      exact .inl ⟨rfl, String.empty_append⟩
    · obtain rfl : c = '/' := by simpa [hfront, isSeparator] using hsep
      have hbase : base = String.ofList front ++ "/" := by
        apply String.toList_inj.mp
        simpa using hfront
      refine .inr ⟨String.ofList front, ?_, by rw [hbase]⟩
      have hempty : String.ofList front ++ "/" = String.ofList front ++ "/" ++ "" := by simp
      rw [hbase, hempty, names_append]
      have hnone : names "" = [] := by decide
      rw [hnone, List.append_nil]
  · rw [if_neg hsep]
    exact .inr ⟨base, rfl, rfl⟩

theorem names_join (h : isAbsolute path = false) :
    names (join base path) = names base ++ names path := by
  obtain ⟨rfl, hjoin⟩ | ⟨above, habove, hjoin⟩ := join_cases base h
  · have hnone : names "" = [] := by decide
    rw [hjoin, hnone, List.nil_append]
  · rw [hjoin, names_append, habove]

theorem endsSilently_join (h : isAbsolute path = false) :
    endsSilently (join base path) = endsSilently path := by
  obtain ⟨-, hjoin⟩ | ⟨above, -, hjoin⟩ := join_cases base h
  · rw [hjoin]
  · rw [hjoin, endsSilently_append]

theorem join_eq (h : isAbsolute path = false) :
    join base path =
      (if base.toList.getLast?.all isSeparator then base else base ++ "/") ++ path := by
  rw [join, h, if_neg (by simp)]
  split <;> rfl

theorem join_join (hname : IsName name) (h : isAbsolute path = false) :
    join (join base name) path = join base (name ++ "/" ++ path) := by
  obtain ⟨c, rest, hlist⟩ : ∃ c rest, name.toList = c :: rest := by
    refine List.exists_cons_of_ne_nil fun hnil => hname.ne_empty ?_
    exact String.toList_inj.mp hnil
  have hstart : c ≠ '/' := fun hc => hname.no_separator (hlist ▸ hc ▸ List.mem_cons_self)
  have hname' : isAbsolute name = false := by simp [isAbsolute, hlist, isSeparator, hstart]
  have hboth : isAbsolute (name ++ "/" ++ path) = false := by
    simp [isAbsolute, String.toList_append, hlist, isSeparator, hstart]
  have hend : ∀ front : String, (front ++ name).toList.getLast?.all isSeparator = false := by
    intro front
    obtain ⟨before, d, hsplit⟩ :=
      (List.eq_nil_or_concat' name.toList).resolve_left (by simp [hlist])
    have hd : d ≠ '/' := fun hd => hname.no_separator (by simp [hsplit, hd])
    simp [String.toList_append, hsplit, isSeparator, hd]
  rw [join_eq hname', join_eq hboth, join_eq h, hend]
  simp [String.append_assoc]

theorem IsPlain.names_eq (h : IsPlain path) : names path = segments path := by
  rw [names, List.filter_eq_self]
  intro s hs
  simp [(h s hs).isSilent_eq]

theorem IsPlain.names_ne_nil (h : IsPlain path) : names path ≠ [] :=
  h.names_eq ▸ segments_ne_nil path

theorem IsPlain.isName_of_mem (h : IsPlain path) (hname : name ∈ names path) : IsName name :=
  h name (h.names_eq ▸ hname)

theorem IsPlain.endsSilently_eq (h : IsPlain path) : endsSilently path = false := by
  rw [endsSilently, List.getLast?_eq_some_getLast (segments_ne_nil path), Option.any_some]
  exact (h _ (List.getLast_mem _)).isSilent_eq

theorem IsPlain.isAbsolute_eq (h : IsPlain path) : isAbsolute path = false := by
  rw [← Bool.not_eq_true]
  intro habsolute
  -- The segment in front of a leading separator is empty, so it is no name.
  obtain ⟨rest, hrest⟩ : ∃ rest, path.toList = '/' :: rest := by
    cases hlist : path.toList with
    | nil => simp [isAbsolute, hlist] at habsolute
    | cons c rest =>
      obtain rfl : c = '/' := by simpa [isAbsolute, hlist, isSeparator] using habsolute
      exact ⟨rest, rfl⟩
  have hempty : "" ∈ segments path := by simp [segments, hrest, Text.pieces, isSeparator]
  exact (h "" hempty).ne_empty rfl

theorem IsPlain.endsSilently_join (h : IsPlain path) : endsSilently (join base path) = false := by
  rw [Path.endsSilently_join h.isAbsolute_eq, h.endsSilently_eq]

theorem isPlain_of_isName (h : IsName name) : IsPlain name := by
  rw [IsPlain, segments_of_no_separator h.no_separator]
  simpa using h

theorem names_of_isName (h : IsName name) : names name = [name] := by
  rw [(isPlain_of_isName h).names_eq, segments_of_no_separator h.no_separator]

theorem isPlain_append (hbase : IsPlain base) (hpath : IsPlain path) :
    IsPlain (base ++ "/" ++ path) := by
  intro s hs
  rw [segments_append, List.mem_append] at hs
  exact hs.elim (hbase s) (hpath s)

theorem IsPlain.eq_of_names (h : IsPlain path) (hbase : IsPlain base)
    (hnames : names path = names base) : path = base := by
  rw [h.names_eq, hbase.names_eq] at hnames
  apply String.toList_inj.mp
  rw [intercalate_segments path, intercalate_segments base, hnames]

section above

structure IsAbove (above path : String) : Prop where
  ne_empty : above ≠ ""
  isPrefix : above.toList <+: path.toList
  shorter : above.length < path.length
  names_eq : names above = (names path).dropLast

theorem dropSilent_suffix (l : List String) : dropSilent l <:+ l := by
  fun_induction dropSilent l with
  | case1 => exact List.suffix_rfl
  | case2 first => exact List.suffix_rfl
  | case3 segment rest _ _ ih => exact ih.trans (List.suffix_cons segment rest)
  | case4 segment rest => exact List.suffix_rfl

theorem filter_dropSilent (l : List String) :
    (dropSilent l).filter (!isSilent ·) = l.filter (!isSilent ·) := by
  fun_induction dropSilent l with
  | case1 => rfl
  | case2 first => rfl
  | case3 segment rest _ hsilent ih => simp [ih, hsilent]
  | case4 segment rest => rfl

theorem dropSilent_ne_nil {l : List String} (h : l ≠ []) : dropSilent l ≠ [] := by
  fun_induction dropSilent l with
  | case1 => exact absurd rfl h
  | case2 first => simp
  | case3 segment rest hrest _ ih => exact ih hrest
  | case4 segment rest => simp

theorem isSilent_of_dropSilent {l rest : List String} (h : dropSilent l = name :: rest)
    (hrest : rest ≠ []) : isSilent name = false := by
  fun_induction dropSilent l with
  | case1 => simp at h
  | case2 first => simp_all
  | case3 segment rest _ _ ih => exact ih h
  | case4 segment rest _ hsilent => simp_all

theorem dropSilent_cons (h : isSilent name = false) (rest : List String) :
    dropSilent (name :: rest) = name :: rest := by
  cases rest with
  | nil => rfl
  | cons a rest => simp [dropSilent, h]

theorem names_of_dropSilent {l : List String} (h : dropSilent (segments path).reverse = l) :
    names path = (l.filter (!isSilent ·)).reverse := by
  rw [← h, filter_dropSilent, ← List.filter_reverse, List.reverse_reverse, names]

/-- The segments of a path are those that its parent keeps, then more with the last name in it. -/
theorem segments_of_dropSilent {rest : List String}
    (h : dropSilent (segments path).reverse = name :: rest) :
    ∃ more, name ∈ more ∧ segments path = (dropSilent rest).reverse ++ more := by
  obtain ⟨behind, hbehind⟩ := h ▸ dropSilent_suffix (segments path).reverse
  obtain ⟨between, hbetween⟩ := dropSilent_suffix rest
  refine ⟨between.reverse ++ name :: behind.reverse, by simp, ?_⟩
  rw [← List.reverse_reverse (segments path), ← hbehind]
  nth_rewrite 1 [← hbetween]
  simp

theorem toList_of_segments_append {kept more : List String} (hkept : kept ≠ []) (hmore : more ≠ [])
    (h : segments path = kept ++ more) :
    path.toList = ['/'].intercalate (kept.map String.toList) ++
      '/' :: ['/'].intercalate (more.map String.toList) := by
  rw [intercalate_segments path, h, List.map_append,
    Text.intercalate_append (by simpa using hkept) (by simpa using hmore)]

/-- Where nothing is kept but what is in front of a leading separator, the root is above. -/
theorem isAbove_root {more : List String} (h : segments path = "" :: more) (hmem : name ∈ more)
    (hname : isSilent name = false) (hnames : (names path).dropLast = []) :
    IsAbove "/" path := by
  have hslash : "/".toList = ['/'] := by decide
  have hmore := List.ne_nil_of_mem hmem
  have hsplit : segments path = [""] ++ more := h
  have hlist : path.toList = '/' :: ['/'].intercalate (more.map String.toList) := by
    simpa using toList_of_segments_append (by simp) hmore hsplit
  -- Something stands behind the separator: the name.
  have hne : ['/'].intercalate (more.map String.toList) ≠ [] := by
    intro hnil
    have hempty : "/".intercalate more = "" := by
      apply String.toList_inj.mp
      rw [toList_intercalate, hnil]
      rfl
    have hsep : ∀ s ∈ more, '/' ∉ s.toList := fun s hs =>
      not_mem_of_mem_segments (h ▸ List.mem_cons_of_mem _ hs)
    have hsegments := segments_intercalate hmore hsep
    have hsilent : segments "" = [""] := by decide
    rw [hempty, hsilent] at hsegments
    obtain rfl : name = "" := by simpa [← hsegments] using hmem
    simp [isSilent] at hname
  have hpos := List.length_pos_iff.mpr hne
  constructor
  · decide
  · simp [hslash, hlist]
  · rw [← String.length_toList, ← String.length_toList, hslash, hlist]
    simpa using hpos
  · rw [hnames]
    decide

theorem isAbove_intercalate {kept more : List String} (hkept : kept ≠ []) (hroot : kept ≠ [""])
    (hmore : more ≠ []) (h : segments path = kept ++ more)
    (hnames : (names path).dropLast = kept.filter (!isSilent ·)) :
    IsAbove ("/".intercalate kept) path := by
  have hlist := toList_of_segments_append hkept hmore h
  have hsep : ∀ s ∈ kept, '/' ∉ s.toList := fun s hs =>
    not_mem_of_mem_segments (h ▸ List.mem_append_left _ hs)
  have habove := segments_intercalate hkept hsep
  constructor
  · intro hempty
    have hsilent : segments "" = [""] := by decide
    rw [hempty, hsilent] at habove
    exact hroot habove.symm
  · rw [toList_intercalate, hlist]
    exact List.prefix_append _ _
  · rw [← String.length_toList, ← String.length_toList, toList_intercalate, hlist]
    simp
  · rw [hnames, names, habove]

theorem exists_isAbove {rest : List String} (h : dropSilent (segments path).reverse = name :: rest)
    (hrest : rest ≠ []) : ∃ above, parent? path = some above ∧ IsAbove above path := by
  have hname : isSilent name = false := isSilent_of_dropSilent h hrest
  have hkept : dropSilent rest ≠ [] := dropSilent_ne_nil hrest
  have hparent : parent? path = some (if dropSilent rest = [""] then "/" else
      "/".intercalate (dropSilent rest).reverse) := by
    rw [parent?, h]
    cases rest with
    | nil => exact absurd rfl hrest
    | cons a rest => rfl
  have hnames : (names path).dropLast = (dropSilent rest).reverse.filter (!isSilent ·) := by
    rw [names_of_dropSilent h, List.filter_cons_of_pos (by simp [hname]), List.reverse_cons,
      List.dropLast_concat, List.filter_reverse, filter_dropSilent]
  obtain ⟨more, hmem, hsegments⟩ := segments_of_dropSilent h
  refine ⟨_, hparent, ?_⟩
  by_cases hroot : dropSilent rest = [""]
  · rw [if_pos hroot]
    rw [hroot] at hsegments hnames
    exact isAbove_root hsegments hmem hname (by simpa [isSilent] using hnames)
  · rw [if_neg hroot]
    have hroot' : (dropSilent rest).reverse ≠ [""] := fun hreverse =>
      hroot (by simpa using congrArg List.reverse hreverse)
    exact isAbove_intercalate (by simpa using hkept) hroot' (List.ne_nil_of_mem hmem) hsegments
      hnames

theorem above_cases (path : String) :
    (∃ above, (parent? path).filter (· ≠ "") = some above ∧ IsAbove above path) ∨
      (parent? path).filter (· ≠ "") = none ∧ (names path).dropLast = [] := by
  have hnil : (segments path).reverse ≠ [] := by simpa using segments_ne_nil path
  obtain ⟨name, rest, h⟩ := List.exists_cons_of_ne_nil (dropSilent_ne_nil hnil)
  by_cases hrest : rest = []
  · subst hrest
    refine .inr ⟨?_, ?_⟩
    · rw [parent?, h]
      dsimp only
      split <;> simp
    · rw [names_of_dropSilent h]
      cases hname : isSilent name <;> simp [hname]
  · obtain ⟨above, hparent, habove⟩ := exists_isAbove h hrest
    exact .inl ⟨above, by simp [hparent, habove.ne_empty], habove⟩

theorem exists_parent? (h : names path ≠ []) :
    ∃ above, parent? path = some above ∧ names above = (names path).dropLast := by
  have hnil : (segments path).reverse ≠ [] := by simpa using segments_ne_nil path
  obtain ⟨name, rest, hsegments⟩ := List.exists_cons_of_ne_nil (dropSilent_ne_nil hnil)
  by_cases hrest : rest = []
  · subst hrest
    rw [names_of_dropSilent hsegments] at h ⊢
    have hname : name ≠ "" := by
      rintro rfl
      exact h (by decide)
    refine ⟨"", by simp [parent?, hsegments, hname], ?_⟩
    have hempty : names "" = [] := by decide
    rw [hempty]
    cases hsilent : isSilent name <;> simp [hsilent]
  · obtain ⟨above, hparent, habove⟩ := exists_isAbove hsegments hrest
    exact ⟨above, hparent, habove.names_eq⟩

theorem exists_isAbove_join (hbase : base ≠ "") (h : IsPlain path) :
    ∃ above, parent? (join base path) = some above ∧ IsAbove above (join base path) := by
  obtain ⟨front, name, hsplit⟩ : ∃ front name, segments path = front ++ [name] :=
    (List.eq_nil_or_concat' _).resolve_left (segments_ne_nil path)
  have hname : isSilent name = false := (h name (by simp [hsplit])).isSilent_eq
  obtain ⟨rfl, -⟩ | ⟨above, -, hjoin⟩ := join_cases base h.isAbsolute_eq
  · exact absurd rfl hbase
  · have hreverse : (segments (join base path)).reverse =
        name :: (segments above ++ front).reverse := by
      simp [hjoin, segments_append, hsplit]
    refine exists_isAbove (by rw [hreverse, dropSilent_cons hname]) ?_
    simp [segments_ne_nil]

/-- The paths lead upwards from the first, by one name each, until there is nothing above. -/
inductive Climbs : String → List String → Prop
  | last {path : String} : (names path).dropLast = [] → Climbs path []
  | step {path above : String} {rest : List String} : names above = (names path).dropLast →
      Climbs above rest → Climbs path (above :: rest)

theorem climbs_upwards {fuel : Nat} (h : path.length ≤ fuel) :
    ∃ rest, upwards fuel path = path :: rest ∧ Climbs path rest := by
  induction fuel generalizing path with
  | zero =>
    have hempty : path = "" := by simpa using h
    exact ⟨[], rfl, .last (by rw [hempty]; decide)⟩
  | succ fuel ih =>
    rw [upwards]
    obtain ⟨above, hparent, habove⟩ | ⟨hparent, hnames⟩ := above_cases path
    · have hfuel : above.length ≤ fuel := by have := habove.shorter; omega
      obtain ⟨rest, hrest, hclimbs⟩ := ih hfuel
      rw [hparent]
      exact ⟨_, rfl, hrest ▸ .step habove.names_eq hclimbs⟩
    · rw [hparent]
      exact ⟨_, rfl, .last hnames⟩

theorem climbs_withAncestors (path : String) :
    ∃ rest, withAncestors path = path :: rest ∧ Climbs path rest :=
  climbs_upwards (Nat.le_refl _)

structure IsUpward (above path : String) : Prop where
  ne_empty : above ≠ ""
  isPrefix : above.toList <+: path.toList
  names_prefix : names above <+: names path

theorem IsUpward.refl (h : path ≠ "") : IsUpward path path :=
  ⟨h, List.prefix_rfl, List.prefix_rfl⟩

theorem IsUpward.of_isAbove {next : String} (h : IsUpward above next) (hnext : IsAbove next path) :
    IsUpward above path :=
  ⟨h.ne_empty, h.isPrefix.trans hnext.isPrefix,
    h.names_prefix.trans (hnext.names_eq ▸ List.dropLast_prefix _)⟩

theorem isUpward_join (hbase : base ≠ "") (h : isAbsolute path = false) :
    IsUpward base (join base path) where
  ne_empty := hbase
  isPrefix := by
    rw [join_eq h]
    split <;> simp [String.toList_append]
  names_prefix := by
    rw [names_join h]
    exact List.prefix_append _ _

theorem isUpward_of_mem_upwards {fuel : Nat} (h : above ∈ upwards fuel path) (hpath : path ≠ "") :
    IsUpward above path := by
  induction fuel generalizing path with
  | zero =>
    obtain rfl : above = path := by simpa [upwards] using h
    exact .refl hpath
  | succ fuel ih =>
    rw [upwards] at h
    obtain ⟨next, hparent, hnext⟩ | ⟨hparent, -⟩ := above_cases path
    · rw [hparent] at h
      obtain rfl | h := List.mem_cons.mp h
      · exact .refl hpath
      · exact (ih h hnext.ne_empty).of_isAbove hnext
    · rw [hparent] at h
      obtain rfl := List.mem_singleton.mp h
      exact .refl hpath

theorem names_prefix_of_mem_withAncestors (h : above ∈ withAncestors path) :
    names above <+: names path := by
  by_cases hpath : path = ""
  · subst hpath
    obtain rfl : above = "" := by simpa [withAncestors, upwards] using h
    exact List.prefix_rfl
  · have hupward := isUpward_of_mem_upwards h hpath
    exact hupward.names_prefix

theorem names_directoryOf (path : String) : names (directoryOf path) = (names path).dropLast := by
  rw [directoryOf]
  obtain ⟨above, hparent, habove⟩ | ⟨hparent, hnames⟩ := above_cases path
  · rw [hparent]
    exact habove.names_eq
  · rw [hparent, hnames]
    decide

end above

end Path
end AgentAssembly
