import AgentAssembly.Proofs.Package.Ownership
import AgentAssembly.Proofs.Project.Edit

/-!
The example variables of a package. Main statement: the file that lists them reads back as the
variables that the accepted updates have left, one on each line below a comment, and an update
touches the lines of its own variables only.
-/

namespace AgentAssembly

open Text (hasLineBreak isLineBreak pieces)

namespace Text

theorem sublist_trimChars (p : Char → Bool) (cs : List Char) : (trimChars p cs).Sublist cs := by
  have hend := (List.dropWhile_sublist p (l := (cs.dropWhile p).reverse)).reverse
  rw [List.reverse_reverse] at hend
  exact hend.trans (List.dropWhile_sublist p)

theorem isLineBreak_of_mem_oneLine {text : String} {c : Char} (h : c ∈ (oneLine text).toList) :
    isLineBreak c = false := by
  rw [oneLine, String.toList_ofList] at h
  obtain rfl | ⟨part, hpart, hc⟩ := of_mem_intercalate h
  · rfl
  · obtain ⟨piece, hpiece, rfl⟩ := List.mem_map.mp (List.mem_filter.mp hpart).1
    exact (of_mem_pieces hpiece ((sublist_trimChars _ _).subset hc)).2

theorem hasLineBreak_append {s t : String} (hs : hasLineBreak s = false)
    (ht : hasLineBreak t = false) : hasLineBreak (s ++ t) = false := by
  rw [hasLineBreak, String.toList_append, List.any_append, ← hasLineBreak, ← hasLineBreak, hs, ht]
  rfl

theorem hasLineBreak_eq_false_iff {s : String} :
    hasLineBreak s = false ↔ '\n' ∉ s.toList ∧ '\r' ∉ s.toList := by
  simp only [hasLineBreak, List.any_eq_false, isLineBreak, Bool.or_eq_true, beq_iff_eq, not_or]
  exact ⟨fun h => ⟨fun hc => (h _ hc).1 rfl, fun hc => (h _ hc).2 rfl⟩,
    fun h c hc => ⟨fun heq => h.1 (heq ▸ hc), fun heq => h.2 (heq ▸ hc)⟩⟩

end Text

theorem Source.pieces_ofLines {lines : List String} (h : ∀ l ∈ lines, '\n' ∉ l.toList) :
    pieces (· == '\n') (ofLines lines).toList = lines.map (·.toList) ++ [[]] := by
  induction lines with
  | nil => rfl
  | cons l rest ih =>
    have hline : ∀ c ∈ l.toList, (c == '\n') = false := by
      rintro c hc
      have hne : c ≠ '\n' := fun heq => h l List.mem_cons_self (heq ▸ hc)
      simpa using hne
    have htext : (ofLines (l :: rest)).toList = l.toList ++ '\n' :: (ofLines rest).toList := by
      simp [ofLines]
    rw [htext, Text.pieces_append_cons rfl, Text.pieces_of_forall_not hline,
      ih fun l' hl' => h l' (List.mem_cons_of_mem l hl')]
    rfl

namespace Project

variable {p : Project} {updates : List (Timestamp × BuildContextPatch)}

def configured (p : Project) (updates : List (Timestamp × BuildContextPatch)) : Project :=
  updates.foldl (fun p u => (updateBuildContext u.1 u.2 p).2) p

theorem updateBuildContext_eq (now : Timestamp) (patch : BuildContextPatch) (p : Project) :
    updateBuildContext now patch p =
      match patch.fault? with
      | some fault => (.error (.invalidInput fault), p)
      | none => (.ok (p.buildContext.patched patch),
          { p with buildContext := p.buildContext.patched patch, updatedAt := now }) := by
  rw [updateBuildContext_eq_ofPlan, Edit.ofPlan, planBuildContext, BuildContext.applyPatch_eq]
  cases patch.fault? <;> rfl

theorem name_configured : (p.configured updates).name = p.name := by
  induction updates generalizing p with
  | nil => rfl
  | cons u rest ih =>
    rw [configured, List.foldl_cons, ← configured, ih, updateBuildContext_eq]
    cases u.2.fault? <;> rfl

theorem lawful_configured (h : p.buildContext.Lawful) :
    (p.configured updates).buildContext.Lawful := by
  induction updates generalizing p with
  | nil => exact h
  | cons u rest ih =>
    rw [configured, List.foldl_cons, ← configured]
    refine ih ?_
    rw [updateBuildContext_eq]
    cases hfault : u.2.fault? with
    | some fault => exact h
    | none => exact h.patched hfault

end Project

namespace Listing

section updates

variable {d d' : Dict String String} {updates before after : List (Timestamp × BuildContextPatch)}
  {now : Timestamp} {patch : BuildContextPatch} {key : String}

/-- Variables with those of the accepted updates written over them, one update after the other. -/
def overridden (d : Dict String String) (updates : List (Timestamp × BuildContextPatch)) :
    Dict String String :=
  (updates.filter (·.2.fault?.isNone)).foldl (fun d u => d.extend u.2.environment) d

theorem overridden_append :
    overridden d (before ++ after) = overridden (overridden d before) after := by
  rw [overridden, List.filter_append, List.foldl_append, ← overridden, ← overridden]

theorem overridden_cons : overridden d ((now, patch) :: after) =
    overridden (if patch.fault? = none then d.extend patch.environment else d) after := by
  cases hfault : patch.fault? with
  | none => simp [overridden, hfault]
  | some fault => simp [overridden, hfault]

theorem get?_overridden_congr (h : d.get? key = d'.get? key) :
    (overridden d updates).get? key = (overridden d' updates).get? key := by
  induction updates generalizing d d' with
  | nil => exact h
  | cons u rest ih =>
    rw [overridden_cons, overridden_cons]
    split
    · exact ih (by rw [Dict.get?_extend, Dict.get?_extend, h])
    · exact ih h

theorem get?_overridden_of_not_contains (h : patch.environment.contains key = false) :
    (overridden d (before ++ (now, patch) :: after)).get? key =
      (overridden d (before ++ after)).get? key := by
  have hnone : patch.environment.get? key = none := by simpa [Dict.contains] using h
  rw [overridden_append, overridden_append, overridden_cons]
  refine get?_overridden_congr ?_
  split
  · rw [Dict.get?_extend, hnone, Option.none_or]
  · rfl

theorem exampleVariables_configured {p : Project} :
    exampleVariables (p.configured updates) = overridden (exampleVariables p) updates := by
  induction updates generalizing p with
  | nil => rfl
  | cons u rest ih =>
    rw [Project.configured, List.foldl_cons, ← Project.configured, ih, overridden_cons,
      Project.updateBuildContext_eq]
    cases hfault : u.2.fault? with
    | some fault => rfl
    | none =>
      simp only [if_true]
      rw [exampleVariables, exampleVariables, ← Dict.extend_extend]
      rfl

end updates

section lines

variable {d : Dict String String} {patch : BuildContextPatch}

def assignment? (line : List Char) : Option (String × String) :=
  match line.dropWhile (· != '=') with
  | [] => none
  | _ :: value => some (String.ofList (line.takeWhile (· != '=')), String.ofList value)

def sets (patch : BuildContextPatch) (line : List Char) : Bool :=
  (assignment? line).any fun e => patch.environment.contains e.1

def Separable (d : Dict String String) : Prop :=
  ∀ e ∈ d.entries, '=' ∉ e.1.toList ∧ hasLineBreak e.1 = false ∧ hasLineBreak e.2 = false

theorem assignment?_line {key value : String} (h : '=' ∉ key.toList) :
    assignment? (key ++ "=" ++ value).toList = some (key, value) := by
  have hkey : ∀ c ∈ key.toList, (c != '=') = true := by
    intro c hc
    have hne : c ≠ '=' := fun heq => h (heq ▸ hc)
    simpa using hne
  have hline : (key ++ "=" ++ value).toList = key.toList ++ '=' :: value.toList := by simp
  rw [assignment?, hline, List.dropWhile_append_of_pos hkey, List.takeWhile_append_of_pos hkey]
  simp

def linesOf (d : Dict String String) : List String := d.entries.map fun e => e.1 ++ "=" ++ e.2

theorem map_assignment?_linesOf (h : Separable d) :
    (linesOf d).map (assignment? ·.toList) = d.entries.map some := by
  rw [linesOf, List.map_map]
  exact List.map_congr_left fun e he => assignment?_line (h e he).1

theorem filter_linesOf (h : Separable d) :
    (linesOf d).filter (!sets patch ·.toList) =
      linesOf (d.filter fun key _ => !patch.environment.contains key) := by
  rw [linesOf, linesOf, Dict.filter, List.filter_map]
  refine congrArg _ (List.filter_congr fun e he => ?_)
  have hline : assignment? (e.1 ++ "=" ++ e.2).toList = some e := assignment?_line (h e he).1
  simp only [Function.comp_apply, sets, hline, Option.any_some]

theorem filter_linesOf_overridden (now : Timestamp) (patch : BuildContextPatch)
    {before after : List (Timestamp × BuildContextPatch)}
    (h : Separable (overridden d (before ++ (now, patch) :: after)))
    (h' : Separable (overridden d (before ++ after))) :
    (linesOf (overridden d (before ++ (now, patch) :: after))).filter (!sets patch ·.toList) =
      (linesOf (overridden d (before ++ after))).filter (!sets patch ·.toList) := by
  rw [filter_linesOf h, filter_linesOf h']
  refine congrArg linesOf (Dict.ext fun key => ?_)
  rw [Dict.get?_filter_key, Dict.get?_filter_key]
  cases hkey : patch.environment.contains key with
  | true => rfl
  | false => rw [get?_overridden_of_not_contains hkey]

theorem separable_exampleVariables {p : Project} (h : p.buildContext.Lawful) :
    Separable (exampleVariables p) := by
  have hdefaults : ∀ e ∈ defaultVariables.entries,
      '=' ∉ e.1.toList ∧ hasLineBreak e.1 = false ∧ hasLineBreak e.2 = false := by decide
  intro e he
  rw [← Dict.get?_eq_some_iff, exampleVariables, Dict.get?_extend, Option.or_eq_some_iff] at he
  obtain he | ⟨-, he⟩ := he
  · exact (h.environment e.1 e.2 he).2
  · exact hdefaults e (Dict.get?_eq_some_iff.mp he)

theorem line_feed_not_mem_of_mem_linesOf (h : Separable d) {line : String}
    (hline : line ∈ linesOf d) : '\n' ∉ line.toList := by
  obtain ⟨e, he, rfl⟩ := List.mem_map.mp hline
  obtain ⟨-, hkey, hvalue⟩ := h e he
  have hkey := (Text.hasLineBreak_eq_false_iff.mp hkey).1
  have hvalue := (Text.hasLineBreak_eq_false_iff.mp hvalue).1
  simp [hkey, hvalue]

end lines

section files

variable {p : Project} {files : FileSet}

theorem get?_example_file (h : p.render = .ok files) :
    files.get? ".env.example" = some (Source.ofLines (variableHeader p :: variableLines p)) := by
  refine Package.get?_of_mem_frameFiles h fun root => ?_
  simp only [Package.frameFiles, List.mem_append, List.mem_cons, true_or, or_true]

theorem hasLineBreak_variableHeader (p : Project) : hasLineBreak (variableHeader p) = false := by
  have hstart : hasLineBreak "# Environment for " = false := by decide
  have hend : hasLineBreak ". Copy to .env and fill in real values." = false := by decide
  have hname : hasLineBreak (Text.oneLine p.name) = false := by
    rw [hasLineBreak, List.any_eq_false]
    intro c hc
    rw [Text.isLineBreak_of_mem_oneLine hc]
    exact Bool.false_ne_true
  exact Text.hasLineBreak_append (Text.hasLineBreak_append hstart hname) hend

theorem prefix_variableHeader (p : Project) : ['#', ' '] <+: (variableHeader p).toList := by
  have hstart : ['#', ' '] <+: "# Environment for ".toList := by decide
  have hfirst := hstart.trans (List.prefix_append _ (Text.oneLine p.name).toList)
  rw [← String.toList_append] at hfirst
  have hall := hfirst.trans
    (List.prefix_append _ ". Copy to .env and fill in real values.".toList)
  rwa [← String.toList_append] at hall

theorem variableHeader_congr {p q : Project} (h : p.name = q.name) :
    variableHeader p = variableHeader q := by
  have hname := congrArg Text.oneLine h
  unfold variableHeader
  rw [hname]

theorem exists_example_file (h : p.buildContext.Lawful) (hfiles : p.render = .ok files) :
    ∃ text, files.get? ".env.example" = some text ∧
      pieces (· == '\n') text.toList =
        (variableHeader p).toList :: ((linesOf (exampleVariables p)).map (·.toList) ++ [[]]) := by
  refine ⟨_, get?_example_file hfiles, Source.pieces_ofLines fun line hline => ?_⟩
  obtain rfl | hline := List.mem_cons.mp hline
  · exact (Text.hasLineBreak_eq_false_iff.mp (hasLineBreak_variableHeader p)).1
  · exact line_feed_not_mem_of_mem_linesOf (separable_exampleVariables h) hline

end files

/-- The file of example variables reads back as the variables that the accepted updates left: a
comment on the first line, then the variables in the order of their names. An update neither adds
nor hides nor alters a line that sets none of its variables. -/
theorem example_variables_read_back {p : Project} {updates : List (Timestamp × BuildContextPatch)}
    {files : FileSet} (hempty : p.buildContext = {})
    (hfiles : (p.configured updates).render = .ok files) :
    ∃ text header lines, files.get? ".env.example" = some text ∧
      pieces (· == '\n') text.toList = header :: (lines ++ [[]]) ∧
      ['#', ' '] <+: header ∧ '\n' ∉ header ∧ '\r' ∉ header ∧
      lines.map assignment? =
        (overridden (.ofList [("GOOGLE_API_KEY", "your-api-key"),
          ("GOOGLE_GENAI_USE_VERTEXAI", "FALSE")]) updates).entries.map some ∧
      ∀ before now patch after files', updates = before ++ (now, patch) :: after →
        (p.configured (before ++ after)).render = .ok files' →
        ∃ text' lines', files'.get? ".env.example" = some text' ∧
          pieces (· == '\n') text'.toList = header :: (lines' ++ [[]]) ∧
          lines.filter (!sets patch ·) = lines'.filter (!sets patch ·) := by
  have hlawful : ∀ us, (p.configured us).buildContext.Lawful :=
    fun us => Project.lawful_configured (hempty ▸ .empty)
  have hvariables : ∀ us, exampleVariables (p.configured us) = overridden defaultVariables us := by
    intro us
    rw [exampleVariables_configured, exampleVariables, hempty, Dict.extend_empty]
  have hseparable : ∀ us, Separable (overridden defaultVariables us) :=
    fun us => hvariables us ▸ separable_exampleVariables (hlawful us)
  have hheader : ∀ us, variableHeader (p.configured us) = variableHeader p :=
    fun us => variableHeader_congr Project.name_configured
  obtain ⟨hfeed, hreturn⟩ :=
    Text.hasLineBreak_eq_false_iff.mp (hasLineBreak_variableHeader p)
  obtain ⟨text, htext, hpieces⟩ := exists_example_file (hlawful updates) hfiles
  rw [hheader, hvariables] at hpieces
  refine ⟨text, _, _, htext, hpieces, prefix_variableHeader p, hfeed, hreturn, ?_, ?_⟩
  · rw [List.map_map]
    exact map_assignment?_linesOf (hseparable updates)
  · rintro before now patch after files' rfl hfiles'
    obtain ⟨text', htext', hpieces'⟩ := exists_example_file (hlawful _) hfiles'
    rw [hheader, hvariables] at hpieces'
    refine ⟨text', _, htext', hpieces', ?_⟩
    have hlines := filter_linesOf_overridden now patch (hseparable _) (hseparable (before ++ after))
    rw [List.filter_map, List.filter_map]
    exact congrArg _ hlines

def brokenNameProject : Project :=
  { Project.blank ⟨0⟩ ⟨0⟩ "demo\nINJECTED=1" with agents := [{ name := "root", model := "m" }] }

def exampleUpdates : List (Timestamp × BuildContextPatch) :=
  [(⟨1⟩, { environment := .ofList [("API_URL", "http://localhost?a=b")] }),
   (⟨2⟩, { environment := .ofList [("DEBUG", "1\nINJECTED=1")] }),
   (⟨3⟩, { environment := .ofList [("GOOGLE_API_KEY", "")] })]

theorem example_variables_read_back_brokenNameProject :
    brokenNameProject.buildContext = {} ∧
      ∃ files text header lines,
        (brokenNameProject.configured exampleUpdates).render = .ok files ∧
        files.get? ".env.example" = some text ∧
        pieces (· == '\n') text.toList = header :: (lines ++ [[]]) ∧
        lines.map assignment? = [some ("API_URL", "http://localhost?a=b"),
          some ("GOOGLE_API_KEY", ""), some ("GOOGLE_GENAI_USE_VERTEXAI", "FALSE")] := by
  have hfindings : (brokenNameProject.configured exampleUpdates).validate.findings = [] := by
    decide
  have hentries : (overridden (.ofList [("GOOGLE_API_KEY", "your-api-key"),
      ("GOOGLE_GENAI_USE_VERTEXAI", "FALSE")]) exampleUpdates).entries.map some =
      [some ("API_URL", "http://localhost?a=b"), some ("GOOGLE_API_KEY", ""),
        some ("GOOGLE_GENAI_USE_VERTEXAI", "FALSE")] := by
    decide
  obtain ⟨entries, hinserts⟩ := Package.exists_inserts hfindings
  obtain ⟨text, header, lines, htext, hpieces, -, -, -, hlines, -⟩ :=
    example_variables_read_back rfl hinserts.render_eq
  exact ⟨rfl, _, text, header, lines, hinserts.render_eq, htext, hpieces, hlines.trans hentries⟩

end Listing
end AgentAssembly
