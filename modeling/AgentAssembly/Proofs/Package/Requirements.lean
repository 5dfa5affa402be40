import AgentAssembly.Proofs.Package.Environment
import AgentAssembly.Proofs.Project.ListHistory

/-!
The requirements of a package. Main statement: after any updates of the build context the file that
lists them starts with the framework and holds the trimmed requirements in the order of their first
mention, and it holds each once exactly when trimming makes no two of them equal.
-/

namespace AgentAssembly

open Text (hasLineBreak pieces trim)

theorem Text.hasLineBreak_trim {s : String} (h : hasLineBreak s = false) :
    hasLineBreak (trim s) = false := by
  rw [hasLineBreak, List.any_eq_false] at h ⊢
  intro c hc
  rw [trim, String.toList_ofList] at hc
  exact h c ((sublist_trimChars _ _).subset hc)

namespace Project

def acceptedPatches (updates : List (Timestamp × BuildContextPatch)) : List BuildContextPatch :=
  (updates.map (·.2)).filter (·.fault?.isNone)

theorem foldlM_acceptedPatches (p : Project) (updates : List (Timestamp × BuildContextPatch)) :
    (acceptedPatches updates).foldlM BuildContext.applyPatch p.buildContext =
      .ok (p.configured updates).buildContext := by
  induction updates generalizing p with
  | nil => rfl
  | cons u rest ih =>
    rw [configured, List.foldl_cons, ← configured, ← ih, updateBuildContext_eq, acceptedPatches,
      List.map_cons]
    cases hfault : u.2.fault? with
    | some fault =>
      rw [List.filter_cons_of_neg (by simp [hfault])]
      rfl
    | none =>
      rw [List.filter_cons_of_pos (by simp [hfault]), List.foldlM_cons,
        BuildContext.applyPatch_eq, hfault]
      rfl

end Project

namespace Listing

section lines

variable {p : Project}

theorem distinct_requirementLines (p : Project) :
    distinct (requirementLines p) = distinct (frameworkRequirement :: p.requirements.map trim) := by
  rw [requirementLines, distinct, distinct, distinct_filter, List.filter_filter]
  simp only [Bool.and_self]

theorem mem_requirementLines {line : String} :
    line ∈ requirementLines p ↔ line = frameworkRequirement ∨
      ∃ r ∈ p.buildContext.requirements, trim r = line := by
  rw [← mem_distinct, distinct_requirementLines, mem_distinct, List.mem_cons, List.mem_map]
  simp only [Project.requirements, mem_distinct]

/-- A line is there twice where trimming makes two requirements equal, unless the line is that of
the framework. -/
theorem nodup_requirementLines_iff :
    (requirementLines p).Nodup ↔
      ∀ r ∈ p.buildContext.requirements, ∀ s ∈ p.buildContext.requirements,
        trim r = trim s → r = s ∨ trim r = frameworkRequirement := by
  have hfirst : frameworkRequirement ∉
      (p.requirements.map trim).filter (· ≠ frameworkRequirement) := by simp
  have hnodup := (nodup_distinct p.buildContext.requirements).filter
    ((· ≠ frameworkRequirement) ∘ trim)
  rw [requirementLines, List.nodup_cons, and_iff_right hfirst, List.filter_map,
    Project.requirements, List.nodup_map_iff_inj_on hnodup]
  simp only [List.mem_filter, mem_distinct, Function.comp_apply, decide_eq_true_eq]
  constructor
  · intro h r hr s hs htrim
    by_cases hframework : trim r = frameworkRequirement
    · exact .inr hframework
    · exact .inl (h r ⟨hr, hframework⟩ s ⟨hs, htrim ▸ hframework⟩ htrim)
  · intro h r hr s hs htrim
    exact (h r hr.1 s hs.1 htrim).resolve_right hr.2

theorem line_feed_not_mem_of_mem_requirementLines (h : p.buildContext.Lawful) {line : String}
    (hline : line ∈ requirementLines p) : '\n' ∉ line.toList := by
  have hbreak : hasLineBreak line = false := by
    obtain rfl | ⟨r, hr, rfl⟩ := mem_requirementLines.mp hline
    · decide
    · exact Text.hasLineBreak_trim (h.requirementLines r hr)
  exact (Text.hasLineBreak_eq_false_iff.mp hbreak).1

theorem get?_requirements_file {files : FileSet} (h : p.render = .ok files) :
    files.get? "requirements.txt" = some (Source.ofLines (requirementLines p)) := by
  refine Package.get?_of_mem_frameFiles h fun root => ?_
  simp only [Package.frameFiles, List.mem_append, List.mem_cons, true_or, or_true]

end lines

/-- The requirements file after updates of the build context: the framework on the first line, and
all that the accepted updates gave, trimmed, in the order in which it was first given. A line stands
there twice exactly where two requirements differ by the white space around them only. -/
theorem requirements_listed {p q : Project} {updates : List (Timestamp × BuildContextPatch)}
    {files : FileSet} (hempty : p.buildContext = {})
    (hcontext : q.buildContext = (p.configured updates).buildContext)
    (hfiles : q.render = .ok files) :
    ∃ text lines, files.get? "requirements.txt" = some text ∧
      pieces (· == '\n') text.toList = lines.map String.toList ++ [[]] ∧
      lines.head? = some "google-adk" ∧
      q.buildContext.requirements = distinct
        ((Project.acceptedPatches updates).filterMap (·.requirements)).flatten ∧
      distinct lines = distinct ("google-adk" :: q.buildContext.requirements.map trim) ∧
      (∀ line, line ∈ lines ↔
        line = "google-adk" ∨ ∃ r ∈ q.buildContext.requirements, trim r = line) ∧
      (lines.Nodup ↔ ∀ r ∈ q.buildContext.requirements, ∀ s ∈ q.buildContext.requirements,
        trim r = trim s → r = s ∨ trim r = "google-adk") := by
  have hlawful : q.buildContext.Lawful := by
    rw [hcontext]
    exact Project.lawful_configured (hempty ▸ .empty)
  have hstored := BuildContext.requirements_of_patches (hempty ▸ List.nodup_nil)
    (Project.foldlM_acceptedPatches p updates)
  rw [← hcontext, hempty, List.nil_append] at hstored
  have hrequirements : q.requirements = q.buildContext.requirements :=
    distinct_eq_self hlawful.requirements.nodup
  refine ⟨_, requirementLines q, get?_requirements_file hfiles, Source.pieces_ofLines ?_, rfl,
    hstored, ?_, fun line => mem_requirementLines, nodup_requirementLines_iff⟩
  · exact fun line hline => line_feed_not_mem_of_mem_requirementLines hlawful hline
  · rw [← hrequirements]
    exact distinct_requirementLines q

def trimmedProject : Project :=
  { Project.blank ⟨0⟩ ⟨0⟩ "trimmed" with agents := [{ name := "root", model := "m" }] }

def requirementUpdates : List (Timestamp × BuildContextPatch) :=
  [(⟨1⟩, { requirements := some [" httpx", "google-adk "] }),
   (⟨2⟩, { requirements := some ["rich\nflask"] }),
   (⟨3⟩, { requirements := some ["rich", " httpx"] })]

theorem requirements_listed_trimmedProject :
    trimmedProject.buildContext = {} ∧
      ∃ files text lines, (trimmedProject.configured requirementUpdates).render = .ok files ∧
        files.get? "requirements.txt" = some text ∧
        pieces (· == '\n') text.toList = lines.map String.toList ++ [[]] ∧
        distinct lines = ["google-adk", "httpx", "rich"] ∧ lines.Nodup := by
  have hfindings : (trimmedProject.configured requirementUpdates).validate.findings = [] := by
    decide
  obtain ⟨entries, hinserts⟩ := Package.exists_inserts hfindings
  obtain ⟨text, lines, htext, hpieces, -, -, hdistinct, -, hnodup⟩ :=
    requirements_listed rfl rfl hinserts.render_eq
  exact ⟨rfl, _, text, lines, hinserts.render_eq, htext, hpieces,
    hdistinct.trans (by decide), hnodup.mpr (by decide)⟩

/-- One accepted update that gives a requirement with and without a space before it. -/
def spacedUpdates : List (Timestamp × BuildContextPatch) :=
  [(⟨1⟩, { requirements := some ["httpx", " httpx"] })]

theorem requirement_listed_twice :
    Project.acceptedPatches spacedUpdates = spacedUpdates.map (·.2) ∧
      ∃ files, (trimmedProject.configured spacedUpdates).render = .ok files ∧
        files.get? "requirements.txt" = some "google-adk\nhttpx\nhttpx\n" ∧
          ¬ ["google-adk", "httpx", "httpx"].Nodup := by
  have hfindings : (trimmedProject.configured spacedUpdates).validate.findings = [] := by decide
  obtain ⟨entries, hinserts⟩ := Package.exists_inserts hfindings
  have htext : Source.ofLines (requirementLines (trimmedProject.configured spacedUpdates)) =
      "google-adk\nhttpx\nhttpx\n" := by decide
  refine ⟨by decide, _, hinserts.render_eq, ?_, by decide⟩
  exact htext ▸ get?_requirements_file hinserts.render_eq

end Listing
end AgentAssembly
