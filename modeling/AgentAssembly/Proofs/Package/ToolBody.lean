import AgentAssembly.Proofs.Package.Imports
import AgentAssembly.Proofs.Text.Delimited
import AgentAssembly.Proofs.Text.Indentation

/-!
The body of a tool's function. Main statement: what a reader of source text finds behind the
docstring of the function are the lines of the stored code, moved right, but for the lines behind a
carriage return alone: these stand where the code has them, and so outside of the function where the
code has them at the margin.
-/

namespace AgentAssembly

open Package
open Text (SourceLine indentLines nonblank sourceLines)
open Text.TripleQuoted (readWith)

namespace ToolModule

/-- The function of a tool: its head, its docstring, and behind that the stored code. -/
theorem exists_body (t : Tool) :
    ∃ front inside rest, text t = front ++ (head t ++ "\n    \"\"\"") ++ inside ∧
      (∀ other, readWith other inside.toList = some ((description t).toList, rest)) ∧
      nonblank (sourceLines false rest) =
        (nonblank (sourceLines false t.code.toList)).map (.moved 4) := by
  refine ⟨Source.ofLines ([Source.docstring "" ("Implementation of the " ++ t.name ++ " tool.") "",
    ""] ++ importLines t), Text.TripleQuoted.escape (description t) ++ "\"\"\"" ++
      ("\n" ++ indentLines 4 t.code ++ "\n"), ("\n" ++ indentLines 4 t.code ++ "\n").toList,
    ?_, fun other => ?_, ?_⟩
  · rw [text, lines, Source.ofLines_append, ← String.toList_inj]
    simp [Source.ofLines, Source.docstring, bodyIndent]
  · rw [String.toList_append]
    exact Text.TripleQuoted.readWith_of_read (Text.TripleQuoted.read_delimited _ _)
  · rw [Text.nonblank_between, Text.nonblank_indentLines]

end ToolModule

theorem Project.exists_tool_file {p : Project} (h : p.validate.findings = []) :
    ∃ files, p.preview = .ok files ∧
      ∀ t ∈ p.generatedTools, files.get? (toolPath t) = some (ToolModule.text t) := by
  obtain ⟨entries, hentries⟩ := exists_inserts h
  exact ⟨_, hentries.preview_eq h, fun t ht =>
    hentries.get?_toolPath (WellFormed.of_findings h) ht⟩

/-- What a text moved right looks like to a reader of source text, and with it the code of every
generated tool behind the docstring of its function: each line that is not blank is moved, unless it
stands behind a carriage return alone. So the code leaves the function exactly where such a line
stands at the margin. -/
theorem tool_code_indented (width : Nat) (text : String) (p : Project) :
    nonblank (sourceLines false (indentLines width text).toList) =
      (nonblank (sourceLines false text.toList)).map (.moved width) ∧
    ((∀ l ∈ nonblank (sourceLines false (indentLines width text).toList),
        List.replicate width ' ' <+: l.chars) ↔
      ∀ l ∈ nonblank (sourceLines false text.toList),
        l.behindReturn = true → List.replicate width ' ' <+: l.chars) ∧
    (p.validate.findings = [] → ∃ files, p.preview = .ok files ∧
      ∀ t ∈ p.generatedTools, ∃ front inside rest,
        files.get? (toolPath t) =
          some (front ++ (ToolModule.head t ++ "\n    \"\"\"") ++ inside) ∧
        (∀ other, readWith other inside.toList =
          some ((ToolModule.description t).toList, rest)) ∧
        nonblank (sourceLines false rest) =
          (nonblank (sourceLines false t.code.toList)).map (.moved 4) ∧
        ((∃ l ∈ nonblank (sourceLines false rest), l.atMargin = true) ↔
          ∃ l ∈ nonblank (sourceLines false t.code.toList),
            l.behindReturn = true ∧ l.atMargin = true)) := by
  refine ⟨Text.nonblank_indentLines width text, Text.forall_indented_iff, fun h => ?_⟩
  obtain ⟨files, hpreview, hfiles⟩ := Project.exists_tool_file h
  refine ⟨files, hpreview, fun t ht => ?_⟩
  obtain ⟨front, inside, rest, htext, hread, hlines⟩ := ToolModule.exists_body t
  refine ⟨front, inside, rest, by rw [hfiles t ht, htext], hread, hlines, ?_⟩
  rw [hlines]
  exact Text.exists_atMargin_iff (by decide) _

/-- A tool whose code ends lines in every way, with blank lines between them and at the end. -/
def fetchProject : Project :=
  { Project.blank ⟨0⟩ ⟨0⟩ "Fetch" with
    agents := [{ name := "root", model := "m", tools := ["fetch"] }]
    tools := [{ name := "fetch", code := "if x:\r\n  return 1\r\r\n \n\nreturn 2\r\n" }] }

def returnText : String := "x\r\n\r  y\nz"

theorem tool_code_indented_fetchProject :
    (∀ l ∈ nonblank (sourceLines false (indentLines 2 returnText).toList),
      List.replicate 2 ' ' <+: l.chars) ∧
    fetchProject.validate.findings = [] ∧ ∃ files text front inside rest,
      fetchProject.preview = .ok files ∧ files.get? "tools/fetch.py" = some text ∧
        text = front ++ "def fetch():\n    \"\"\"" ++ inside ∧
        readWith (['\\', ·]) inside.toList = some ("Run the fetch tool.".toList, rest) ∧
        nonblank (sourceLines false rest) =
          [⟨false, "    if x:".toList⟩, ⟨false, "      return 1".toList⟩,
            ⟨false, "    return 2".toList⟩] := by
  have hfindings : fetchProject.validate.findings = [] := by decide
  obtain ⟨-, hindented, hpackage⟩ := tool_code_indented 2 returnText fetchProject
  obtain ⟨files, hpreview, htools⟩ := hpackage hfindings
  obtain ⟨front, inside, rest, hfile, hread, hlines, -⟩ := htools _ List.mem_cons_self
  exact ⟨hindented.mpr (by decide), hfindings, files, _, front, inside, rest, hpreview, hfile, rfl,
    hread _, hlines.trans (by decide)⟩

def returnProject : Project :=
  { Project.blank ⟨0⟩ ⟨0⟩ "Return" with
    agents := [{ name := "root", model := "m", tools := ["fetch"] }]
    tools := [{ name := "fetch", code := "return 1\rimport os" }] }

theorem tool_code_leaves_function :
    indentLines 4 "return 1\rimport os" = "    return 1\rimport os" ∧
      ¬ (∀ l ∈ nonblank (sourceLines false (indentLines 4 "return 1\rimport os").toList),
        List.replicate 4 ' ' <+: l.chars) ∧
      returnProject.validate.findings = [] ∧
      ∃ files front inside rest, returnProject.preview = .ok files ∧
        files.get? "tools/fetch.py" = some (front ++ "def fetch():\n    \"\"\"" ++ inside) ∧
        readWith (['\\', ·]) inside.toList = some ("Run the fetch tool.".toList, rest) ∧
        ⟨true, "import os".toList⟩ ∈ nonblank (sourceLines false rest) := by
  have hfindings : returnProject.validate.findings = [] := by decide
  obtain ⟨files, hpreview, hfiles⟩ := Project.exists_tool_file hfindings
  have hfile := hfiles _ List.mem_cons_self
  obtain ⟨front, inside, rest, htext, hread, hlines⟩ := ToolModule.exists_body
    { name := "fetch", code := "return 1\rimport os" }
  refine ⟨by decide, by decide, hfindings, files, front, inside, rest, hpreview, ?_, hread _, ?_⟩
  · exact htext ▸ hfile
  · rw [hlines]
    decide

end AgentAssembly
