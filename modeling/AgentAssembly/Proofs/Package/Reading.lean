import AgentAssembly.Proofs.Package.Bindings
import AgentAssembly.Proofs.Text.Literals

/-!
The modules of agents read back. One reader takes the text of any such module apart: two kinds of
literals, lists of names, and between them the fixed text of the template. Main statement: where a
report is empty the reader finds in the file of an agent exactly what was put into it.
-/

namespace AgentAssembly

open Identifier Package Source

namespace Reader

variable {α : Type}

def argument (label : String) (value : Reader α) : Reader α := do
  skip label
  let a ← value
  skip ",\n"
  return a

def call : Reader String := do
  return (← upTo ')') ++ ")"

/-- Takes the last argument of the definition of an agent, if there is one, and the end. -/
def ending : Reader (Option String) :=
  (do skip ")\n"; return none) <|> do
    let generation ← argument "    generate_content_config=" call
    skip ")\n"
    return some generation

end Reader

structure AgentReading where
  summary : String
  imports : List String
  instruction : String
  symbol : String
  file : String
  model : String
  description : String
  tools : List String
  subAgents : List String
  generation : Option String
deriving DecidableEq

namespace AgentReading

def ofModule (m : AgentModule) : AgentReading where
  summary := m.summary
  imports := m.imports.map (·.line)
  instruction := m.instruction
  symbol := m.symbol
  file := m.file
  model := m.model
  description := m.description
  tools := m.tools
  subAgents := m.subAgents
  generation := m.generation

open Reader in
def reader : Reader AgentReading := do
  let summary ← docstring
  skip "\n\n"
  let imports ← paragraph
  skip "INSTRUCTION = "
  let instruction ← docstring
  skip "\n\n"
  let symbol ← upTo ' '
  skip "= Agent(\n"
  let file ← argument "    name=" literal
  let model ← argument "    model=" literal
  let description ← argument "    description=" literal
  argument "    instruction=" (skip "INSTRUCTION")
  let tools ← argument "    tools=" names
  let subAgents ← argument "    sub_agents=" names
  let generation ← ending
  return {
    summary, imports, instruction, symbol, file, model, description, tools, subAgents, generation }

def read (text : String) : Option AgentReading := reader.run text

end AgentReading

theorem Reads.argument {α : Type} {r : Reader α} {s : String} {a : α} (label : String)
    (hr : Reads r s a) : Reads (Reader.argument label r) (label ++ (s ++ ",\n")) a :=
  (Reads.skip label).bind (hr.bind (Reads.skip ",\n").map)

theorem Reads.call {s : String} (h : ')' ∉ s.toList) : Reads Reader.call (s ++ ")") (s ++ ")") :=
  (Reads.upTo h).map

namespace AgentModule

variable {m : AgentModule}

def endingText (generation : Option String) : String :=
  (generation.elim "" fun g => "    generate_content_config=" ++ (g ++ ",\n")) ++ ")\n"

theorem text_eq (m : AgentModule) : m.text =
    docstring "" m.summary "" ++ ("\n\n" ++ ((ofLines (m.imports.map (·.line)) ++ "\n") ++
    ("INSTRUCTION = " ++ (docstring "" m.instruction "" ++ ("\n\n" ++ ((m.symbol ++ " ") ++
    ("= Agent(\n" ++ (("    name=" ++ (literal m.file ++ ",\n")) ++
    (("    model=" ++ (literal m.model ++ ",\n")) ++
    (("    description=" ++ (literal m.description ++ ",\n")) ++
    (("    instruction=" ++ ("INSTRUCTION" ++ ",\n")) ++
    (("    tools=" ++ (("[" ++ (commaList m.tools ++ "]")) ++ ",\n")) ++
    (("    sub_agents=" ++ (("[" ++ (commaList m.subAgents ++ "]")) ++ ",\n")) ++
    endingText m.generation))))))))))))) := by
  rw [← String.toList_inj]
  cases hg : m.generation <;>
    simp [text, lines, ofLines, endingText, hg, List.map_append]

/-- The names and lines of a module hold none of the characters that end them. -/
structure Legible (m : AgentModule) : Prop where
  imports : ∀ i ∈ m.imports, i.line ≠ "" ∧ '\n' ∉ i.line.toList
  symbol : ' ' ∉ m.symbol.toList
  tools : ∀ n ∈ m.tools, IsIdentifier n
  subAgents : ∀ n ∈ m.subAgents, IsIdentifier n
  generation : ∀ g ∈ m.generation, ∃ call, g = call ++ ")" ∧ ')' ∉ call.toList

theorem reads_names {ns : List String} (h : ∀ n ∈ ns, IsIdentifier n) :
    Reads Reader.names ("[" ++ (commaList ns ++ "]")) ns := by
  have hno : ∀ n ∈ ns, ∀ c ∈ n.toList, ∀ d, isPart d = false → c ≠ d :=
    fun n hn c hc d hd heq => (h n hn).not_mem hd (heq ▸ hc)
  refine Reads.names fun n hn => ⟨fun hempty => ?_, fun c hc => ⟨?_, ?_, ?_⟩⟩
  · exact (h n hn).toList_ne_nil (by rw [hempty, String.toList_empty])
  · exact hno n hn c hc ',' (by decide)
  · exact hno n hn c hc ' ' (by decide)
  · exact hno n hn c hc ']' (by decide)

theorem reads_ending (h : ∀ g ∈ m.generation, ∃ call, g = call ++ ")" ∧ ')' ∉ call.toList) :
    Reads Reader.ending (endingText m.generation) m.generation := by
  cases hgeneration : m.generation with
  | none =>
    have hend : Reads (do Reader.skip ")\n"; return none) ")\n" (none : Option String) :=
      (Reads.skip ")\n").map
    simpa [Reader.ending, endingText] using hend.orElse _
  | some g =>
    obtain ⟨call, rfl, hcall⟩ := h g hgeneration
    have hargument := Reads.argument "    generate_content_config=" (Reads.call hcall)
    have hend : Reads (do Reader.skip ")\n"; return some (call ++ ")")) ")\n"
        (some (call ++ ")")) := (Reads.skip ")\n").map
    refine (hargument.bind hend).orElse_of_refused fun rest => ?_
    -- The argument starts with a space, so it is not taken for the end.
    refine Reader.bind_eq_none ?_ _
    rw [String.toList_append, String.toList_append, List.append_assoc, List.append_assoc]
    rfl

theorem Legible.reads (h : m.Legible) : Reads AgentReading.reader m.text (.ofModule m) := by
  have hlines : ∀ l ∈ m.imports.map (·.line), l ≠ "" ∧ '\n' ∉ l.toList := by
    intro l hl
    obtain ⟨i, hi, rfl⟩ := List.mem_map.mp hl
    exact h.imports i hi
  rw [text_eq]
  refine (Reads.docstring _).bind <| (Reads.skip _).bind <| (Reads.paragraph hlines).bind <|
    (Reads.skip _).bind <| (Reads.docstring _).bind <| (Reads.skip _).bind <|
    (Reads.upTo h.symbol).bind <| (Reads.skip _).bind <|
    (Reads.argument _ (Reads.literal _)).bind <| (Reads.argument _ (Reads.literal _)).bind <|
    (Reads.argument _ (Reads.literal _)).bind <| (Reads.argument _ (Reads.skip _)).bind <|
    (Reads.argument _ (reads_names h.tools)).bind <|
    (Reads.argument _ (reads_names h.subAgents)).bind ?_
  exact (reads_ending h.generation).map

end AgentModule

namespace AgentModule

variable {p : Project} {a : Agent} {m : AgentModule}

theorem line_legible (h : p.WellFormed) (hm : ofAgent p a = .ok m) {i : Import}
    (hi : i ∈ m.imports) : i.line ≠ "" ∧ '\n' ∉ i.line.toList := by
  have hregular := regular_import h hm hi
  have hsymbol : '\n' ∉ i.symbol.toList := hregular.symbol.not_mem (by decide)
  have horigin : '\n' ∉ i.origin.toList := fun hc => absurd (hregular.origin _ hc) (by decide)
  constructor
  · simp [Import.line]
  · simp [Import.line, horigin, hsymbol]

theorem legible (h : p.WellFormed) (hm : ofAgent p a = .ok m) : m.Legible where
  imports _ hi := line_legible h hm hi
  symbol := by
    rw [symbol_eq hm]
    exact (isIdentifier_agentVariable a.name).not_mem (by decide)
  tools := (regular h hm).tools
  subAgents := (regular h hm).subAgents
  generation g hg := by
    obtain ⟨tools, subAgents, -, -, rfl⟩ := ofAgent_eq_ok_iff.mp hm
    rw [ofParts, Option.mem_def, Option.ite_none_right_eq_some] at hg
    obtain ⟨-, hg⟩ := hg
    refine ⟨"types.GenerateContentConfig(" ++ commaList a.generationArguments, ?_, fun hmem => ?_⟩
    · rw [← Option.some.inj hg]
    · rw [String.toList_append, List.mem_append] at hmem
      obtain hname | harguments := hmem
      · revert hname
        decide
      · obtain hc | hc | ⟨argument, hargument, hc⟩ := Reader.mem_commaList harguments
        · exact absurd hc (by decide)
        · exact absurd hc (by decide)
        · exact absurd (Agent.mem_generationArguments hargument hc) (by decide)

end AgentModule

namespace AgentReading

variable {p : Project} {a : Agent} {m : AgentModule}

theorem read_text (h : p.WellFormed) (hm : AgentModule.ofAgent p a = .ok m) :
    read m.text = some (ofModule m) :=
  (AgentModule.legible h hm).reads.run

theorem ofModule_eq (hm : AgentModule.ofAgent p a = .ok m) : ofModule m =
    { summary := AgentModule.summaryOf a
      imports := m.imports.map (·.line)
      instruction := a.instruction
      symbol := agentVariable a.name
      file := moduleName a.name
      model := a.model
      description := a.description
      tools := m.tools
      subAgents := a.subAgents.map agentVariable
      generation := m.generation } := by
  rw [ofModule, AgentModule.subAgents_eq hm]
  obtain ⟨tools, subAgents, -, -, rfl⟩ := AgentModule.ofAgent_eq_ok_iff.mp hm
  simp only [AgentModule.ofParts]

end AgentReading

namespace Project

/-- One reader takes every module of an agent apart. In the package of a project without findings
it finds in the file of each agent what was put there, so that modules of the same text say the
same. -/
theorem modules_read_back (p : Project) (h : p.validate.findings = []) :
    (∃ files, p.preview = .ok files ∧
      ∀ a ∈ p.agents, ∃ m text, AgentModule.ofAgent p a = .ok m ∧
        files.get? (agentPath a) = some text ∧
        AgentReading.read text = some
          { summary := AgentModule.summaryOf a
            imports := m.imports.map (·.line)
            instruction := a.instruction
            symbol := agentVariable a.name
            file := moduleName a.name
            model := a.model
            description := a.description
            tools := m.tools
            subAgents := a.subAgents.map agentVariable
            generation := m.generation }) ∧
    ∀ (q : Project), q.validate.findings = [] → ∀ (a b : Agent) (m n : AgentModule),
      AgentModule.ofAgent p a = .ok m → AgentModule.ofAgent q b = .ok n → m.text = n.text →
        AgentReading.ofModule m = AgentReading.ofModule n := by
  have hwell := WellFormed.of_findings h
  constructor
  · obtain ⟨entries, hentries⟩ := exists_inserts h
    have hpreview : p.preview = .ok (.ofList entries) := by
      simp [preview, Report.isOk, h, hentries.render_eq, Except.mapError]
    refine ⟨.ofList entries, hpreview, fun a ha => ?_⟩
    obtain ⟨m, hm⟩ := hwell.exists_ofAgent ha
    refine ⟨m, m.text, hm, hentries.get?_agentPath hwell ha hm, ?_⟩
    rw [AgentReading.read_text hwell hm, AgentReading.ofModule_eq hm]
  · intro q hq a b m n hm hn htext
    have hread := AgentReading.read_text hwell hm
    rw [htext, AgentReading.read_text (WellFormed.of_findings hq) hn] at hread
    exact (Option.some.inj hread).symm

/-- An agent whose texts hold quotes, backslashes, brackets and what looks like the template. -/
def quotingAgent : Agent where
  name := "Guide"
  model := "m\"\\"
  description := "Ends in \"\"\""
  instruction := "\"\"\"\n\nguide_agent = Agent(\n    name=\"x\\\"\"\"\","
  maxOutputTokens := some 8

def quotingProject : Project := { blank ⟨0⟩ ⟨0⟩ "Quotes" with agents := [quotingAgent] }

theorem modules_read_back_quotingProject :
    quotingProject.validate.findings = [] ∧
      ∃ files text reading, quotingProject.preview = .ok files ∧
        files.get? "agents/guide.py" = some text ∧ AgentReading.read text = some reading ∧
        reading.instruction = quotingAgent.instruction ∧ reading.model = quotingAgent.model ∧
        reading.summary = "Guide: Ends in \"\"\"" := by
  have hfindings : quotingProject.validate.findings = [] := by decide
  have hpath : agentPath quotingAgent = "agents/guide.py" := by decide
  obtain ⟨⟨files, hpreview, hmodules⟩, -⟩ := modules_read_back quotingProject hfindings
  obtain ⟨m, text, -, hfile, hread⟩ := hmodules quotingAgent List.mem_cons_self
  rw [hpath] at hfile
  have hsummary : AgentModule.summaryOf quotingAgent = "Guide: Ends in \"\"\"" := by decide
  exact ⟨hfindings, files, text, _, hpreview, hfile, hread, rfl, rfl, hsummary⟩

end Project
end AgentAssembly
