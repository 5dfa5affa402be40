import AgentAssembly.Proofs.Package.Imports

/-!
What the modules of a package bind, read from their texts. Main statements: whatever is written into
the module of an agent or into the entry point stays within its own line, and the bindings found in
the text are the imports in the order in which they were written and then the module's own names.
-/

namespace AgentAssembly

open Identifier Package
open Text (IsBare IsLine isLine_docstring isLine_nil pieces pieces_append_cons
  pieces_of_forall_not statements statements_ofLines)

/-- What a line binds at the margin: a name that is taken from elsewhere, or one that is given a
value. -/
inductive Binding
  | taken (origin name : String)
  | assigned (name : String)
deriving DecidableEq, Repr

namespace Binding

def name : Binding → String
  | .taken _ name => name
  | .assigned name => name

def ofLine? (line : String) : Option Binding :=
  match (pieces (· == ' ') line.toList).map String.ofList with
  | ["from", origin, "import", name] => some (.taken origin name)
  | name :: "=" :: _ => if isIdentifier name then some (.assigned name) else none
  | _ => none

def ofText (text : String) : List Binding := (statements text).filterMap ofLine?

def ofImport (i : Import) : Binding := .taken i.origin i.symbol

theorem map_name_ofImport (is : List Import) :
    (is.map ofImport).map name = is.map (·.symbol) := by
  rw [List.map_map]
  exact List.map_congr_left fun i _ => rfl

section lines

variable {line name : String}

theorem pieces_word {word : List Char} (h : ' ' ∉ word) (rest : List Char) :
    pieces (· == ' ') (word ++ ' ' :: rest) = word :: pieces (· == ' ') rest := by
  have hword : ∀ c ∈ word, (c == ' ') = false := by
    intro c hc
    have hne : c ≠ ' ' := fun heq => h (heq ▸ hc)
    simpa using hne
  rw [pieces_append_cons rfl, pieces_of_forall_not hword, List.singleton_append]

theorem ofLine?_import {i : Import} (horigin : ' ' ∉ i.origin.toList)
    (hsymbol : ' ' ∉ i.symbol.toList) : ofLine? i.line = some (ofImport i) := by
  have hline : i.line.toList = "from".toList ++ ' ' :: (i.origin.toList ++ ' ' ::
      ("import".toList ++ ' ' :: i.symbol.toList)) := by
    simp [Import.line]
  have hlast : ∀ c ∈ i.symbol.toList, (c == ' ') = false := by
    intro c hc
    have hne : c ≠ ' ' := fun heq => hsymbol (heq ▸ hc)
    simpa using hne
  rw [ofLine?, hline, pieces_word (by decide), pieces_word horigin, pieces_word (by decide),
    pieces_of_forall_not hlast]
  simp [ofImport]

theorem ofLine?_assigned (h : IsIdentifier name) (value : String) :
    ofLine? (name ++ " = " ++ value) = some (.assigned name) := by
  have hline : (name ++ " = " ++ value).toList =
      name.toList ++ ' ' :: (['='] ++ ' ' :: value.toList) := by
    simp
  have hfrom : name ≠ "from" := by
    rintro rfl
    exact absurd (isIdentifier_iff.mpr h) (by decide)
  rw [ofLine?, hline, pieces_word (h.not_mem (by decide)), pieces_word (by decide)]
  simp only [List.map_cons, String.ofList_toList]
  split
  · rename_i heq
    exact absurd (List.cons.inj heq).1 hfrom
  · rename_i heq
    obtain ⟨rfl, -⟩ := List.cons.inj heq
    rw [if_pos (isIdentifier_iff.mpr h)]
  · rename_i hother
    exact absurd rfl (hother name _)

theorem ofLine?_eq_none (h : ∀ c ∈ line.toList.head?, isStart c = false) :
    ofLine? line = none := by
  obtain ⟨word, rest, hpieces, hword⟩ : ∃ word rest,
      pieces (· == ' ') line.toList = word :: rest ∧ ∀ c ∈ word.head?, isStart c = false := by
    cases hline : line.toList with
    | nil => exact ⟨[], [], rfl, by simp⟩
    | cons c cs =>
      have hc : isStart c = false := h c (by simp [hline])
      by_cases hspace : c = ' '
      · exact ⟨[], pieces (· == ' ') cs, by simp [pieces, hspace], by simp⟩
      · obtain ⟨q, qs, hq⟩ := List.exists_cons_of_ne_nil (Text.pieces_ne_nil (· == ' ') cs)
        exact ⟨c :: q, qs, by simp [pieces, hspace, hq], by simpa using hc⟩
  have hfrom : String.ofList word ≠ "from" := by
    intro heq
    have hchars : word = "from".toList := by rw [← heq, String.toList_ofList]
    exact absurd (hword 'f' (by rw [hchars]; rfl)) (by decide)
  have hname : isIdentifier (String.ofList word) = false := by
    rw [isIdentifier, String.toList_ofList]
    cases word with
    | nil => rfl
    | cons c cs => simp [hword c rfl]
  rw [ofLine?, hpieces, List.map_cons]
  split
  · rename_i heq
    exact absurd (List.cons.inj heq).1 hfrom
  · rename_i heq
    obtain ⟨rfl, -⟩ := List.cons.inj heq
    rw [hname, if_neg Bool.false_ne_true]
  · rfl

end lines

end Binding

theorem Identifier.IsIdentifier.isBare {s : String} (h : IsIdentifier s) : IsBare s.toList := by
  intro c hc
  constructor
  · rintro rfl
    exact h.not_mem (by decide) hc
  · rintro rfl
    exact h.not_mem (by decide) hc

theorem Source.isBare_commaList {names : List String} (h : ∀ n ∈ names, IsIdentifier n) :
    IsBare (Source.commaList names).toList := by
  intro c hc
  obtain rfl | rfl | ⟨n, hn, hc⟩ := Reader.mem_commaList hc
  · decide
  · decide
  · exact (h n hn).isBare c hc

namespace Import

variable {i : Import}

structure Regular (i : Import) : Prop where
  symbol : IsIdentifier i.symbol
  origin : ∀ c ∈ i.origin.toList, isPart c = true ∨ c = '.'

theorem Regular.binding (h : i.Regular) : Binding.ofLine? i.line = some (.ofImport i) := by
  refine Binding.ofLine?_import (fun hc => ?_) (h.symbol.not_mem (by decide))
  exact absurd (h.origin ' ' hc) (by decide)

theorem Regular.isLine (h : i.Regular) : IsLine i.line.toList := by
  have horigin : IsBare i.origin.toList := by
    intro c hc
    constructor
    · rintro rfl
      exact absurd (h.origin _ hc) (by decide)
    · rintro rfl
      exact absurd (h.origin _ hc) (by decide)
  have hfrom : IsBare "from ".toList := by decide
  have himport : IsBare " import ".toList := by decide
  have hline : i.line.toList =
      "from ".toList ++ i.origin.toList ++ " import ".toList ++ i.symbol.toList := by
    rw [line, String.toList_append, String.toList_append, String.toList_append]
  rw [hline]
  exact (((hfrom.append horigin).append himport).append h.symbol.isBare).isLine

theorem isPart_of_mem_file {label before : String}
    (hbefore : ∀ c ∈ before.toList, isPart c = true ∨ c = '.') :
    ∀ c ∈ (before ++ moduleName label).toList, isPart c = true ∨ c = '.' := by
  intro c hc
  obtain hc | hc := List.mem_append.mp (String.toList_append ▸ hc)
  · exact hbefore c hc
  · have hpart := (isIdentifier_moduleName label).isPart_of_mem hc
    exact .inl (by simpa [isPart] using hpart)

end Import

theorem AgentModule.regular_import {p : Project} {a : Agent} {m : AgentModule} {i : Import}
    (h : p.WellFormed) (hm : ofAgent p a = .ok m) (hi : i ∈ m.imports) : i.Regular where
  symbol := h.isIdentifier_symbol (mem_importable hm hi)
  origin := by
    have hframework : ∀ origin ∈ ["google.adk.agents", "google.genai", "google.adk.tools"],
        ∀ c ∈ origin.toList, isPart c = true ∨ c = '.' := by
      simp [isPart]
    have hdots : ∀ before ∈ [".", "..tools."], ∀ c ∈ before.toList, isPart c = true ∨ c = '.' := by
      simp [isPart]
    obtain rfl | rfl | ⟨t, -, rfl⟩ | ⟨b, -, -, rfl⟩ := mem_imports_cases hm hi
    · exact hframework _ (by simp [Import.origin])
    · exact hframework _ (by simp [Import.origin])
    · rw [Tool.toImport]
      split
      · exact Import.isPart_of_mem_file (hdots _ (by simp))
      · exact hframework _ (by simp [Import.origin])
    · exact Import.isPart_of_mem_file (hdots _ (by simp))

theorem Agent.regular_toEntryImport (a : Agent) : a.toEntryImport.Regular where
  symbol := by
    rw [toEntryImport, Import.symbol]
    exact isIdentifier_agentVariable a.name
  origin := by
    rw [toEntryImport, Import.origin]
    exact Import.isPart_of_mem_file (by simp [isPart])

theorem Import.filterMap_lines {is : List Import} (h : ∀ i ∈ is, i.Regular) :
    (is.map (·.line)).filterMap Binding.ofLine? = is.map .ofImport := by
  rw [List.filterMap_map, ← List.filterMap_eq_map]
  exact List.filterMap_congr fun i hi => (h i hi).binding

namespace AgentModule

variable {m : AgentModule}

structure Regular (m : AgentModule) : Prop where
  imports : ∀ i ∈ m.imports, i.Regular
  symbol : IsIdentifier m.symbol
  tools : ∀ n ∈ m.tools, IsIdentifier n
  subAgents : ∀ n ∈ m.subAgents, IsIdentifier n
  generation : ∀ g ∈ m.generation, IsBare g.toList

theorem regular {p : Project} {a : Agent} (h : p.WellFormed) (hm : ofAgent p a = .ok m) :
    m.Regular where
  imports _ hi := regular_import h hm hi
  symbol := by
    rw [symbol_eq hm]
    exact isIdentifier_agentVariable a.name
  tools _ hn := isIdentifier_of_mem_tools h hm hn
  subAgents n hn := by
    rw [subAgents_eq hm] at hn
    obtain ⟨name, -, rfl⟩ := List.mem_map.mp hn
    exact isIdentifier_agentVariable name
  generation g hg := by
    have hcall : IsBare "types.GenerateContentConfig(".toList := by decide
    have hclose : IsBare ")".toList := by decide
    have harguments : IsBare (Source.commaList a.generationArguments).toList := by
      intro c hc
      obtain rfl | rfl | ⟨argument, hargument, hc⟩ := Reader.mem_commaList hc
      · decide
      · decide
      · constructor
        · rintro rfl
          exact absurd (Agent.mem_generationArguments hargument hc) (by decide)
        · rintro rfl
          exact absurd (Agent.mem_generationArguments hargument hc) (by decide)
    obtain ⟨tools, subAgents, -, -, rfl⟩ := ofAgent_eq_ok_iff.mp hm
    rw [ofParts, Option.mem_def, Option.ite_none_right_eq_some] at hg
    obtain ⟨-, hg⟩ := hg
    rw [← Option.some.inj hg, String.toList_append, String.toList_append]
    exact (hcall.append harguments).append hclose

theorem isLine_argument {label : String} (h : IsBare label.toList) (text : String) :
    IsLine (label ++ Source.literal text ++ ",").toList := by
  have hcomma : IsBare ",".toList := by decide
  rw [String.toList_append, String.toList_append, List.append_assoc]
  exact (hcomma.isLine.literal (by decide) text).lead h

theorem isLine_names {label : String} (h : IsBare label.toList) {names : List String}
    (hnames : ∀ n ∈ names, IsIdentifier n) :
    IsLine (label ++ Source.commaList names ++ "],").toList := by
  have hclose : IsBare "],".toList := by decide
  rw [String.toList_append, String.toList_append]
  exact ((h.append (Source.isBare_commaList hnames)).append hclose).isLine

theorem isLine_of_mem (h : m.Regular) {line : String} (hline : line ∈ m.lines) :
    IsLine line.toList := by
  have hnone : Text.IsPlain "".toList := by decide
  simp only [lines, List.cons_append, List.nil_append, List.mem_cons, List.mem_append,
    List.mem_map, List.not_mem_nil, or_false, Option.mem_toList, Option.map_eq_some_iff] at hline
  obtain rfl | rfl | ((⟨i, hi, rfl⟩ | rfl | rfl | rfl | rfl | rfl | rfl | rfl | rfl | rfl | rfl) |
    ⟨g, hg, rfl⟩) | rfl := hline
  · exact isLine_docstring hnone hnone _
  · exact isLine_nil
  · exact (h.imports i hi).isLine
  · exact isLine_nil
  · have hlabel : IsBare "INSTRUCTION = ".toList := by decide
    rw [String.toList_append]
    exact (isLine_docstring hnone hnone _).lead hlabel
  · exact isLine_nil
  · have hcall : IsBare " = Agent(".toList := by decide
    rw [String.toList_append]
    exact (h.symbol.isBare.append hcall).isLine
  · exact isLine_argument (by decide) _
  · exact isLine_argument (by decide) _
  · exact isLine_argument (by decide) _
  · have hline : IsBare "    instruction=INSTRUCTION,".toList := by decide
    exact hline.isLine
  · exact isLine_names (by decide) h.tools
  · exact isLine_names (by decide) h.subAgents
  · have hlabel : IsBare "    generate_content_config=".toList := by decide
    have hcomma : IsBare ",".toList := by decide
    rw [String.toList_append, String.toList_append]
    exact ((hlabel.append (h.generation g hg)).append hcomma).isLine
  · have hclose : IsBare ")".toList := by decide
    exact hclose.isLine

theorem statements_text (h : m.Regular) : statements m.text = m.lines ++ [""] :=
  statements_ofLines fun _ hl => isLine_of_mem h hl

def innerLines (m : AgentModule) : List String :=
  ["    name=" ++ Source.literal m.file ++ ",",
   "    model=" ++ Source.literal m.model ++ ",",
   "    description=" ++ Source.literal m.description ++ ",",
   "    instruction=INSTRUCTION,",
   "    tools=[" ++ Source.commaList m.tools ++ "],",
   "    sub_agents=[" ++ Source.commaList m.subAgents ++ "],"] ++
  (m.generation.map fun g => "    generate_content_config=" ++ g ++ ",").toList ++ [")", ""]

theorem ofLine?_innerLines {line : String} (h : line ∈ m.innerLines) :
    Binding.ofLine? line = none := by
  refine Binding.ofLine?_eq_none ?_
  simp only [innerLines, List.cons_append, List.nil_append, List.mem_cons, List.mem_append,
    List.not_mem_nil, or_false, Option.mem_toList, Option.map_eq_some_iff] at h
  obtain rfl | rfl | rfl | rfl | rfl | rfl | ⟨g, -, rfl⟩ | rfl | rfl := h <;> simp [isStart]

theorem bindings_text (h : m.Regular) : Binding.ofText m.text =
    m.imports.map .ofImport ++ [.assigned "INSTRUCTION", .assigned m.symbol] := by
  have hlines : m.lines ++ [""] = [Source.docstring "" m.summary "", ""] ++
      m.imports.map (·.line) ++ ["", "INSTRUCTION" ++ " = " ++ Source.docstring "" m.instruction "",
        "", m.symbol ++ " = " ++ "Agent("] ++ m.innerLines := by
    simp [lines, innerLines, ← String.toList_inj]
  have hdocstring : Binding.ofLine? (Source.docstring "" m.summary "") = none :=
    Binding.ofLine?_eq_none (by simp [Source.docstring, isStart])
  have hempty : Binding.ofLine? "" = none := by decide
  have hname : IsIdentifier "INSTRUCTION" := isIdentifier_iff.mp (by decide)
  have hinner : m.innerLines.filterMap Binding.ofLine? = [] :=
    List.filterMap_eq_nil_iff.mpr fun _ => ofLine?_innerLines
  rw [Binding.ofText, statements_text h, hlines, List.filterMap_append, List.filterMap_append,
    List.filterMap_append, hinner, Import.filterMap_lines h.imports]
  simp only [List.filterMap_cons, List.filterMap_nil, hdocstring, hempty,
    Binding.ofLine?_assigned hname, Binding.ofLine?_assigned h.symbol, List.nil_append,
    List.append_nil]

end AgentModule

namespace EntryPoint

variable {e : EntryPoint}

structure Regular (e : EntryPoint) : Prop where
  imports : ∀ i ∈ e.imports, i.Regular
  root : IsIdentifier e.root

theorem regular (p : Project) (root : Agent) : (ofProject p root).Regular where
  imports i hi := by
    rw [ofProject, List.mem_map] at hi
    obtain ⟨a, -, rfl⟩ := hi
    exact a.regular_toEntryImport
  root := by
    simp only [ofProject]
    exact isIdentifier_agentVariable root.name

theorem isLine_of_mem (h : e.Regular) {line : String} (hline : line ∈ e.lines) :
    IsLine line.toList := by
  simp only [lines, List.cons_append, List.nil_append, List.mem_cons, List.mem_append,
    List.mem_map, List.not_mem_nil, or_false] at hline
  obtain rfl | rfl | ⟨i, hi, rfl⟩ | rfl | rfl | rfl | rfl := hline
  · exact isLine_docstring (by decide) (by decide) _
  · exact isLine_nil
  · exact (h.imports i hi).isLine
  · exact isLine_nil
  · have hlabel : IsBare "root_agent = ".toList := by decide
    rw [String.toList_append]
    exact (hlabel.append h.root.isBare).isLine
  · exact isLine_nil
  · have hopen : IsBare "__all__ = [".toList := by decide
    have hclose : IsBare "]".toList := by decide
    have hline : "__all__ = [\"root_agent\"]".toList =
        "__all__ = [".toList ++ ((Source.literal "root_agent").toList ++ "]".toList) := by decide
    rw [hline]
    exact (hclose.isLine.literal (by decide) _).lead hopen

theorem statements_text (h : e.Regular) : statements e.text = e.lines ++ [""] :=
  statements_ofLines fun _ hl => isLine_of_mem h hl

/-- The text binds what is imported, then the root agent and the list of what is offered. -/
theorem bindings_text (h : e.Regular) : Binding.ofText e.text =
    e.imports.map .ofImport ++ [.assigned "root_agent", .assigned "__all__"] := by
  have hlines : e.lines ++ [""] = [Source.docstring "Entry point for the " e.project
      " agent system.", ""] ++ e.imports.map (·.line) ++
        ["", "root_agent" ++ " = " ++ e.root, "",
          "__all__" ++ " = " ++ "[\"root_agent\"]", ""] := by
    simp [lines]
  have hdocstring : Binding.ofLine? (Source.docstring "Entry point for the " e.project
      " agent system.") = none :=
    Binding.ofLine?_eq_none (by simp [Source.docstring, isStart])
  have hempty : Binding.ofLine? "" = none := by decide
  have hname : IsIdentifier "root_agent" := isIdentifier_iff.mp (by decide)
  have hall : IsIdentifier "__all__" := isIdentifier_iff.mp (by decide)
  rw [Binding.ofText, statements_text h, hlines, List.filterMap_append,
    List.filterMap_append, Import.filterMap_lines h.imports]
  simp only [List.filterMap_cons, List.filterMap_nil, hdocstring, hempty,
    Binding.ofLine?_assigned hname, Binding.ofLine?_assigned hall, List.nil_append]

end EntryPoint
end AgentAssembly
