import AgentAssembly.Package
import AgentAssembly.Proofs.Identifier
import AgentAssembly.Proofs.Text.Indentation
import AgentAssembly.Proofs.Text.Statements

/-!
What the modules of a package define, as their texts tell. Main statements: among the lines of an
agent's module one binds an agent, and among those of a tool's module one is the head of a function.
-/

namespace AgentAssembly

open Identifier
open Text (IsLine KeepsToLine isLine_docstring isLine_nil logicalLines logicalLines_ofLines pieces
  statements statements_ofLines)

def StartsWith (s : String) (c : Char) : Prop := s.toList.head? = some c

def EndsWith (s : String) (c : Char) : Prop := s.toList.getLast? = some c

instance (s : String) (c : Char) : Decidable (StartsWith s c) :=
  inferInstanceAs (Decidable (_ = _))

instance (s : String) (c : Char) : Decidable (EndsWith s c) :=
  inferInstanceAs (Decidable (_ = _))

section ends

variable {s t : String} {c d : Char}

theorem StartsWith.append (h : StartsWith s c) (t : String) : StartsWith (s ++ t) c := by
  rw [StartsWith] at h
  rw [StartsWith, String.toList_append, List.head?_append, h, Option.some_or]

theorem StartsWith.unique (hc : StartsWith s c) (hd : StartsWith s d) : c = d :=
  Option.some.inj (hc.symm.trans hd)

theorem not_startsWith_empty : ¬ StartsWith "" c := by simp [StartsWith]

theorem EndsWith.append (h : EndsWith t c) (s : String) : EndsWith (s ++ t) c := by
  rw [EndsWith] at h
  rw [EndsWith, String.toList_append, List.getLast?_append, h, Option.some_or]

theorem EndsWith.unique (hc : EndsWith s c) (hd : EndsWith s d) : c = d :=
  Option.some.inj (hc.symm.trans hd)

theorem not_endsWith_empty : ¬ EndsWith "" c := by simp [EndsWith]

theorem EndsWith.isPart_of_isIdentifier (h : EndsWith s c) (hs : IsIdentifier s) :
    c.isAlphanum ∨ c = '_' :=
  hs.isPart_of_mem (List.mem_of_getLast? h)

theorem startsWith_docstring (before text after : String) :
    StartsWith (Source.docstring before text after) '"' := by
  have hquotes : StartsWith "\"\"\"" '"' := by decide
  rw [Source.docstring]
  exact (((hquotes.append _).append _).append _).append _

theorem endsWith_docstring (before text after : String) :
    EndsWith (Source.docstring before text after) '"' := by
  have hquotes : EndsWith "\"\"\"" '"' := by decide
  exact hquotes.append _

end ends

theorem Import.isPart_of_endsWith {i : Import} {c : Char} (hi : IsIdentifier i.symbol)
    (h : EndsWith i.line c) : c.isAlphanum ∨ c = '_' := by
  obtain ⟨d, hd⟩ := Option.ne_none_iff_exists'.mp (mt List.getLast?_eq_none_iff.mp hi.toList_ne_nil)
  have hd : EndsWith i.symbol d := hd
  rw [h.unique (hd.append _)]
  exact hd.isPart_of_isIdentifier hi

theorem Import.startsWith_line (i : Import) : StartsWith i.line 'f' := by
  have hfrom : StartsWith "from " 'f' := by decide
  exact ((hfrom.append _).append _).append _

theorem not_endsWith_bracket {s : String} {c : Char} (h : EndsWith s c) (hc : c ≠ '(') :
    ¬ EndsWith s '(' :=
  fun hbracket => hc (h.unique hbracket)

namespace Source

theorem ofLines_append (ls ms : List String) : ofLines (ls ++ ms) = ofLines ls ++ ofLines ms := by
  simp [ofLines]

theorem mem_pieces_ofLines {piece cs : List Char} (h : piece ∈ pieces (· == '\n') cs)
    (lines : List String) : piece ∈ pieces (· == '\n') ((ofLines lines).toList ++ cs) := by
  induction lines with
  | nil => exact h
  | cons l lines ih =>
    have htext : (ofLines (l :: lines)).toList ++ cs =
        l.toList ++ '\n' :: ((ofLines lines).toList ++ cs) := by
      simp [ofLines]
    rw [htext, Text.pieces_append_cons rfl]
    exact List.mem_append_right _ ih

end Source

namespace AgentModule

def Defines (text v : String) : Prop := ∀ w, w ++ " = Agent(" ∈ statements text ↔ w = v

theorem eq_definition_of_endsWith {m : AgentModule}
    (himports : ∀ i ∈ m.imports, IsIdentifier i.symbol) {line : String} (hline : line ∈ m.lines)
    (hend : EndsWith line '(') : line = m.symbol ++ " = Agent(" := by
  have hcomma : ∀ s : String, ¬ EndsWith (s ++ ",") '(' := fun s =>
    not_endsWith_bracket (c := ',') (EndsWith.append (by decide) s) (by decide)
  have hlist : ∀ s : String, ¬ EndsWith (s ++ "],") '(' := fun s =>
    not_endsWith_bracket (c := ',') (EndsWith.append (by decide) s) (by decide)
  have hquotes : ∀ s text : String, ¬ EndsWith (s ++ Source.docstring "" text "") '(' :=
    fun s text => not_endsWith_bracket ((endsWith_docstring _ _ _).append s) (by decide)
  simp only [lines, List.cons_append, List.nil_append, List.mem_cons, List.mem_append,
    List.mem_map, List.not_mem_nil, or_false, Option.mem_toList, Option.map_eq_some_iff] at hline
  obtain rfl | rfl | ((⟨i, hi, rfl⟩ | rfl | rfl | rfl | hdefinition | rfl | rfl | rfl | rfl | rfl |
    rfl) | ⟨g, -, rfl⟩) | rfl := hline
  · exact absurd hend (not_endsWith_bracket (endsWith_docstring _ _ _) (by decide))
  · exact absurd hend not_endsWith_empty
  · exact absurd (Import.isPart_of_endsWith (himports i hi) hend) (by decide)
  · exact absurd hend not_endsWith_empty
  · exact absurd hend (hquotes _ _)
  · exact absurd hend not_endsWith_empty
  · exact hdefinition
  · exact absurd hend (hcomma _)
  · exact absurd hend (hcomma _)
  · exact absurd hend (hcomma _)
  · exact absurd hend (by decide)
  · exact absurd hend (hlist _)
  · exact absurd hend (hlist _)
  · exact absurd hend (hcomma _)
  · exact absurd hend (by decide)

theorem defines_symbol {m : AgentModule} (himports : ∀ i ∈ m.imports, IsIdentifier i.symbol)
    (hlines : ∀ l ∈ m.lines, IsLine l.toList) : Defines m.text m.symbol := by
  intro w
  have hend : EndsWith (w ++ " = Agent(") '(' := EndsWith.append (by decide) w
  rw [text, statements_ofLines hlines, List.mem_append, List.mem_singleton]
  constructor
  · rintro (h | h)
    · have hsame := eq_definition_of_endsWith himports h hend
      simpa using hsame
    · exact absurd (h ▸ hend) not_endsWith_empty
  · rintro rfl
    exact .inl (by simp [lines])

end AgentModule

namespace ToolModule

variable {t : Tool}

/-- The lines above the body, among them the texts that the tool gives for imports and
parameters. -/
def upperLines (t : Tool) : List String :=
  [Source.docstring "" ("Implementation of the " ++ t.name ++ " tool.") "", ""] ++ importLines t ++
    [head t, "    " ++ Source.docstring "" (description t) ""]

/-- The texts that a tool gives for imports and parameters each keep to their line. -/
def IsPlain (t : Tool) : Prop := ∀ line ∈ importLines t ++ [head t], KeepsToLine line.toList

/-- A line of the text is the head of a function of this name, and where the texts that the tool
gives keep to their lines it is the head of no other. -/
structure Defines (t : Tool) (text f : String) : Prop where
  head : ∃ rest, ("def " ++ f ++ "(" ++ rest).toList ∈ pieces (· == '\n') text.toList
  only : IsPlain t → ∀ g, IsIdentifier g →
    ((∃ rest, "def " ++ g ++ "(" ++ rest ∈ statements text) ↔ g = f)

theorem startsWith_importLine (text : String) :
    StartsWith (importLine text) 'i' ∨ StartsWith (importLine text) 'f' := by
  have himport : "import ".toList.head? = some 'i' := by decide
  have hfrom : "from ".toList.head? = some 'f' := by decide
  rw [importLine]
  simp only [List.isPrefixOf_iff_prefix]
  split
  · rename_i h
    obtain ⟨more, h⟩ | ⟨more, h⟩ := h
    · exact .inl (by rw [StartsWith, ← h, List.head?_append, himport, Option.some_or])
    · exact .inr (by rw [StartsWith, ← h, List.head?_append, hfrom, Option.some_or])
  · exact .inl (StartsWith.append himport _)

theorem startsWith_of_mem_importLines {line : String} (h : line ∈ importLines t) :
    line = "" ∨ StartsWith line 'i' ∨ StartsWith line 'f' := by
  rw [importLines] at h
  split at h
  · simp at h
  · obtain h | h := List.mem_append.mp h
    · obtain ⟨text, -, htext⟩ := List.mem_map.mp h
      exact .inr (htext ▸ startsWith_importLine text)
    · exact .inl (by simpa using h)

theorem eq_head_of_startsWith {line : String} (hline : line ∈ upperLines t)
    (hstart : StartsWith line 'd') : line = head t := by
  have hspaces : StartsWith "    " ' ' := by decide
  simp only [upperLines, List.cons_append, List.nil_append, List.mem_cons, List.mem_append,
    List.not_mem_nil, or_false] at hline
  obtain rfl | rfl | himport | hhead | rfl := hline
  · exact absurd (hstart.unique (startsWith_docstring _ _ _)) (by decide)
  · exact absurd hstart not_startsWith_empty
  · obtain rfl | h | h := startsWith_of_mem_importLines himport
    · exact absurd hstart not_startsWith_empty
    · exact absurd (hstart.unique h) (by decide)
    · exact absurd (hstart.unique h) (by decide)
  · exact hhead
  · exact absurd (hstart.unique (hspaces.append _)) (by decide)

theorem eq_of_head_eq {f g : String} (hf : IsIdentifier f) (hg : IsIdentifier g)
    {rest rest' : String} (h : "def " ++ g ++ "(" ++ rest = "def " ++ f ++ "(" ++ rest') :
    g = f := by
  have hopen : "(".toList = ['('] := by decide
  -- The name is what stands before the first bracket.
  have htake : ∀ s, IsIdentifier s → ∀ more,
      (s.toList ++ '(' :: more).takeWhile (· ≠ '(') = s.toList := by
    intro s hs more
    rw [List.takeWhile_append_of_pos, List.takeWhile_cons_of_neg (by simp), List.append_nil]
    intro c hc
    have hpart := hs.isPart_of_mem hc
    rw [decide_eq_true_eq]
    intro heq
    subst heq
    exact absurd hpart (by decide)
  have hlist : g.toList ++ '(' :: rest.toList = f.toList ++ '(' :: rest'.toList := by
    have hsame : g ++ ("(" ++ rest) = f ++ ("(" ++ rest') := by
      simpa [String.append_assoc] using h
    simpa [hopen] using congrArg String.toList hsame
  rw [← String.toList_inj, ← htake g hg rest.toList, hlist, htake f hf]

theorem head_eq (t : Tool) : head t = "def " ++ toolFunction t.name ++ "(" ++
    (Source.commaList (t.parameters.map (·.signature)) ++ "):") := by
  simp [head, String.append_assoc]

theorem text_eq (t : Tool) : (text t).toList =
    (Source.ofLines (upperLines t)).toList ++
      (Text.indentLines bodyIndent t.code ++ "\n").toList := by
  simp [text, lines, upperLines, Source.ofLines]

theorem isLine_of_mem_upperLines (h : IsPlain t) {line : String} (hline : line ∈ upperLines t) :
    IsLine line.toList := by
  have hnone : Text.IsPlain "".toList := by decide
  have hspaces : Text.IsBare "    ".toList := by decide
  simp only [upperLines, List.mem_append, List.mem_cons, List.not_mem_nil, or_false] at hline
  obtain ((rfl | rfl) | himport) | rfl | rfl := hline
  · exact isLine_docstring hnone hnone _
  · exact isLine_nil
  · exact (h line (List.mem_append_left _ himport)).isLine
  · exact (h _ (List.mem_append_right _ List.mem_cons_self)).isLine
  · rw [String.toList_append]
    exact (isLine_docstring hnone hnone _).lead hspaces

theorem not_startsWith_body {line : List Char}
    (h : line ∈ logicalLines false (Text.indentLines bodyIndent t.code ++ "\n").toList) :
    line.head? ≠ some 'd' := by
  refine Text.head?_ne_of_mem (by decide) (fun piece hpiece => ?_) line h
  have hfeed : (Text.indentLines bodyIndent t.code ++ "\n").toList =
      (Text.indentLines bodyIndent t.code).toList ++ '\n' :: [] := by simp
  rw [hfeed, Text.pieces_append_cons rfl, Text.pieces_indentLines, List.mem_append,
    List.mem_map] at hpiece
  obtain ⟨l, -, rfl⟩ | hlast := hpiece
  · rw [Text.indentLine]
    split
    · simp
    · simp [bodyIndent, List.replicate_succ]
  · obtain rfl : piece = [] := by simpa [pieces] using hlast
    simp

theorem exists_text_eq (t : Tool) : ∃ above ds, (text t).toList = (Source.ofLines above).toList ++
    (("def " ++ toolFunction t.name ++ "(").toList ++ ds) := by
  refine ⟨[Source.docstring "" ("Implementation of the " ++ t.name ++ " tool.") "", ""] ++
    importLines t, (Source.commaList (t.parameters.map (·.signature)) ++ "):\n").toList ++
      ((Source.ofLines ["    " ++ Source.docstring "" (description t) ""]).toList ++
        (Text.indentLines bodyIndent t.code ++ "\n").toList), ?_⟩
  rw [text_eq, upperLines, Source.ofLines_append, String.toList_append, List.append_assoc, head_eq]
  simp [Source.ofLines]

theorem exists_head (t : Tool) : ∃ rest, ("def " ++ toolFunction t.name ++ "(" ++ rest).toList ∈
    pieces (· == '\n') (text t).toList := by
  have hbreak : ∀ c ∈ ("def " ++ toolFunction t.name ++ "(").toList, (c == '\n') = false := by
    intro c hc
    have hname : '\n' ∉ (toolFunction t.name).toList :=
      (isIdentifier_toolFunction t.name).not_mem (by decide)
    have hne : c ≠ '\n' := by
      rintro rfl
      simp [hname] at hc
    simpa using hne
  obtain ⟨above, ds, htext⟩ := exists_text_eq t
  obtain ⟨more, rest, hpieces⟩ := Text.exists_pieces_eq hbreak ds
  have hfirst : ("def " ++ toolFunction t.name ++ "(").toList ++ more ∈ pieces (· == '\n')
      (("def " ++ toolFunction t.name ++ "(").toList ++ ds) := by
    rw [hpieces]
    exact List.mem_cons_self
  have hline : ("def " ++ toolFunction t.name ++ "(" ++ String.ofList more).toList =
      ("def " ++ toolFunction t.name ++ "(").toList ++ more := by
    rw [String.toList_append, String.toList_ofList]
  refine ⟨String.ofList more, ?_⟩
  rw [hline, htext]
  exact Source.mem_pieces_ofLines hfirst above

theorem defines_toolFunction (t : Tool) : Defines t (text t) (toolFunction t.name) where
  head := exists_head t
  only hplain g hg := by
    have hdef : StartsWith "def " 'd' := by decide
    have hstatements : statements (text t) = upperLines t ++
        (logicalLines false (Text.indentLines bodyIndent t.code ++ "\n").toList).map
          String.ofList := by
      have hupper := logicalLines_ofLines (fun l hl => isLine_of_mem_upperLines hplain hl)
        (Text.indentLines bodyIndent t.code ++ "\n").toList
      rw [statements, text_eq, hupper, List.map_append, List.map_map]
      simp [Function.comp_def]
    rw [hstatements]
    simp only [List.mem_append, List.mem_map]
    constructor
    · rintro ⟨rest, hline | ⟨line, hline, heq⟩⟩
      · have hsame := eq_head_of_startsWith hline (((hdef.append _).append _).append _)
        rw [head_eq] at hsame
        exact eq_of_head_eq (isIdentifier_toolFunction t.name) hg hsame
      · have hstart : StartsWith (String.ofList line) 'd' :=
          heq ▸ ((hdef.append g).append "(").append rest
        rw [StartsWith, String.toList_ofList] at hstart
        exact absurd hstart (not_startsWith_body hline)
    · rintro rfl
      exact ⟨_, .inl (by rw [← head_eq]; simp [upperLines])⟩

end ToolModule

namespace EntryPoint

theorem root_agent_mem_lines_iff {e : EntryPoint} {v : String} :
    "root_agent = " ++ v ∈ e.lines ↔ v = e.root := by
  have hroot : StartsWith "root_agent = " 'r' := by decide
  have hstart : StartsWith ("root_agent = " ++ v) 'r' := hroot.append v
  simp only [lines, List.cons_append, List.nil_append, List.mem_cons, List.mem_append,
    List.mem_map, List.not_mem_nil, or_false]
  constructor
  · intro h
    obtain h | h | ⟨i, -, h⟩ | h | h | h | h := h
    · rw [h] at hstart
      exact absurd (hstart.unique (startsWith_docstring _ _ _)) (by decide)
    · exact absurd (h ▸ hstart) not_startsWith_empty
    · rw [← h] at hstart
      exact absurd (hstart.unique i.startsWith_line) (by decide)
    · exact absurd (h ▸ hstart) not_startsWith_empty
    · simpa using h
    · exact absurd (h ▸ hstart) not_startsWith_empty
    · rw [h] at hstart
      exact absurd hstart (by decide)
  · intro heq
    subst heq
    simp

end EntryPoint
end AgentAssembly
