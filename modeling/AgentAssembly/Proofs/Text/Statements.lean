import AgentAssembly.Proofs.Text.Delimited

/-!
Lines of source text. A text between triple quotes belongs to the line on which it is opened, so
that no text that a module quotes can pass for a line of the module. Main statements: lines that are
written one below the other are found again, docstrings and literals among them, and what is moved
right starts no line at the margin.
-/

namespace AgentAssembly.Text

def lead (cs : List Char) : List (List Char) → List (List Char)
  | [] => [cs]
  | l :: ls => (cs ++ l) :: ls

/-- Cuts a text into lines. The flag tells that the text starts between triple quotes, where a
backslash takes what stands behind it. -/
def logicalLines : Bool → List Char → List (List Char)
  | _, [] => [[]]
  | quoted, '"' :: '"' :: '"' :: rest => lead ['"', '"', '"'] (logicalLines (!quoted) rest)
  | true, '\\' :: c :: rest => lead ['\\', c] (logicalLines true rest)
  | false, '\n' :: rest => [] :: logicalLines false rest
  | quoted, c :: rest => lead [c] (logicalLines quoted rest)

def statements (text : String) : List String :=
  (logicalLines false text.toList).map String.ofList

variable {quoted : Bool} {c d : Char} {cs ds l words text : List Char} {ls : List (List Char)}

theorem lead_lead : lead cs (lead ds ls) = lead (cs ++ ds) ls := by
  cases ls <;> simp [lead]

theorem lead_cons : lead cs (l :: ls) = (cs ++ l) :: ls := rfl

theorem tail_lead : (lead cs ls).tail = ls.tail := by
  cases ls <;> rfl

theorem exists_lead (cs : List Char) (ls : List (List Char)) :
    ∃ l rest, lead cs ls = (cs ++ l) :: rest := by
  cases ls with
  | nil => exact ⟨[], [], by simp [lead]⟩
  | cons l ls => exact ⟨l, ls, rfl⟩

theorem exists_logicalLines (quoted : Bool) (cs : List Char) :
    ∃ l rest, logicalLines quoted cs = l :: rest ∧ (l = [] ∨ l.head? = cs.head?) := by
  have hlead : ∀ (c : Char) (more cs : List Char) (ls : List (List Char)),
      ∃ l rest, lead (c :: more) ls = l :: rest ∧ (l = [] ∨ l.head? = (c :: cs).head?) := by
    intro c more cs ls
    obtain ⟨l, rest, hl⟩ := exists_lead (c :: more) ls
    exact ⟨_, rest, hl, .inr rfl⟩
  rw [logicalLines.eq_def]
  split
  · exact ⟨[], [], rfl, .inl rfl⟩
  · exact hlead ..
  · exact hlead ..
  · exact ⟨[], _, rfl, .inl rfl⟩
  · exact hlead ..

theorem lead_nil : lead [] (logicalLines quoted cs) = logicalLines quoted cs := by
  obtain ⟨l, rest, hl, -⟩ := exists_logicalLines quoted cs
  rw [hl, lead_cons, List.nil_append]

def IsBare (words : List Char) : Prop := ∀ c ∈ words, c ≠ '"' ∧ c ≠ '\n'

instance (words : List Char) : Decidable (IsBare words) := List.decidableBAll _ words

theorem IsBare.append (hcs : IsBare cs) (hds : IsBare ds) : IsBare (cs ++ ds) :=
  List.forall_mem_append.mpr ⟨hcs, hds⟩

section outside

theorem logicalLines_break : logicalLines false ('\n' :: cs) = [] :: logicalLines false cs := by
  rw [logicalLines]

theorem logicalLines_quotes :
    logicalLines quoted ('"' :: '"' :: '"' :: cs) =
      lead ['"', '"', '"'] (logicalLines (!quoted) cs) := by
  rw [logicalLines]

theorem logicalLines_plain (hquote : c ≠ '"') (hbreak : c ≠ '\n') :
    logicalLines false (c :: cs) = lead [c] (logicalLines false cs) := by
  rw [logicalLines]
  · exact fun rest heq _ => hquote heq
  · simp
  · exact fun _ heq => hbreak heq

theorem logicalLines_quote (h : ∀ rest, cs ≠ '"' :: '"' :: rest) :
    logicalLines false ('"' :: cs) = lead ['"'] (logicalLines false cs) := by
  rw [logicalLines]
  · exact fun rest _ heq => h rest heq
  · simp
  · simp

theorem logicalLines_words (h : IsBare words) (cs : List Char) :
    logicalLines false (words ++ cs) = lead words (logicalLines false cs) := by
  induction words with
  | nil => exact lead_nil.symm
  | cons c words ih =>
    obtain ⟨hc, hwords⟩ := List.forall_mem_cons.mp h
    rw [List.cons_append, logicalLines_plain hc.1 hc.2, ih hwords, lead_lead, List.singleton_append]

end outside

theorem logicalLines_of_read (h : TripleQuoted.read cs = some (text, [])) (rest : List Char) :
    logicalLines true (cs ++ rest) = lead cs (logicalLines false rest) := by
  induction cs using TripleQuoted.read.induct generalizing text with
  | case1 => simp [TripleQuoted.read] at h
  | case2 after =>
    obtain ⟨-, rfl⟩ : [] = text ∧ after = [] := by simpa [TripleQuoted.read] using h
    exact logicalLines_quotes
  | case3 c cs hc ih =>
    have hread : TripleQuoted.read ('\\' :: c :: cs) = precede [c] (TripleQuoted.read cs) := by
      rw [TripleQuoted.read, if_pos hc]
      rfl
    rw [hread] at h
    obtain ⟨inner, hinner, rfl⟩ := precede_eq_some_iff.mp h
    rw [List.cons_append, List.cons_append, logicalLines, ih hinner, lead_lead]
    rfl
  | case4 c cs hc => simp [TripleQuoted.read, hc] at h
  | case5 c cs hrun hescape ih =>
    have hread : TripleQuoted.read (c :: cs) = precede [c] (TripleQuoted.read cs) := by
      rw [TripleQuoted.read]
      · rfl
      · exact hrun
      · exact hescape
    rw [hread] at h
    obtain ⟨inner, hinner, rfl⟩ := precede_eq_some_iff.mp h
    have hmore : ∀ r, c = '"' → cs ++ rest ≠ '"' :: '"' :: r := by
      intro r hc
      have hnext : TripleQuoted.readWith (fun c => [c]) cs = some (inner, []) :=
        TripleQuoted.readWith_of_read hinner
      exact TripleQuoted.not_quotes_append hnext (fun r heq => hrun r hc heq) rest r
    rw [List.cons_append, logicalLines, ih hinner, lead_lead, List.singleton_append]
    · exact fun r hc heq => hmore r hc heq
    · -- A backslash takes nothing only at the end, where no delimiter follows.
      intro d r _ hc
      cases cs with
      | nil => simp [TripleQuoted.read] at hinner
      | cons e cs => exact fun _ => hescape e cs hc rfl
    · simp

def IsLine (l : List Char) : Prop :=
  ∀ rest, logicalLines false (l ++ '\n' :: rest) = l :: logicalLines false rest

theorem isLine_nil : IsLine [] := fun _ => logicalLines_break

theorem IsLine.lead (h : IsBare words) (hl : IsLine l) : IsLine (words ++ l) := by
  intro rest
  rw [List.append_assoc, logicalLines_words h, hl, lead_cons]

theorem IsBare.isLine (h : IsBare words) : IsLine words := by
  simpa using IsLine.lead h isLine_nil

def KeepsToLine (l : List Char) : Prop := '\n' ∉ l ∧ ¬ ['"', '"', '"'] <:+: l

instance (l : List Char) : Decidable (KeepsToLine l) := inferInstanceAs (Decidable (_ ∧ _))

theorem KeepsToLine.isLine (h : KeepsToLine l) : IsLine l := by
  intro rest
  induction l with
  | nil => exact logicalLines_break
  | cons c l ih =>
    obtain ⟨hbreak, hquotes⟩ := h
    obtain ⟨hc, hl⟩ := not_or.mp (mt List.mem_cons.mpr hbreak)
    have ih := ih ⟨hl, fun hin => hquotes (hin.trans (List.infix_cons (List.infix_refl l)))⟩
    rw [List.cons_append]
    by_cases hquote : c = '"'
    · subst hquote
      have hnext : ∀ r, l ++ '\n' :: rest ≠ '"' :: '"' :: r := by
        intro r heq
        match l, heq with
        | [], heq => simp at heq
        | [d], heq => simp at heq
        | d :: e :: l, heq =>
          obtain ⟨rfl, htail⟩ := List.cons.inj heq
          obtain ⟨rfl, -⟩ := List.cons.inj htail
          exact hquotes ⟨[], l, rfl⟩
      rw [logicalLines_quote hnext, ih, lead_cons, List.singleton_append]
    · rw [logicalLines_plain hquote (Ne.symm hc), ih, lead_cons, List.singleton_append]

theorem isLine_docstring {before after : String} (hbefore : IsPlain before.toList)
    (hafter : IsPlain after.toList) (text : String) :
    IsLine (Source.docstring before text after).toList := by
  intro rest
  have hread := TripleQuoted.read_surrounded hbefore hafter text []
  have hsplit : (Source.docstring before text after).toList = ['"', '"', '"'] ++
      ((before ++ TripleQuoted.escape text ++ after ++ "\"\"\"").toList ++ []) := by
    simp [Source.docstring]
  rw [hsplit, List.append_assoc, List.cons_append, List.cons_append, List.singleton_append,
    logicalLines_quotes, Bool.not_false, logicalLines_of_read hread, lead_lead,
    logicalLines_break, lead_cons, List.append_nil]

section literals

open Quoted

theorem head?_escapeChar (c : Char) : ∃ d rest, escapeChar c = d :: rest ∧ d ≠ '"' := by
  rw [escapeChar]
  split
  · exact ⟨_, _, rfl, by decide⟩
  · split
    · exact ⟨_, _, rfl, by decide⟩
    · rename_i hnone _
      refine ⟨_, _, rfl, ?_⟩
      rintro rfl
      simp [shortEscapes] at hnone

theorem not_quotes_escaped (cs : List Char) {tail : List Char}
    (htail : ∀ rest, tail ≠ '"' :: '"' :: rest) :
    ∀ rest, cs.flatMap escapeChar ++ tail ≠ '"' :: '"' :: rest := by
  intro rest heq
  cases cs with
  | nil => exact htail rest heq
  | cons c cs =>
    obtain ⟨d, more, hd, hne⟩ := head?_escapeChar c
    rw [List.flatMap_cons, hd] at heq
    exact hne (List.cons.inj heq).1

theorem logicalLines_escapeChar {tail : List Char} (htail : ∀ rest, tail ≠ '"' :: '"' :: rest)
    (c : Char) :
    logicalLines false (escapeChar c ++ tail) = lead (escapeChar c) (logicalLines false tail) := by
  have hprintable : ∀ d ∈ escapeChar c, d ≠ '\n' := by
    rintro d hd rfl
    exact absurd (printable_escapeChar hd) (by decide)
  by_cases hquote : c = '"'
  · subst hquote
    have hescape : escapeChar '"' = ['\\', '"'] := by decide
    rw [hescape, List.cons_append, List.singleton_append,
      logicalLines_plain (by decide) (by decide), logicalLines_quote htail, lead_lead,
      List.singleton_append]
  · refine logicalLines_words (fun d hd => ⟨?_, hprintable d hd⟩) tail
    rintro rfl
    have hdigits : ∀ n < 16, hexDigit n ≠ '"' := by decide
    rw [escapeChar] at hd
    split at hd
    · rename_i letter hletter
      have hletters : ∀ e ∈ shortEscapes, e.2 = '"' → e.1 = '"' := by decide
      obtain ⟨before, after, hsplit, -⟩ := List.lookup_eq_some_iff.mp hletter
      obtain rfl : '"' = letter := by simpa using hd
      exact hquote (hletters (c, '"') (by rw [hsplit]; simp) rfl)
    · split at hd
      · have hhigh := hdigits (c.toNat / 16) (by omega)
        have hlow := hdigits (c.toNat % 16) (by omega)
        simp [Ne.symm hhigh, Ne.symm hlow] at hd
      · exact hquote (List.mem_singleton.mp hd).symm

theorem logicalLines_escaped (cs : List Char) {tail : List Char}
    (htail : ∀ rest, tail ≠ '"' :: '"' :: rest) :
    logicalLines false (cs.flatMap escapeChar ++ tail) =
      lead (cs.flatMap escapeChar) (logicalLines false tail) := by
  induction cs with
  | nil => exact lead_nil.symm
  | cons c cs ih =>
    rw [List.flatMap_cons, List.append_assoc,
      logicalLines_escapeChar (not_quotes_escaped cs htail), ih, lead_lead]

theorem IsLine.literal (hl : IsLine l) (hquote : l.head? ≠ some '"') (text : String) :
    IsLine ((Source.literal text).toList ++ l) := by
  intro rest
  have hliteral : (Source.literal text).toList =
      '"' :: (text.toList.flatMap escapeChar ++ ['"']) := String.toList_ofList
  have hbehind : ∀ r, l ++ '\n' :: rest ≠ '"' :: r := by
    intro r heq
    cases l with
    | nil => simp at heq
    | cons d l => exact hquote (congrArg some (List.cons.inj heq).1)
  have hclosing : ∀ r, '"' :: (l ++ '\n' :: rest) ≠ '"' :: '"' :: r :=
    fun r heq => hbehind r (List.cons.inj heq).2
  rw [hliteral, List.cons_append, List.append_assoc, List.cons_append, List.append_assoc,
    List.append_assoc, List.singleton_append, logicalLines_quote (not_quotes_escaped _ hclosing),
    logicalLines_escaped _ hclosing, logicalLines_quote (fun r heq => hbehind _ heq), hl,
    lead_cons, lead_cons, lead_cons]
  rfl

end literals

theorem logicalLines_ofLines {lines : List String} (h : ∀ l ∈ lines, IsLine l.toList)
    (tail : List Char) :
    logicalLines false ((Source.ofLines lines).toList ++ tail) =
      lines.map String.toList ++ logicalLines false tail := by
  induction lines with
  | nil => rfl
  | cons l lines ih =>
    obtain ⟨hl, hlines⟩ := List.forall_mem_cons.mp h
    have htext : (Source.ofLines (l :: lines)).toList ++ tail =
        l.toList ++ '\n' :: ((Source.ofLines lines).toList ++ tail) := by
      simp [Source.ofLines]
    rw [htext, hl, ih hlines, List.map_cons, List.cons_append]

theorem statements_ofLines {lines : List String} (h : ∀ l ∈ lines, IsLine l.toList) :
    statements (Source.ofLines lines) = lines ++ [""] := by
  have hlines := logicalLines_ofLines h []
  rw [List.append_nil] at hlines
  rw [statements, hlines]
  simp [logicalLines, Function.comp_def]

section margin

theorem tail_pieces_subset {p : Char → Bool} (h : l ∈ (pieces p cs).tail) :
    l ∈ (pieces p (c :: cs)).tail := by
  rw [pieces]
  split
  · exact List.mem_of_mem_tail h
  · cases hpieces : pieces p cs with
    | nil => simp [hpieces] at h
    | cons q qs => simpa [hpieces] using h

theorem exists_piece_of_head? (hd : d ≠ '\n') (h : cs.head? = some d) :
    ∃ piece ∈ pieces (· == '\n') cs, piece.head? = some d := by
  cases cs with
  | nil => simp at h
  | cons c cs =>
    obtain rfl : c = d := Option.some.inj h
    cases hpieces : pieces (· == '\n') cs with
    | nil => exact ⟨[c], by simp [pieces, hd, hpieces], rfl⟩
    | cons q qs => exact ⟨c :: q, by simp [pieces, hd, hpieces], rfl⟩

theorem head?_ne_of_mem_tail (hd : d ≠ '\n')
    (h : ∀ piece ∈ (pieces (· == '\n') cs).tail, piece.head? ≠ some d) (quoted : Bool) :
    ∀ l ∈ (logicalLines quoted cs).tail, l.head? ≠ some d := by
  have hsub : ∀ {c : Char} {cs : List Char},
      (∀ piece ∈ (pieces (· == '\n') (c :: cs)).tail, piece.head? ≠ some d) →
        ∀ piece ∈ (pieces (· == '\n') cs).tail, piece.head? ≠ some d :=
    fun h piece hpiece => h piece (tail_pieces_subset hpiece)
  induction quoted, cs using logicalLines.induct with
  | case1 => simp [logicalLines]
  | case2 quoted rest ih =>
    rw [logicalLines_quotes, tail_lead]
    exact ih (hsub (hsub (hsub h)))
  | case3 c rest ih =>
    rw [logicalLines, tail_lead]
    exact ih (hsub (hsub h))
  | case4 rest ih =>
    have hpieces : ∀ piece ∈ pieces (· == '\n') rest, piece.head? ≠ some d := by
      simpa [pieces] using h
    rw [logicalLines_break, List.tail_cons]
    obtain ⟨first, more, hlines, hfirst⟩ := exists_logicalLines false rest
    have hmore := ih (hsub h)
    rw [hlines] at hmore ⊢
    refine List.forall_mem_cons.mpr ⟨fun hhead => ?_, hmore⟩
    obtain rfl | hfirst := hfirst
    · simp at hhead
    · obtain ⟨piece, hpiece, hstart⟩ := exists_piece_of_head? hd (hfirst.symm.trans hhead)
      exact hpieces piece hpiece hstart
  | case5 quoted c rest hquotes hescape hbreak ih =>
    rw [logicalLines, tail_lead]
    · exact ih (hsub h)
    · exact hquotes
    · exact hescape
    · exact hbreak

theorem head?_ne_of_mem (hd : d ≠ '\n')
    (h : ∀ piece ∈ pieces (· == '\n') cs, piece.head? ≠ some d) :
    ∀ l ∈ logicalLines false cs, l.head? ≠ some d := by
  have htail : ∀ piece ∈ (pieces (· == '\n') ('\n' :: cs)).tail, piece.head? ≠ some d := by
    simpa [pieces] using h
  have hlines := head?_ne_of_mem_tail hd htail false
  rwa [logicalLines_break] at hlines

end margin

end AgentAssembly.Text
