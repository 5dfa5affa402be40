import Mathlib.Data.List.TakeWhile
import AgentAssembly.Proofs.Text.Pieces

/-!
Indentation as source text is read. A text is cut into lines at line feeds when it is moved right,
while a reader of source text also ends a line at a carriage return alone. Main statement: the lines
that a reader finds in the moved text are those of the text, moved, except that a line behind a
carriage return alone stays where it is.
-/

namespace AgentAssembly.Text

structure SourceLine where
  /-- It stands behind a carriage return that no line feed follows. -/
  behindReturn : Bool
  chars : List Char
deriving DecidableEq

namespace SourceLine

def isBlank (l : SourceLine) : Bool := l.chars.all isBlankChar

def atMargin (l : SourceLine) : Bool := l.chars.head?.any fun c => c != ' ' && c != '\t'

def prepend (front : List Char) (l : SourceLine) : SourceLine :=
  { l with chars := front ++ l.chars }

def moved (width : Nat) (l : SourceLine) : SourceLine :=
  if l.behindReturn then l else l.prepend (List.replicate width ' ')

theorem isBlank_moved (width : Nat) (l : SourceLine) : (l.moved width).isBlank = l.isBlank := by
  have hspaces : (List.replicate width ' ').all isBlankChar = true := by
    simp only [List.all_eq_true, List.mem_replicate]
    rintro c ⟨-, rfl⟩
    decide
  rw [moved]
  split
  · rfl
  · rw [isBlank, prepend, List.all_append, hspaces, Bool.true_and, isBlank]

theorem atMargin_moved {width : Nat} (h : 0 < width) (l : SourceLine) :
    (l.moved width).atMargin = (l.behindReturn && l.atMargin) := by
  cases width with
  | zero => omega
  | succ n => cases hbehind : l.behindReturn <;>
      simp [moved, prepend, atMargin, List.replicate_succ, hbehind]

end SourceLine

/-- Cuts a text into lines as source text is read: a line ends at a line feed, at a carriage return,
or at a line feed right behind a carriage return. The flag is that of the first line. -/
def sourceLines (behind : Bool) : List Char → List SourceLine
  | [] => [⟨behind, []⟩]
  | '\r' :: '\n' :: cs => ⟨behind, []⟩ :: sourceLines false cs
  | c :: cs =>
    if isLineBreak c then ⟨behind, []⟩ :: sourceLines (c == '\r') cs
    else (sourceLines behind cs).modifyHead (.prepend [c])

def nonblank (ls : List SourceLine) : List SourceLine := ls.filter (!·.isBlank)

/-- Cuts a text at every line feed and every carriage return, so that a line feed behind a carriage
return ends an empty line of its own. -/
def brokenLines (behind : Bool) : List Char → List SourceLine
  | [] => [⟨behind, []⟩]
  | c :: cs =>
    if isLineBreak c then ⟨behind, []⟩ :: brokenLines (c == '\r') cs
    else (brokenLines behind cs).modifyHead (.prepend [c])

variable {behind : Bool} {c : Char} {cs ds : List Char} {width : Nat}

theorem nonblank_append (ls ms : List SourceLine) :
    nonblank (ls ++ ms) = nonblank ls ++ nonblank ms := List.filter_append ..

theorem nonblank_map_moved (ls : List SourceLine) :
    nonblank (ls.map (.moved width)) = (nonblank ls).map (.moved width) := by
  rw [nonblank, List.filter_map, nonblank]
  refine congrArg _ (List.filter_congr fun l _ => ?_)
  rw [Function.comp_apply, SourceLine.isBlank_moved]

section broken

/-- The first line has the flag that is given; all behind it, where no line feed is, stand behind a
carriage return. -/
theorem exists_brokenLines (behind : Bool) (cs : List Char) :
    ∃ chars rest, brokenLines behind cs = ⟨behind, chars⟩ :: rest ∧
      ('\n' ∉ cs → ∀ l ∈ rest, l.behindReturn = true) := by
  induction cs generalizing behind with
  | nil => exact ⟨[], [], rfl, by simp⟩
  | cons c cs ih =>
    cases hc : isLineBreak c with
    | true =>
      obtain ⟨chars, rest, hlines, hrest⟩ := ih (c == '\r')
      refine ⟨[], _, by rw [brokenLines, if_pos hc, hlines], fun hfeed => ?_⟩
      obtain ⟨hne, hcs⟩ : '\n' ≠ c ∧ '\n' ∉ cs := by simpa using hfeed
      obtain rfl : c = '\r' := by simpa [isLineBreak, Ne.symm hne] using hc
      exact List.forall_mem_cons.mpr ⟨rfl, hrest hcs⟩
    | false =>
      obtain ⟨chars, rest, hlines, hrest⟩ := ih behind
      refine ⟨c :: chars, rest, ?_, fun hfeed => hrest (List.not_mem_of_not_mem_cons hfeed)⟩
      simp [brokenLines, hc, hlines, SourceLine.prepend]

theorem brokenLines_append_cons (hc : isLineBreak c = true) :
    brokenLines behind (cs ++ c :: ds) = brokenLines behind cs ++ brokenLines (c == '\r') ds := by
  induction cs generalizing behind with
  | nil => simp [brokenLines, hc]
  | cons d cs ih =>
    cases hd : isLineBreak d with
    | true => simp [brokenLines, hd, ih]
    | false =>
      obtain ⟨chars, rest, hlines, -⟩ := exists_brokenLines behind cs
      simp [brokenLines, hd, ih, hlines]

theorem brokenLines_append (h : ∀ c ∈ cs, isLineBreak c = false) :
    brokenLines behind (cs ++ ds) = (brokenLines behind ds).modifyHead (.prepend cs) := by
  obtain ⟨chars, rest, hlines, -⟩ := exists_brokenLines behind ds
  induction cs with
  | nil => simp [hlines, SourceLine.prepend]
  | cons c cs ih =>
    have hc : isLineBreak c = false := h c List.mem_cons_self
    simp [brokenLines, hc, ih fun d hd => h d (List.mem_cons_of_mem c hd), hlines,
      SourceLine.prepend]

theorem of_mem_brokenLines {l : SourceLine} (h : l ∈ brokenLines behind cs) : l.chars ⊆ cs := by
  induction cs generalizing behind l with
  | nil => simp_all [brokenLines]
  | cons c cs ih =>
    cases hc : isLineBreak c with
    | true =>
      obtain rfl | h := by simpa [brokenLines, hc] using h
      · simp
      · exact List.subset_cons_of_subset c (ih h)
    | false =>
      obtain ⟨chars, rest, hlines, -⟩ := exists_brokenLines behind cs
      have ih : ∀ m ∈ ⟨behind, chars⟩ :: rest, m.chars ⊆ cs := fun m hm => ih (hlines ▸ hm)
      obtain rfl | h := by simpa [brokenLines, hc, hlines] using h
      · exact List.cons_subset_cons c (ih _ List.mem_cons_self)
      · exact List.subset_cons_of_subset c (ih l (List.mem_cons_of_mem _ h))

theorem nonblank_brokenLines_eq_nil (h : ∀ c ∈ cs, isBlankChar c = true) :
    nonblank (brokenLines behind cs) = [] := by
  rw [nonblank, List.filter_eq_nil_iff]
  intro l hl
  simpa [SourceLine.isBlank] using fun c hc => h c (of_mem_brokenLines hl hc)

theorem isBlankChar_of_isLineBreak (h : isLineBreak c = true) : isBlankChar c = true := by
  obtain rfl | rfl : c = '\n' ∨ c = '\r' := by simpa [isLineBreak] using h
  · decide
  · decide

theorem nonblank_brokenLines_append (h : ∀ c ∈ ds, isLineBreak c = true) :
    nonblank (brokenLines behind (cs ++ ds)) = nonblank (brokenLines behind cs) := by
  cases ds with
  | nil => rw [List.append_nil]
  | cons c ds =>
    have hblank : ∀ d ∈ ds, isBlankChar d = true := fun d hd =>
      isBlankChar_of_isLineBreak (h d (List.mem_cons_of_mem c hd))
    rw [brokenLines_append_cons (h c List.mem_cons_self), nonblank_append,
      nonblank_brokenLines_eq_nil hblank, List.append_nil]

/-- A line feed behind a carriage return ends an empty line or the line before it; no other line is
cut differently. -/
theorem exists_sourceLines (behind : Bool) (cs : List Char) :
    ∃ l rest rest', sourceLines behind cs = l :: rest ∧ brokenLines behind cs = l :: rest' ∧
      nonblank rest = nonblank rest' := by
  induction behind, cs using sourceLines.induct with
  | case1 behind => exact ⟨_, [], [], rfl, rfl, rfl⟩
  | case2 behind cs ih =>
    obtain ⟨l, rest, rest', hsource, hbroken, hrest⟩ := ih
    refine ⟨⟨behind, []⟩, l :: rest, ⟨true, []⟩ :: l :: rest', ?_, ?_, ?_⟩
    · rw [sourceLines, hsource]
    · simp [brokenLines, isLineBreak, hbroken]
    · simp_all [nonblank, SourceLine.isBlank, List.filter_cons]
  | case3 behind c cs hnot hc ih =>
    obtain ⟨l, rest, rest', hsource, hbroken, hrest⟩ := ih
    refine ⟨⟨behind, []⟩, l :: rest, l :: rest', ?_, ?_, ?_⟩
    · rw [sourceLines, if_pos hc, hsource]
      exact hnot
    · rw [brokenLines, if_pos hc, hbroken]
    · simp_all [nonblank, List.filter_cons]
  | case4 behind c cs hnot hc ih =>
    obtain ⟨l, rest, rest', hsource, hbroken, hrest⟩ := ih
    refine ⟨l.prepend [c], rest, rest', ?_, ?_, hrest⟩
    · rw [sourceLines, if_neg hc, hsource]
      · rfl
      · exact hnot
    · rw [brokenLines, if_neg hc, hbroken]
      rfl

theorem nonblank_sourceLines (behind : Bool) (cs : List Char) :
    nonblank (sourceLines behind cs) = nonblank (brokenLines behind cs) := by
  obtain ⟨l, rest, rest', hsource, hbroken, hrest⟩ := exists_sourceLines behind cs
  rw [hsource, hbroken, nonblank, nonblank, List.filter_cons, List.filter_cons]
  exact congrArg (fun ls => if (!l.isBlank) = true then l :: ls else ls) hrest

end broken

section indented

theorem exists_dropEndWhile (p : Char → Bool) (cs : List Char) :
    ∃ tail, cs = dropEndWhile p cs ++ tail ∧ ∀ c ∈ tail, p c = true := by
  refine ⟨(cs.reverse.takeWhile p).reverse, ?_, fun c hc => ?_⟩
  · rw [dropEndWhile, ← List.reverse_append, List.takeWhile_append_dropWhile, List.reverse_reverse]
  · exact List.mem_takeWhile_imp (List.mem_reverse.mp hc)

theorem mem_of_mem_dropReturn (h : c ∈ dropReturn cs) : c ∈ cs := by
  rw [dropReturn] at h
  split at h
  · exact List.dropLast_subset cs h
  · exact h

theorem nonblank_dropReturn (cs : List Char) :
    nonblank (brokenLines behind (dropReturn cs)) = nonblank (brokenLines behind cs) := by
  rw [dropReturn]
  split
  · rename_i hlast
    obtain ⟨front, rfl⟩ := List.getLast?_eq_some_iff.mp hlast
    rw [List.dropLast_concat]
    exact (nonblank_brokenLines_append (by simp [isLineBreak])).symm
  · rfl

/-- A line as it is cut for moving: its first part moves, and what stands behind its carriage
returns does not. -/
theorem nonblank_indentLine (h : '\n' ∉ cs) :
    nonblank (brokenLines false (indentLine width cs)) =
      (nonblank (brokenLines false cs)).map (.moved width) := by
  rw [indentLine]
  split
  · rename_i hblank
    rw [nonblank_brokenLines_eq_nil (List.all_eq_true.mp hblank)]
    rfl
  · have hspaces : ∀ c ∈ List.replicate width ' ', isLineBreak c = false := by
      intro c hc
      rw [(List.mem_replicate.mp hc).2]
      decide
    obtain ⟨chars, rest, hlines, hrest⟩ := exists_brokenLines false cs
    have hstay : rest.map (.moved width) = rest := by
      refine (List.map_congr_left fun l hl => ?_).trans (List.map_id rest)
      rw [SourceLine.moved, if_pos (hrest h l hl), id]
    rw [← nonblank_map_moved, brokenLines_append hspaces, hlines, List.map_cons, hstay]
    rfl

theorem nonblank_intercalate (ls : List (List Char)) :
    nonblank (brokenLines false (['\n'].intercalate ls)) =
      ls.flatMap fun l => nonblank (brokenLines false l) := by
  induction ls with
  | nil => rfl
  | cons a rest ih =>
    cases rest with
    | nil => simp
    | cons b rest =>
      rw [List.intercalate_cons_cons, List.append_assoc, List.singleton_append,
        brokenLines_append_cons rfl, nonblank_append, List.flatMap_cons, ← ih]
      rfl

theorem feed_not_mem_line {line : List Char} (h : line ∈ lines cs) : '\n' ∉ line := by
  obtain ⟨piece, hpiece, rfl⟩ := List.mem_map.mp h
  intro hmem
  exact absurd (of_mem_pieces hpiece (mem_of_mem_dropReturn hmem)).2 (by simp)

theorem pieces_indentLines (width : Nat) (text : String) :
    pieces (· == '\n') (indentLines width text).toList =
      (lines (dropEndWhile isLineBreak text.toList)).map (indentLine width) := by
  rw [indentLines, String.toList_ofList]
  refine pieces_intercalate ?_ rfl fun piece hpiece d hd => ?_
  · simp [lines, pieces_ne_nil]
  · obtain ⟨line, hline, rfl⟩ := List.mem_map.mp hpiece
    have hfeed := feed_not_mem_line hline
    have hne : d ≠ '\n' := by
      rintro rfl
      rw [indentLine] at hd
      split at hd
      · simp at hd
      · simp [hfeed] at hd
    simpa using hne

/-- The lines of a text that is moved right: those of the text itself, moved, but for the lines
behind a carriage return alone. -/
theorem nonblank_indentLines (width : Nat) (text : String) :
    nonblank (sourceLines false (indentLines width text).toList) =
      (nonblank (sourceLines false text.toList)).map (.moved width) := by
  obtain ⟨tail, htext, htail⟩ := exists_dropEndWhile isLineBreak text.toList
  have hbody : nonblank (sourceLines false text.toList) =
      nonblank (brokenLines false (dropEndWhile isLineBreak text.toList)) := by
    rw [nonblank_sourceLines, htext, nonblank_brokenLines_append htail, ← htext]
  rw [hbody, nonblank_sourceLines, indentLines, String.toList_ofList, lines]
  generalize dropEndWhile isLineBreak text.toList = body
  have hfeed : ∀ piece ∈ pieces (· == '\n') body, '\n' ∉ dropReturn piece :=
    fun piece hpiece => feed_not_mem_line (List.mem_map_of_mem hpiece)
  calc nonblank (brokenLines false (['\n'].intercalate
        (((pieces (· == '\n') body).map dropReturn).map (indentLine width))))
    _ = (pieces (· == '\n') body).flatMap fun piece =>
          nonblank (brokenLines false (indentLine width (dropReturn piece))) := by
      rw [nonblank_intercalate, List.flatMap_map, List.flatMap_map]
    _ = (pieces (· == '\n') body).flatMap fun piece =>
          (nonblank (brokenLines false piece)).map (.moved width) := by
      refine List.flatMap_congr fun piece hpiece => ?_
      rw [nonblank_indentLine (hfeed piece hpiece), nonblank_dropReturn]
    _ = (nonblank (brokenLines false body)).map (.moved width) := by
      rw [← List.map_flatMap, ← nonblank_intercalate, intercalate_pieces (by simp)]

/-- A text is moved as far as asked exactly when its lines behind a carriage return alone stand
there already. -/
theorem forall_indented_iff {text : String} :
    (∀ l ∈ nonblank (sourceLines false (indentLines width text).toList),
      List.replicate width ' ' <+: l.chars) ↔
    ∀ l ∈ nonblank (sourceLines false text.toList),
      l.behindReturn = true → List.replicate width ' ' <+: l.chars := by
  rw [nonblank_indentLines, List.forall_mem_map]
  refine forall₂_congr fun l _ => ?_
  rw [SourceLine.moved]
  cases l.behindReturn with
  | true => simp
  | false => simp [SourceLine.prepend]

theorem exists_atMargin_iff (h : 0 < width) (ls : List SourceLine) :
    (∃ l ∈ ls.map (SourceLine.moved width), l.atMargin = true) ↔
      ∃ l ∈ ls, l.behindReturn = true ∧ l.atMargin = true := by
  simp only [List.mem_map, exists_exists_and_eq_and, SourceLine.atMargin_moved h,
    Bool.and_eq_true]

theorem nonblank_between (text : String) :
    nonblank (sourceLines false ("\n" ++ text ++ "\n").toList) =
      nonblank (sourceLines false text.toList) := by
  have htext : ("\n" ++ text ++ "\n").toList = [] ++ '\n' :: (text.toList ++ ['\n']) := by
    rw [String.toList_append, String.toList_append, List.append_assoc]
    rfl
  have hend : ∀ c ∈ ['\n'], isLineBreak c = true := by simp [isLineBreak]
  rw [nonblank_sourceLines, nonblank_sourceLines, htext, brokenLines_append_cons rfl,
    nonblank_append, nonblank_brokenLines_append hend]
  rfl

end indented

end AgentAssembly.Text
