import AgentAssembly.Package.Source
import AgentAssembly.Proofs.Text.Pieces

/-!
Readers of text. A reader takes a value from the front of a text and gives what follows it, or
refuses the text. One that takes exactly what is written for a value does so whatever stands behind
it, and therefore what is written piece by piece is read piece by piece.
-/

namespace AgentAssembly

abbrev Reader (α : Type) := StateT (List Char) Option α

variable {α β : Type} {r : Reader α} {f : α → Reader β} {s t : String} {a : α} {b : β}

namespace Reader

def run (r : Reader α) (text : String) : Option α :=
  match r text.toList with
  | some (a, []) => some a
  | _ => none

def skip (fixed : String) : Reader Unit := fun cs =>
  (fixed.toList.isPrefixOf? cs).map fun rest => ((), rest)

def ofChars (read : List Char → Option (List Char × List Char)) : Reader String := fun cs =>
  (read cs).map fun p => (String.ofList p.1, p.2)

def charsUpTo (stop : Char) : List Char → Option (List Char × List Char)
  | [] => none
  | c :: rest =>
    if c = stop then some ([], rest)
    else (charsUpTo stop rest).map fun (text, after) => (c :: text, after)

def upTo (stop : Char) : Reader String := ofChars (charsUpTo stop)

/-- The lines up to an empty one. `line` is what was read of the current line. -/
def linesFrom (line : List Char) : List Char → Option (List String × List Char)
  | [] => none
  | '\n' :: rest =>
    if line = [] then some ([], rest)
    else (linesFrom [] rest).map fun (ls, after) => (String.ofList line :: ls, after)
  | c :: rest => linesFrom (line ++ [c]) rest

def paragraph : Reader (List String) := linesFrom []

def splitNames (inside : String) : List String :=
  if inside = "" then []
  else (Text.pieces (· == ',') (inside.toList.filter (· ≠ ' '))).map String.ofList

def names : Reader (List String) := do
  skip "["
  return splitNames (← upTo ']')

theorem bind_eq_none {cs : List Char} (h : r cs = none) (f : α → Reader β) :
    (r >>= f) cs = none := by
  show (r cs).bind (fun p => f p.1 p.2) = none
  rw [h, Option.bind_none]

theorem charsUpTo_append {stop : Char} {cs : List Char} (h : stop ∉ cs) (rest : List Char) :
    charsUpTo stop (cs ++ stop :: rest) = some (cs, rest) := by
  induction cs with
  | nil => simp [charsUpTo]
  | cons c cs ih =>
    obtain ⟨hc, hcs⟩ := not_or.mp (mt List.mem_cons.mpr h)
    rw [List.cons_append, charsUpTo, if_neg (Ne.symm hc), ih hcs, Option.map_some]

theorem linesFrom_append {line cs : List Char} (h : '\n' ∉ cs) (rest : List Char) :
    linesFrom line (cs ++ rest) = linesFrom (line ++ cs) rest := by
  induction cs generalizing line with
  | nil => simp
  | cons c cs ih =>
    obtain ⟨hc, hcs⟩ := not_or.mp (mt List.mem_cons.mpr h)
    rw [List.cons_append, linesFrom, ih hcs, List.append_assoc, List.singleton_append]
    exact fun heq => hc heq.symm

theorem paragraph_line {line : String} (hne : line ≠ "") (h : '\n' ∉ line.toList)
    (rest : List Char) :
    paragraph (line.toList ++ '\n' :: rest) = (paragraph rest).map fun p => (line :: p.1, p.2) := by
  rw [paragraph, linesFrom_append h, List.nil_append, linesFrom, if_neg (by simpa using hne),
    String.ofList_toList]

theorem mem_commaList {ns : List String} {c : Char} (h : c ∈ (Source.commaList ns).toList) :
    c = ',' ∨ c = ' ' ∨ ∃ n ∈ ns, c ∈ n.toList := by
  induction ns with
  | nil => simp [Source.commaList] at h
  | cons n ns ih =>
    cases ns with
    | nil => exact .inr (.inr ⟨n, List.mem_cons_self, by simpa [Source.commaList] using h⟩)
    | cons m ns =>
      have hparts : c ∈ n.toList ∨ (c = ',' ∨ c = ' ') ∨
          c ∈ (Source.commaList (m :: ns)).toList := by
        simpa [Source.commaList, String.intercalate_cons_cons, or_assoc] using h
      obtain hn | (hcomma | hspace) | hrest := hparts
      · exact .inr (.inr ⟨n, List.mem_cons_self, hn⟩)
      · exact .inl hcomma
      · exact .inr (.inl hspace)
      · refine (ih hrest).imp_right (.imp_right ?_)
        exact fun ⟨m', hm', hc⟩ => ⟨m', List.mem_cons_of_mem n hm', hc⟩

theorem filter_spaces {l : List (List Char)} (h : ∀ name ∈ l, ' ' ∉ name) :
    ([',', ' '].intercalate l).filter (· ≠ ' ') = [','].intercalate l := by
  have hkept : ∀ name ∈ l, name.filter (· ≠ ' ') = name := by
    intro name hname
    refine List.filter_eq_self.mpr fun c hc => ?_
    have hspace : c ≠ ' ' := fun heq => h name hname (heq ▸ hc)
    simpa using hspace
  induction l with
  | nil => rfl
  | cons name l ih =>
    have ih := ih (fun n hn => h n (List.mem_cons_of_mem name hn))
      fun n hn => hkept n (List.mem_cons_of_mem name hn)
    cases l with
    | nil => simpa using hkept name List.mem_cons_self
    | cons next l =>
      rw [List.intercalate_cons_cons, List.intercalate_cons_cons, List.filter_append,
        List.filter_append, hkept name List.mem_cons_self, ih]
      rfl

theorem splitNames_commaList {ns : List String}
    (h : ∀ n ∈ ns, n ≠ "" ∧ ',' ∉ n.toList ∧ ' ' ∉ n.toList) :
    splitNames (Source.commaList ns) = ns := by
  cases ns with
  | nil => rfl
  | cons n rest =>
    obtain ⟨hne, -, -⟩ := h n List.mem_cons_self
    have hwritten : Source.commaList (n :: rest) ≠ "" := by
      cases rest with
      | nil => simpa [Source.commaList] using hne
      | cons m rest => simp [Source.commaList, String.intercalate_cons_cons, hne]
    have hspaces : ∀ name ∈ (n :: rest).map String.toList, ' ' ∉ name := by
      intro name hname
      obtain ⟨m, hm, rfl⟩ := List.mem_map.mp hname
      exact (h m hm).2.2
    have hcommas : ∀ name ∈ (n :: rest).map String.toList, ∀ c ∈ name, (c == ',') = false := by
      intro name hname c hc
      obtain ⟨m, hm, rfl⟩ := List.mem_map.mp hname
      exact beq_false_of_ne fun heq => (h m hm).2.1 (heq ▸ hc)
    have hchars : ", ".toList = [',', ' '] := rfl
    rw [splitNames, if_neg hwritten, Source.commaList, String.toList_intercalate, hchars,
      filter_spaces hspaces, Text.pieces_intercalate (by simp) (by simp) hcommas, List.map_map]
    simp

end Reader

def Reads (r : Reader α) (text : String) (a : α) : Prop :=
  ∀ rest, r (text.toList ++ rest) = some (a, rest)

namespace Reads

theorem run (hr : Reads r s a) : r.run s = some a := by
  have hread := hr []
  rw [List.append_nil] at hread
  rw [Reader.run, hread]

theorem bind (hr : Reads r s a) (hf : Reads (f a) t b) : Reads (r >>= f) (s ++ t) b := by
  intro rest
  show (r ((s ++ t).toList ++ rest)).bind (fun p => f p.1 p.2) = some (b, rest)
  rw [String.toList_append, List.append_assoc, hr, Option.bind_some, hf]

theorem map {g : α → β} (hr : Reads r s a) : Reads (r >>= fun x => pure (g x)) s (g a) := by
  intro rest
  show (r (s.toList ++ rest)).bind (fun p => some (g p.1, p.2)) = some (g a, rest)
  rw [hr, Option.bind_some]

theorem orElse (hr : Reads r s a) (other : Reader α) : Reads (r <|> other) s a := by
  intro rest
  show (r (s.toList ++ rest)).orElse (fun _ => other (s.toList ++ rest)) = some (a, rest)
  rw [hr, Option.orElse_some]

theorem orElse_of_refused {other : Reader α} (hr : Reads r s a)
    (hother : ∀ rest, other (s.toList ++ rest) = none) : Reads (other <|> r) s a := by
  intro rest
  show (other (s.toList ++ rest)).orElse (fun _ => r (s.toList ++ rest)) = some (a, rest)
  rw [hother, Option.orElse_none, hr]

theorem skip (fixed : String) : Reads (Reader.skip fixed) fixed () := by
  intro rest
  have hprefix : fixed.toList.isPrefixOf? (fixed.toList ++ rest) = some rest :=
    List.isPrefixOf?_eq_some_iff_append_eq.mpr rfl
  rw [Reader.skip, hprefix, Option.map_some]

theorem ofChars {read : List Char → Option (List Char × List Char)}
    (h : ∀ rest, read (s.toList ++ rest) = some (t.toList, rest)) :
    Reads (Reader.ofChars read) s t := by
  intro rest
  rw [Reader.ofChars, h, Option.map_some, String.ofList_toList]

theorem upTo {stop : Char} (h : stop ∉ s.toList) :
    Reads (Reader.upTo stop) (s ++ String.singleton stop) s := by
  refine ofChars fun rest => ?_
  rw [String.toList_append, String.toList_singleton, List.append_assoc, List.singleton_append,
    Reader.charsUpTo_append h]

theorem paragraph {ls : List String} (h : ∀ l ∈ ls, l ≠ "" ∧ '\n' ∉ l.toList) :
    Reads Reader.paragraph (Source.ofLines ls ++ "\n") ls := by
  intro rest
  induction ls with
  | nil => rfl
  | cons l ls ih =>
    obtain ⟨hne, hline⟩ := h l List.mem_cons_self
    have hread := Reader.paragraph_line hne hline ((Source.ofLines ls ++ "\n").toList ++ rest)
    rw [ih fun l' hl' => h l' (List.mem_cons_of_mem l hl'), Option.map_some] at hread
    simpa [Source.ofLines] using hread

/-- A list of names between brackets is read if no name holds a character that stands between or
around them. -/
theorem names {ns : List String}
    (h : ∀ n ∈ ns, n ≠ "" ∧ ∀ c ∈ n.toList, c ≠ ',' ∧ c ≠ ' ' ∧ c ≠ ']') :
    Reads Reader.names ("[" ++ (Source.commaList ns ++ "]")) ns := by
  have hbracket : ']' ∉ (Source.commaList ns).toList := by
    intro hmem
    obtain hc | hc | ⟨n, hn, hc⟩ := Reader.mem_commaList hmem
    · exact absurd hc (by decide)
    · exact absurd hc (by decide)
    · exact ((h n hn).2 ']' hc).2.2 rfl
  have hsplit : Reader.splitNames (Source.commaList ns) = ns := by
    refine Reader.splitNames_commaList fun n hn => ⟨(h n hn).1, fun hc => ?_, fun hc => ?_⟩
    · exact ((h n hn).2 ',' hc).1 rfl
    · exact ((h n hn).2 ' ' hc).2.1 rfl
  have hread : Reads (do return Reader.splitNames (← Reader.upTo ']'))
      (Source.commaList ns ++ "]") (Reader.splitNames (Source.commaList ns)) := (upTo hbracket).map
  rw [hsplit] at hread
  exact (skip "[").bind hread

end Reads
end AgentAssembly
