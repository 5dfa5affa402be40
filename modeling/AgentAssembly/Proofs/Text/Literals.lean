import Mathlib.Data.List.Induction
import AgentAssembly.Proofs.Text.Reader

/-!
Literals read back. Between triple quotes and between double quotes alike, reading undoes the
escapes of a text and goes on behind it, whatever stands there.
-/

namespace AgentAssembly

namespace Text

def precede (cs : List Char) (reading : Option (List Char × List Char)) :
    Option (List Char × List Char) :=
  reading.map fun p => (cs ++ p.1, p.2)

variable {b c : Char} {cs ds tail : List Char} {reading : Option (List Char × List Char)}

theorem precede_nil : precede [] reading = reading := by
  cases reading <;> rfl

theorem precede_precede : precede cs (precede ds reading) = precede (cs ++ ds) reading := by
  cases reading <;> simp [precede]

def IsPlain (words : List Char) : Prop := ∀ c ∈ words, c ≠ '"' ∧ c ≠ '\\'

instance (words : List Char) : Decidable (IsPlain words) := List.decidableBAll _ words

namespace TripleQuoted

theorem read_backslash : read ('\\' :: '\\' :: cs) = precede ['\\'] (read cs) := by
  simp [read, precede]

theorem read_escapedQuote : read ('\\' :: '"' :: cs) = precede ['"'] (read cs) := by
  simp [read, precede]

theorem read_quote (h : ∀ rest, cs ≠ '"' :: '"' :: rest) :
    read ('"' :: cs) = precede ['"'] (read cs) := by
  rw [read]
  · rfl
  · exact fun rest _ heq => h rest heq
  · simp

theorem read_plain (hquote : c ≠ '"') (hslash : c ≠ '\\') :
    read (c :: cs) = precede [c] (read cs) := by
  rw [read]
  · rfl
  · exact fun rest heq _ => hquote heq
  · exact fun d rest heq _ => hslash heq

theorem escapeRuns_plain (h : c ≠ '"') : escapeRuns (c :: cs) = c :: escapeRuns cs := by
  rw [escapeRuns]
  exact fun rest heq _ => h heq

theorem escapeRuns_quote (h : ∀ rest, cs ≠ '"' :: '"' :: rest) :
    escapeRuns ('"' :: cs) = '"' :: escapeRuns cs := by
  rw [escapeRuns]
  exact fun rest _ heq => h rest heq

theorem doubleBackslashes_backslash :
    doubleBackslashes ('\\' :: cs) = '\\' :: '\\' :: doubleBackslashes cs := rfl

theorem doubleBackslashes_plain (h : c ≠ '\\') :
    doubleBackslashes (c :: cs) = c :: doubleBackslashes cs := by
  simp [doubleBackslashes, h]

theorem doubleBackslashes_cons (c : Char) (cs : List Char) :
    ∃ more, doubleBackslashes (c :: cs) = c :: more := by
  by_cases h : c = '\\'
  · exact ⟨_, h ▸ doubleBackslashes_backslash⟩
  · exact ⟨_, doubleBackslashes_plain h⟩

/-- Where a text does not start with two quotes, what is written for it does not either: a single
quote at its front stands before some other character. -/
theorem not_quotes_of_not_quotes (tail : List Char) (hrun : ∀ rest, cs ≠ '"' :: '"' :: rest)
    (hne : cs ≠ []) (hlast : cs.getLast? ≠ some '"') :
    (∀ rest, doubleBackslashes cs ≠ '"' :: '"' :: rest) ∧
      ∀ rest, escapeRuns (doubleBackslashes cs) ++ tail ≠ '"' :: '"' :: rest := by
  cases cs with
  | nil => exact absurd rfl hne
  | cons c cs =>
    by_cases hc : c = '"'
    · subst hc
      cases cs with
      | nil => simp at hlast
      | cons d ds =>
        have hd : d ≠ '"' := fun heq => hrun ds (heq ▸ rfl)
        obtain ⟨more, hmore⟩ := doubleBackslashes_cons d ds
        have hwritten : escapeRuns ('"' :: d :: more) = '"' :: d :: escapeRuns more := by
          rw [escapeRuns_quote (by simp [hd]), escapeRuns_plain hd]
        rw [doubleBackslashes_plain (by decide), hmore, hwritten]
        simp [hd]
    · obtain ⟨more, hmore⟩ := doubleBackslashes_cons c cs
      rw [hmore, escapeRuns_plain hc]
      simp [hc]

theorem read_escapeRuns (cs tail : List Char) (hlast : cs.getLast? ≠ some '"') :
    read (escapeRuns (doubleBackslashes cs) ++ tail) = precede cs (read tail) := by
  -- Doubling leaves the quotes where they are, so the runs of the text itself tell the cases apart.
  induction cs using escapeRuns.induct with
  | case1 rest ih =>
    have hrest : rest.getLast? ≠ some '"' := by
      cases rest with
      | nil => simp at hlast
      | cons c rest => simpa using hlast
    have hwritten : escapeRuns (doubleBackslashes ('"' :: '"' :: '"' :: rest)) =
        '\\' :: '"' :: '\\' :: '"' :: '\\' :: '"' :: escapeRuns (doubleBackslashes rest) := rfl
    simp only [hwritten, List.cons_append, read_escapedQuote, ih hrest, precede_precede,
      List.nil_append]
  | case2 c rest hrun ih =>
    have hrest : rest.getLast? ≠ some '"' := by
      cases rest with
      | nil => simp
      | cons d rest => simpa using hlast
    by_cases hslash : c = '\\'
    · rw [hslash, doubleBackslashes_backslash, escapeRuns_plain (by decide),
        escapeRuns_plain (by decide), List.cons_append, List.cons_append, read_backslash, ih hrest,
        precede_precede, List.singleton_append]
    by_cases hquote : c = '"'
    · subst hquote
      have hne : rest ≠ [] := fun hnil => hlast (hnil ▸ rfl)
      obtain ⟨hdoubled, hescaped⟩ :=
        not_quotes_of_not_quotes tail (fun more => hrun more rfl) hne hrest
      rw [doubleBackslashes_plain (by decide), escapeRuns_quote hdoubled, List.cons_append,
        read_quote hescaped, ih hrest, precede_precede, List.singleton_append]
    · rw [doubleBackslashes_plain hslash, escapeRuns_plain hquote, List.cons_append,
        read_plain hquote hslash, ih hrest, precede_precede, List.singleton_append]
  | case3 => exact precede_nil.symm

theorem read_escapedQuotes (n : Nat) (tail : List Char) :
    read (escapedQuotes n ++ tail) = precede (List.replicate n '"') (read tail) := by
  induction n with
  | zero => exact precede_nil.symm
  | succ n ih =>
    rw [escapedQuotes, List.cons_append, List.cons_append, read_escapedQuote, ih, precede_precede]
    rfl

theorem exists_body (cs : List Char) :
    ∃ body n, cs = body ++ List.replicate n '"' ∧ body.getLast? ≠ some '"' := by
  induction cs using List.reverseRecOn with
  | nil => exact ⟨[], 0, rfl, by simp⟩
  | append_singleton cs c ih =>
    by_cases hc : c = '"'
    · obtain ⟨body, n, rfl, hlast⟩ := ih
      refine ⟨body, n + 1, ?_, hlast⟩
      rw [hc, List.append_assoc, List.replicate_succ']
    · exact ⟨cs ++ [c], 0, by simp, by simpa using hc⟩

theorem getLast?_doubleBackslashes (cs : List Char) :
    (doubleBackslashes cs).getLast? = cs.getLast? := by
  induction cs using List.reverseRecOn with
  | nil => rfl
  | append_singleton cs c ih =>
    by_cases hc : c = '\\' <;> simp [doubleBackslashes, hc]

theorem doubleBackslashes_append_quotes (body : List Char) (n : Nat) :
    doubleBackslashes (body ++ List.replicate n '"') =
      doubleBackslashes body ++ List.replicate n '"' := by
  have hquotes : doubleBackslashes (List.replicate n '"') = List.replicate n '"' := by
    induction n with
    | zero => rfl
    | succ n ih => rw [List.replicate_succ, doubleBackslashes_plain (by decide), ih]
  rw [doubleBackslashes, List.flatMap_append, ← doubleBackslashes, ← doubleBackslashes, hquotes]

theorem dropEndWhile_append_quotes {body : List Char} (hlast : body.getLast? ≠ some '"') (n : Nat) :
    dropEndWhile (· == '"') (body ++ List.replicate n '"') = body := by
  have hkept : body.reverse.dropWhile (· == '"') = body.reverse := by
    cases hrev : body.reverse with
    | nil => rfl
    | cons c rest =>
      have hc : c ≠ '"' := by
        rintro rfl
        rw [← List.head?_reverse, hrev] at hlast
        exact hlast rfl
      rw [List.dropWhile_cons_of_neg (by simpa using hc)]
  rw [dropEndWhile, List.reverse_append, List.reverse_replicate, List.dropWhile_append_of_pos,
    hkept, List.reverse_reverse]
  simp

theorem encode_append_quotes {body : List Char} (hlast : body.getLast? ≠ some '"') (n : Nat) :
    encode (body ++ List.replicate n '"') =
      escapeRuns (doubleBackslashes body) ++ escapedQuotes n := by
  have hbody := dropEndWhile_append_quotes (getLast?_doubleBackslashes body ▸ hlast) n
  simp only [encode, doubleBackslashes_append_quotes, hbody, List.length_append,
    List.length_replicate, Nat.add_sub_cancel_left]

theorem read_encode (cs tail : List Char) : read (encode cs ++ tail) = precede cs (read tail) := by
  obtain ⟨body, n, rfl, hlast⟩ := exists_body cs
  rw [encode_append_quotes hlast, List.append_assoc, read_escapeRuns _ _ hlast,
    read_escapedQuotes, precede_precede]

theorem read_words {words : List Char} (h : IsPlain words) (tail : List Char) :
    read (words ++ tail) = precede words (read tail) := by
  induction words with
  | nil => exact precede_nil.symm
  | cons c cs ih =>
    obtain ⟨hc, hcs⟩ := List.forall_mem_cons.mp h
    rw [List.cons_append, read_plain hc.1 hc.2, ih hcs, precede_precede, List.singleton_append]

/-- The delimiter closes the literal of a text with plain words around it, whatever follows. -/
theorem read_surrounded {before after : String} (hbefore : IsPlain before.toList)
    (hafter : IsPlain after.toList) (text : String) (tail : List Char) :
    read ((before ++ escape text ++ after ++ "\"\"\"").toList ++ tail) =
      some ((before ++ text ++ after).toList, tail) := by
  have hdelimiter : read ("\"\"\"".toList ++ tail) = some ([], tail) := rfl
  simp only [escape, String.toList_append, String.toList_ofList, List.append_assoc]
  rw [read_words hbefore, read_encode, read_words hafter, hdelimiter, precede_precede,
    precede_precede, precede, Option.map_some, List.append_nil, List.append_assoc]

theorem read_delimited (text : String) (tail : List Char) :
    read ((escape text ++ "\"\"\"").toList ++ tail) = some (text.toList, tail) := by
  have hnone : IsPlain "".toList := by decide
  simpa using read_surrounded hnone hnone text tail

end TripleQuoted

namespace Quoted

variable {letter : Char}

theorem read_shortEscape (h : shortEscapes.lookup c = some letter) :
    read ('\\' :: letter :: cs) = precede [c] (read cs) := by
  have hescapes : ∀ e ∈ shortEscapes, e.2 ≠ 'u' ∧ unescape? e.2 = some e.1 := by decide
  obtain ⟨before, after, hsplit, -⟩ := List.lookup_eq_some_iff.mp h
  obtain ⟨hletter, hback⟩ := hescapes (c, letter) (by rw [hsplit]; simp)
  rw [read, hback]
  · cases read cs <;> rfl
  · intro a b c d rest heq
    exact absurd heq hletter

theorem read_number (hc : c.toNat < 0x20) :
    read ('\\' :: 'u' :: '0' :: '0' :: hexDigit (c.toNat / 16) :: hexDigit (c.toNat % 16) :: cs) =
      precede [c] (read cs) := by
  have hdigits : ∀ n < 0x20, hexQuad? '0' '0' (hexDigit (n / 16)) (hexDigit (n % 16)) = some n := by
    decide
  have hvalid : c.toNat.isValidChar := c.valid
  have hscalar : scalar? c.toNat = some c := by rw [scalar?, if_pos hvalid, Char.ofNat_toNat]
  rw [read, hdigits _ hc, Option.bind_some, hscalar]
  cases read cs <;> rfl

theorem read_plain (hquote : c ≠ '"') (hslash : c ≠ '\\') (hbreak : isLineBreak c = false) :
    read (c :: cs) = precede [c] (read cs) := by
  rw [read, hbreak]
  · cases read cs <;> rfl
  · exact hquote
  · exact fun _ _ _ _ _ heq _ => hslash heq
  · exact fun _ _ heq _ => hslash heq

theorem read_verbatim (hnone : shortEscapes.lookup c = none) :
    read (c :: cs) = precede [c] (read cs) := by
  have hother : ∀ e ∈ shortEscapes, c ≠ e.1 := by
    intro e he
    simpa using List.lookup_eq_none_iff.mp hnone e he
  have hfeed : c ≠ '\n' := hother ('\n', 'n') (by simp [shortEscapes])
  have hreturn : c ≠ '\r' := hother ('\r', 'r') (by simp [shortEscapes])
  have hquote : c ≠ '"' := hother ('"', '"') (by simp [shortEscapes])
  have hslash : c ≠ '\\' := hother ('\\', '\\') (by simp [shortEscapes])
  exact read_plain hquote hslash (by simp [isLineBreak, hfeed, hreturn])

theorem read_escapeChar (c : Char) (tail : List Char) :
    read (escapeChar c ++ tail) = precede [c] (read tail) := by
  cases h : shortEscapes.lookup c with
  | some letter => simp only [escapeChar, h, List.cons_append, List.nil_append, read_shortEscape h]
  | none =>
    by_cases hc : c.toNat < 0x20
    · simp only [escapeChar, h, hc, if_true, List.cons_append, List.nil_append, read_number hc]
    · simp only [escapeChar, h, hc, if_false, List.cons_append, List.nil_append,
        read_verbatim h]

theorem read_escaped (cs tail : List Char) :
    read (cs.flatMap escapeChar ++ tail) = precede cs (read tail) := by
  induction cs with
  | nil => exact precede_nil.symm
  | cons c cs ih =>
    rw [List.flatMap_cons, List.append_assoc, read_escapeChar, ih, precede_precede,
      List.singleton_append]

theorem decode_encode (cs tail : List Char) : decode (encode cs ++ tail) = some (cs, tail) := by
  rw [encode, List.cons_append, List.append_assoc, decode, read_escaped, List.singleton_append,
    read, precede, Option.map_some, List.append_nil]

end Quoted

end Text

namespace Reader

def docstring : Reader String := do
  skip "\"\"\""
  ofChars Text.TripleQuoted.read

def literal : Reader String := ofChars Text.Quoted.decode

end Reader

namespace Reads

theorem docstring (text : String) :
    Reads Reader.docstring (Source.docstring "" text "") text := by
  have hinside : Reads (Reader.ofChars Text.TripleQuoted.read)
      (Text.TripleQuoted.escape text ++ "\"\"\"") text :=
    ofChars (Text.TripleQuoted.read_delimited text)
  have hread := (skip "\"\"\"").bind (f := fun _ => Reader.ofChars Text.TripleQuoted.read) hinside
  simpa [Reader.docstring, Source.docstring, String.append_assoc] using hread

theorem literal (text : String) : Reads Reader.literal (Source.literal text) text := by
  refine ofChars fun rest => ?_
  rw [Source.literal, Text.Quoted.literal, String.toList_ofList, Text.Quoted.decode_encode]

end Reads

end AgentAssembly
