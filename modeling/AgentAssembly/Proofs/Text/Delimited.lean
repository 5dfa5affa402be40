import AgentAssembly.Proofs.Text.Literals

/-!
Where a literal ends. Main statements: a text between triple quotes, with plain words around it, is
closed by the delimiter behind these and by nothing before it; a text between double quotes is
closed by its last quote alone, and its literal holds no control character.
-/

namespace AgentAssembly.Text

variable {c letter : Char} {cs ds text after front more : List Char}

theorem precede_eq_some_iff {reading : Option (List Char × List Char)} :
    precede ds reading = some (text, after) ↔
      ∃ inner, reading = some (inner, after) ∧ text = ds ++ inner := by
  rw [precede, Option.map_eq_some_iff]
  constructor
  · rintro ⟨⟨inner, left⟩, hreading, heq⟩
    obtain ⟨rfl, rfl⟩ := Prod.mk.inj heq
    exact ⟨inner, hreading, rfl⟩
  · rintro ⟨inner, hreading, rfl⟩
    exact ⟨(inner, after), hreading, rfl⟩

/-- What is read at the front of a text does not depend on what is appended to the text. -/
def IsLocal (read : List Char → Option (List Char × List Char)) : Prop :=
  ∀ cs more text after, read cs = some (text, after) →
    read (cs ++ more) = some (text, after ++ more)

theorem IsLocal.eq_none {read : List Char → Option (List Char × List Char)} (h : IsLocal read)
    (hread : read (front ++ more) = some (text, [])) (hmore : more ≠ []) : read front = none := by
  cases hfront : read front with
  | none => rfl
  | some reading =>
    obtain ⟨early, left⟩ := reading
    have hwhole := h front more early left hfront
    rw [hread, Option.some.injEq, Prod.mk.injEq] at hwhole
    exact absurd (List.append_eq_nil_iff.mp hwhole.2.symm).2 hmore

namespace TripleQuoted

/-- Reads up to the first three quotes in a row that no backslash takes, and gives what follows
them. A backslash takes whatever stands behind it: a backslash or a quote for itself, and any other
character for what `other` makes of it. -/
def readWith (other : Char → List Char) : List Char → Option (List Char × List Char)
  | [] => none
  | '"' :: '"' :: '"' :: rest => some ([], rest)
  | '\\' :: c :: rest =>
    precede (if c = '\\' ∨ c = '"' then [c] else other c) (readWith other rest)
  | c :: rest => precede [c] (readWith other rest)

variable {other : Char → List Char}

/-- Where no other escapes occur, it makes no difference what they would stand for. -/
theorem readWith_of_read (h : read cs = some (text, after)) :
    readWith other cs = some (text, after) := by
  induction cs using read.induct generalizing text after with
  | case1 => simp [read] at h
  | case2 rest => exact h
  | case3 c rest hc ih =>
    have hread : read ('\\' :: c :: rest) = precede [c] (read rest) := by
      rw [read, if_pos hc]
      rfl
    rw [hread] at h
    obtain ⟨inner, hinner, rfl⟩ := precede_eq_some_iff.mp h
    rw [readWith, if_pos hc, ih hinner]
    rfl
  | case4 c rest hc => simp [read, hc] at h
  | case5 c rest hrun hescape ih =>
    have hread : read (c :: rest) = precede [c] (read rest) := by
      rw [read]
      · rfl
      · exact hrun
      · exact hescape
    rw [hread] at h
    obtain ⟨inner, hinner, rfl⟩ := precede_eq_some_iff.mp h
    rw [readWith, ih hinner]
    · rfl
    · exact hrun
    · exact hescape

/-- Where something is read up to a delimiter, two quotes are not completed to three by what is
appended. -/
theorem not_quotes_append (hread : readWith other cs = some (text, after))
    (hrun : ∀ rest, cs ≠ '"' :: '"' :: rest) (more : List Char) :
    ∀ rest, cs ++ more ≠ '"' :: '"' :: rest := by
  intro rest heq
  match cs, hread, hrun with
  | [], hread, _ => simp [readWith] at hread
  | [c], hread, _ =>
    obtain ⟨rfl, -⟩ := List.cons.inj heq
    simp [readWith, precede] at hread
  | c :: d :: ds, _, hrun =>
    obtain ⟨rfl, hds⟩ := List.cons.inj heq
    obtain ⟨rfl, -⟩ := List.cons.inj hds
    exact hrun ds rfl

theorem isLocal_readWith : IsLocal (readWith other) := by
  intro cs more text after h
  induction cs using readWith.induct generalizing text after with
  | case1 => simp [readWith] at h
  | case2 rest => simp_all [readWith]
  | case3 c rest ih =>
    rw [readWith] at h
    obtain ⟨inner, hinner, rfl⟩ := precede_eq_some_iff.mp h
    rw [List.cons_append, List.cons_append, readWith, ih _ _ hinner]
    rfl
  | case4 c rest hrun hescape ih =>
    rw [readWith] at h
    · obtain ⟨inner, hinner, rfl⟩ := precede_eq_some_iff.mp h
      rw [List.cons_append, readWith, ih _ _ hinner]
      · rfl
      · intro r hc
        exact not_quotes_append hinner (fun r heq => hrun r hc heq) more r
      · -- A backslash takes nothing only at the end, where no delimiter follows.
        intro d r hc
        cases rest with
        | nil => simp [readWith] at hinner
        | cons d rest => exact fun _ => hescape d rest hc rfl
    · exact hrun
    · exact hescape

theorem escape_injective : Function.Injective escape := by
  intro s t hst
  have hread := read_delimited s []
  rw [hst, read_delimited] at hread
  simpa [String.toList_inj] using hread.symm

/-- A text between triple quotes, with plain words before and behind it, is read back with these
words and without what follows the delimiter. No proper beginning of the literal can be read, so it
is not closed early, and different texts are written differently. -/
theorem escape_read_back (other : Char → List Char) (before after : String)
    (hbefore : IsPlain before.toList) (hafter : IsPlain after.toList) (text : String) :
    (∀ rest : String,
      readWith other (before ++ escape text ++ after ++ "\"\"\"" ++ rest).toList =
        some ((before ++ text ++ after).toList, rest.toList)) ∧
    (∀ front more, (before ++ escape text ++ after ++ "\"\"\"").toList = front ++ more →
      more ≠ [] → readWith other front = none) ∧
    Function.Injective escape := by
  refine ⟨fun rest => ?_, fun front more hsplit hmore => ?_, escape_injective⟩
  · rw [String.toList_append]
    exact readWith_of_read (read_surrounded hbefore hafter text rest.toList)
  · have hread := read_surrounded hbefore hafter text []
    rw [List.append_nil, hsplit] at hread
    exact isLocal_readWith.eq_none (readWith_of_read hread) hmore

def quotedText : String := "\"\\\"\"\"\"\\n\"\"\"\"\""

theorem escape_read_back_quotedText :
    IsPlain "Chat with the ".toList ∧ IsPlain " agents.\n".toList ∧
      readWith (['\\', ·]) ("Chat with the " ++ escape quotedText ++ " agents.\n" ++ "\"\"\"" ++
        "\"\"\"x").toList =
          some (("Chat with the " ++ quotedText ++ " agents.\n").toList, ['"', '"', '"', 'x']) ∧
      readWith (['\\', ·])
        ("Chat with the " ++ escape quotedText ++ " agents.\n" ++ "\"\"").toList = none := by
  have hbefore : IsPlain "Chat with the ".toList := by decide
  have hafter : IsPlain " agents.\n".toList := by decide
  obtain ⟨hread, hearly, -⟩ :=
    escape_read_back (['\\', ·]) "Chat with the " " agents.\n" hbefore hafter quotedText
  refine ⟨hbefore, hafter, hread "\"\"\"x", hearly _ ['"'] ?_ (by simp)⟩
  simp [String.toList_append]

end TripleQuoted

namespace Quoted

theorem isLocal_read : IsLocal read := by
  intro cs more text after h
  induction cs using read.induct generalizing text after with
  | case1 => simp [read] at h
  | case2 rest => simp_all [read]
  | case3 a b c d rest x inner left hrest hx ih =>
    have hread : ∀ ds, read ('\\' :: 'u' :: a :: b :: c :: d :: ds) = precede [x] (read ds) := by
      intro ds
      rw [read, hx]
      cases read ds <;> rfl
    rw [hread] at h
    obtain ⟨inner, hinner, rfl⟩ := precede_eq_some_iff.mp h
    simp only [List.cons_append, hread, ih _ _ hinner]
    rfl
  | case4 a b c d rest hnone ih =>
    rw [read] at h
    split at h
    · rename_i x inner left hx hrest
      exact (hnone x inner left hx hrest).elim
    · simp at h
  | case5 letter rest hshort x inner left hrest hx ih =>
    have hletter : letter ≠ 'u' := by
      rintro rfl
      have hno : unescape? 'u' = none := by decide
      simp [hno] at hx
    have hread : ∀ ds, read ('\\' :: letter :: ds) = precede [x] (read ds) := by
      intro ds
      rw [read, hx]
      · cases read ds <;> rfl
      · exact fun _ _ _ _ _ heq _ => hletter heq
    rw [hread] at h
    obtain ⟨inner, hinner, rfl⟩ := precede_eq_some_iff.mp h
    simp only [List.cons_append, hread, ih _ _ hinner]
    rfl
  | case6 letter rest hshort hnone ih =>
    rw [read] at h
    · split at h
      · rename_i x inner left hx hrest
        exact (hnone x inner left hx hrest).elim
      · simp at h
    · exact hshort
  | case7 x rest hquote hlong hshort hbreak =>
    rw [read, if_pos hbreak] at h
    · simp at h
    · exact hquote
    · exact hlong
    · exact hshort
  | case8 x rest hquote hlong hshort hbreak ih =>
    have hbreak : isLineBreak x = false := by simpa using hbreak
    have hslash : x ≠ '\\' := by
      rintro rfl
      cases rest with
      | nil => simp [read, isLineBreak] at h
      | cons letter rest => exact hshort letter rest rfl rfl
    rw [read_plain hquote hslash hbreak] at h
    obtain ⟨inner, hinner, rfl⟩ := precede_eq_some_iff.mp h
    rw [List.cons_append, read_plain hquote hslash hbreak, ih _ _ hinner]
    rfl

theorem isLocal_decode : IsLocal decode := by
  intro cs more text after h
  cases cs with
  | nil => simp [decode] at h
  | cons c cs =>
    by_cases hc : c = '"'
    · subst hc
      exact isLocal_read cs more text after h
    · simp [decode, hc] at h

theorem printable_escapeChar {c d : Char} (h : d ∈ escapeChar c) : 0x20 ≤ d.toNat := by
  have hletters : ∀ e ∈ shortEscapes, 0x20 ≤ e.2.toNat := by decide
  have hdigits : ∀ n < 16, 0x20 ≤ (hexDigit n).toNat := by decide
  rw [escapeChar] at h
  split at h
  · rename_i letter hletter
    obtain ⟨before, after, hsplit, -⟩ := List.lookup_eq_some_iff.mp hletter
    have hshort := hletters (c, letter) (by rw [hsplit]; simp)
    obtain rfl | rfl := by simpa using h
    · decide
    · exact hshort
  · split at h
    · rename_i hlow
      have hhigh := hdigits (c.toNat / 16) (by omega)
      have hlast := hdigits (c.toNat % 16) (by omega)
      obtain rfl | rfl | rfl | rfl | rfl := by simpa using h
      · decide
      · decide
      · decide
      · exact hhigh
      · exact hlast
    · obtain rfl := List.mem_singleton.mp h
      omega

/-- A literal is read back as its text and without what follows it, whatever that is. No proper
beginning of it can be read, and it holds no control character. -/
theorem literal_read_back (text : String) :
    (∀ rest : String, decode (literal text ++ rest).toList = some (text.toList, rest.toList)) ∧
    (∀ front more, (literal text).toList = front ++ more → more ≠ [] → decode front = none) ∧
    ∀ c ∈ (literal text).toList, 0x20 ≤ c.toNat := by
  have hliteral : (literal text).toList = encode text.toList := String.toList_ofList
  refine ⟨fun rest => ?_, fun front more hsplit hmore => ?_, fun c hc => ?_⟩
  · rw [String.toList_append, hliteral, decode_encode]
  · have hread := decode_encode text.toList []
    rw [List.append_nil, ← hliteral, hsplit] at hread
    exact isLocal_decode.eq_none hread hmore
  · simp only [hliteral, encode, List.mem_cons, List.mem_append, List.mem_flatMap,
      List.not_mem_nil, or_false] at hc
    obtain rfl | ⟨d, -, hd⟩ | rfl := hc
    · decide
    · exact printable_escapeChar hd
    · decide

def controlText : String := "\"\\u\x01\x7f\n"

theorem literal_read_back_controlText :
    decode (literal controlText ++ "\"\n").toList = some (controlText.toList, ['"', '\n']) ∧
      decode (literal controlText).toList.dropLast = none := by
  obtain ⟨hread, hearly, -⟩ := literal_read_back controlText
  refine ⟨hread "\"\n", hearly _ ['"'] ?_ (by simp)⟩
  decide

end Quoted
end AgentAssembly.Text
