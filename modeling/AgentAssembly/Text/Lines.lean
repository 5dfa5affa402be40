import AgentAssembly.Text.Blank

/-!
Lines. A line ends at a line feed; a carriage return right before it belongs to the ending.
-/

namespace AgentAssembly.Text

/-- The pieces between the characters that satisfy `p`: one more than there are of these. -/
def pieces (p : Char → Bool) : List Char → List (List Char)
  | [] => [[]]
  | c :: cs =>
    if p c then [] :: pieces p cs
    else match pieces p cs with
      | [] => [[c]]
      | q :: qs => (c :: q) :: qs

theorem pieces_ne_nil (p : Char → Bool) (cs : List Char) : pieces p cs ≠ [] := by
  cases cs with
  | nil => simp [pieces]
  | cons c cs =>
    simp only [pieces]
    split
    · simp
    · split <;> simp

def isLineBreak (c : Char) : Bool := c == '\n' || c == '\r'

def hasLineBreak (s : String) : Bool := s.toList.any isLineBreak

def dropReturn (cs : List Char) : List Char :=
  if cs.getLast? = some '\r' then cs.dropLast else cs

def lines (cs : List Char) : List (List Char) :=
  (pieces (· == '\n') cs).map dropReturn

def indentLine (width : Nat) (line : List Char) : List Char :=
  if line.all isBlankChar then [] else List.replicate width ' ' ++ line

def indentLines (width : Nat) (text : String) : String :=
  String.ofList <|
    ['\n'].intercalate ((lines (dropEndWhile isLineBreak text.toList)).map (indentLine width))

/-- The text on one line: what stands between line breaks, trimmed, with single spaces between. -/
def oneLine (text : String) : String :=
  String.ofList <|
    [' '].intercalate
      (((pieces isLineBreak text.toList).map (trimChars isBlankChar)).filter (!·.isEmpty))

end AgentAssembly.Text
