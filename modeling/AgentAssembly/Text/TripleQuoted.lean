import AgentAssembly.Text.Blank

/-!
Text between triple quotes. A backslash is doubled, a run of three quotes is escaped, and so is
every quote at the end, which would otherwise run into the closing delimiter.
-/

namespace AgentAssembly.Text.TripleQuoted

def doubleBackslashes (cs : List Char) : List Char :=
  cs.flatMap fun c => if c = '\\' then ['\\', '\\'] else [c]

def escapeRuns : List Char → List Char
  | '"' :: '"' :: '"' :: rest => '\\' :: '"' :: '\\' :: '"' :: '\\' :: '"' :: escapeRuns rest
  | c :: rest => c :: escapeRuns rest
  | [] => []

def escapedQuotes : Nat → List Char
  | 0 => []
  | n + 1 => '\\' :: '"' :: escapedQuotes n

def encode (cs : List Char) : List Char :=
  let doubled := doubleBackslashes cs
  let body := dropEndWhile (· == '"') doubled
  escapeRuns body ++ escapedQuotes (doubled.length - body.length)

/-- Reads up to the first three quotes in a row that no backslash takes, and gives what follows
them. A backslash may take a backslash or a quote. -/
def read : List Char → Option (List Char × List Char)
  | [] => none
  | '"' :: '"' :: '"' :: rest => some ([], rest)
  | '\\' :: c :: rest =>
    if c = '\\' ∨ c = '"' then (read rest).map fun (text, after) => (c :: text, after) else none
  | c :: rest => (read rest).map fun (text, after) => (c :: text, after)

def escape (text : String) : String := String.ofList (encode text.toList)

end AgentAssembly.Text.TripleQuoted
