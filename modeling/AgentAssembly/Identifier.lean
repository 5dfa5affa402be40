/-!
Identifiers derived from labels. Agents, tools and projects have free labels; generated modules
and symbols need identifiers, and the checks and the written package derive them here alike.
-/

namespace AgentAssembly.Identifier

def keywords : List String :=
  ["False", "None", "True", "and", "as", "assert", "async", "await", "break", "class",
   "continue", "def", "del", "elif", "else", "except", "finally", "for", "from", "global",
   "if", "import", "in", "is", "lambda", "nonlocal", "not", "or", "pass", "raise", "return",
   "try", "while", "with", "yield"]

def isKeyword (s : String) : Bool := keywords.contains s

/-- A character inside an identifier: an ASCII letter or digit, or an underscore. -/
def isPart (c : Char) : Bool := c.isAlphanum || c == '_'

def isStart (c : Char) : Bool := c.isAlpha || c == '_'

def isIdentifier (s : String) : Bool :=
  match s.toList with
  | [] => false
  | c :: rest => isStart c && rest.all isPart && !isKeyword s

/-- A word starts at a capital after a small letter or a digit. -/
def startsWord (previous : Option Char) (c : Char) : Bool :=
  c.isUpper && previous.any fun p => p.isLower || p.isDigit

/-- The words of a label in small letters, with one underscore for what stands between them.
`previous` is the character read last, and `gap` says that an underscore was written last. -/
def joinWords (previous : Option Char) (gap : Bool) : List Char → List Char
  | [] => []
  | c :: rest =>
    if c.isAlphanum then
      if startsWord previous c && !gap then '_' :: c.toLower :: joinWords (some c) false rest
      else c.toLower :: joinWords (some c) false rest
    else if gap then joinWords (some c) true rest
    else '_' :: joinWords (some c) true rest

def trimUnderscores (cs : List Char) : List Char :=
  ((cs.dropWhile (· == '_')).reverse.dropWhile (· == '_')).reverse

def withStart : List Char → List Char
  | [] => "unnamed".toList
  | c :: rest => if c.isDigit then '_' :: c :: rest else c :: rest

def avoidKeyword (s : String) : String := if isKeyword s then s ++ "_" else s

/-- The name of the module of a label. White space around a label is no part of a word, so it
leaves no trace. -/
def moduleName (label : String) : String :=
  avoidKeyword (String.ofList (withStart (trimUnderscores (joinWords none false label.toList))))

def isAgentName (s : String) : Bool := s == "agent" || "_agent".toList.isSuffixOf s.toList

def agentVariable (label : String) : String :=
  let name := moduleName label
  if isAgentName name then name else name ++ "_agent"

def toolFunction (label : String) : String := moduleName label

end AgentAssembly.Identifier
