import AgentAssembly.Text.Unprintable

/-!
How a message shows a value: between double quotes, with what cannot be seen written as an
escape. Single quotes stand as they are.
-/

namespace AgentAssembly.Text

def shownEscapes : List (Char × Char) :=
  [('\x00', '0'), ('\t', 't'), ('\r', 'r'), ('\n', 'n'), ('"', '"'), ('\\', '\\')]

def shownChar (c : Char) : List Char :=
  match shownEscapes.lookup c with
  | some letter => ['\\', letter]
  | none =>
    if Unprintable.holds c then
      ['\\', 'u', '\x7b'] ++ Nat.toDigits 16 c.toNat ++ ['\x7d']
    else [c]

def shown (text : String) : String :=
  String.ofList ('"' :: (text.toList.flatMap shownChar ++ ['"']))

end AgentAssembly.Text
