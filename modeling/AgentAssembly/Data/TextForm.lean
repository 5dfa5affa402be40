import AgentAssembly.Data.Json

/-!
Values that are exchanged as texts.
-/

namespace AgentAssembly

structure TextForm (α : Type) where
  write : α → String
  read? : String → Option α

namespace TextForm

variable {α : Type} (form : TextForm α)

def toJson (a : α) : Json := .text (form.write a)

def ofJson? : Json → Option α
  | .text s => form.read? s
  | _ => none

end TextForm
end AgentAssembly
