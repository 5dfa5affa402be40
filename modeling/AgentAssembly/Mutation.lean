/-!
Programs that change a state step by step and may fail at any step. A failure takes nothing back:
what has been written by then stays written.
-/

namespace AgentAssembly

abbrev Mutation (σ ε α : Type) := ExceptT ε (StateM σ) α

namespace Mutation

variable {σ τ ε α β : Type}

def refuse (fault? : σ → Option ε) : Mutation σ ε Unit := do
  match fault? (← get) with
  | some fault => throw fault
  | none => pure ()

def refuseIf (unfit : σ → Bool) (fault : ε) : Mutation σ ε Unit :=
  refuse fun s => if unfit s then some fault else none

/-- Writes what is given; without it the state stands. -/
def write (given : Option β) (f : β → σ → σ) : Mutation σ ε Unit :=
  match given with
  | some b => modify (f b)
  | none => pure ()

def within (part : σ → τ) (put : τ → σ → σ) (m : Mutation τ ε α) : Mutation σ ε α := fun s =>
  let (result, t) := m (part s)
  (result, put t s)

def onFirst (p : α → Bool) (absent : ε) (m : Mutation α ε β) : Mutation (List α) ε β
  | [] => (.error absent, [])
  | a :: rest =>
    if p a then
      let (result, b) := m a
      (result, b :: rest)
    else
      let (result, rest) := onFirst p absent m rest
      (result, a :: rest)

end Mutation
end AgentAssembly
